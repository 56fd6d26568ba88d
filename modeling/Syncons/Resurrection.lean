import Syncons.Handshake

/-! Interruptions and recoveries along a run. Nothing but a cutover makes a node
ACTIVE, and a cutover looks only at the committed bitmap, so a member interrupted
since it was last marked RECOVERING comes back without repair. -/
namespace Syncons
open Outcome Runs

namespace OnlineRejoinControlPlane

variable {slack : Int} {timing : SimulationTiming} {nodeCount i : Nat}
  {cp cp' : OnlineRejoinControlPlane} {state state' : ControlPlaneState} {op : Op}
  {moves pre : List (Move OnlineRejoinControlPlane Op)} {m : Move OnlineRejoinControlPlane Op}

def nodeIs (cp : OnlineRejoinControlPlane) (i : Nat) (s : MembershipState) : Prop :=
  ∃ state ∈ cp.currentState, inState state i s
instance (cp : OnlineRejoinControlPlane) (i s) : Decidable (cp.nodeIs i s) := by
  unfold nodeIs; infer_instance

def interrupts (op : Op) (i : Nat) : Prop :=
  match op with
  | .observe event => interruption event.toNodeEvent ∧ event.nodeId = i
  | _ => False
instance (op i) : Decidable (interrupts op i) :=
  match op with
  | .observe event => inferInstanceAs (Decidable (interruption event.toNodeEvent ∧ event.nodeId = i))
  | .call .. | .advance .. => inferInstanceAs (Decidable False)

def recoveredBy (m : Move OnlineRejoinControlPlane Op) : List Nat :=
  ((m.after.applied.drop m.before.applied.length).filter
    (fun record => record.action = .scheduled .markRecovering)).flatMap AppliedAction.nodeIds

def Unrepaired (moves : List (Move OnlineRejoinControlPlane Op)) (i : Nat) : Prop :=
  ∃ before m since, moves = before ++ m :: since ∧ interrupts m.op i ∧ ∀ x ∈ since, i ∉ recoveredBy x

def NoResurrection (moves : List (Move OnlineRejoinControlPlane Op)) : Prop :=
  ∀ pre m post, moves = pre ++ m :: post →
    ∀ i, Unrepaired (pre ++ [m]) i → ¬ m.after.nodeIs i .active

theorem unrepairedSnoc :
    Unrepaired (moves ++ [m]) i ↔ interrupts m.op i ∨ Unrepaired moves i ∧ i ∉ recoveredBy m := by
  constructor
  · rintro ⟨before,x,since,split,interrupted,spared⟩
    rcases List.eq_nil_or_concat since with rfl | ⟨rest,last,rfl⟩
    · obtain ⟨_,same⟩ := List.append_inj' split rfl
      cases same
      exact Or.inl interrupted
    · rw [List.concat_eq_append,← List.cons_append,← List.append_assoc] at split
      obtain ⟨same,tail⟩ := List.append_inj' split rfl
      cases tail
      exact Or.inr ⟨⟨before,x,rest,same,interrupted,fun y member => spared y (by simp [member])⟩,
        spared _ (by simp)⟩
  · rintro (interrupted | ⟨⟨before,x,since,rfl,interrupted,spared⟩,last⟩)
    · exact ⟨moves,m,[],rfl,interrupted,by simp⟩
    · refine ⟨before,x,since ++ [m],by simp,interrupted,?_⟩
      intro y member
      rcases List.mem_append.mp member with old | new
      · exact spared y old
      · rw [List.mem_singleton.mp new]
        exact last

def outstanding (moves : List (Move OnlineRejoinControlPlane Op)) (candidates : List Nat) : List Nat :=
  candidates.filter (fun i => moves.foldl
    (fun held m => decide (interrupts m.op i) || (held && decide (i ∉ recoveredBy m))) false)

theorem memOutstanding {candidates : List Nat} (h : i ∈ outstanding moves candidates) : Unrepaired moves i := by
  have held := (List.mem_filter.mp h).2
  clear h
  induction moves using List.reverseRecOn with
  | nil => simp at held
  | append_singleton rest m ih =>
    rw [List.foldl_append,List.foldl_cons,List.foldl_nil,Bool.or_eq_true,Bool.and_eq_true,
      decide_eq_true_eq,decide_eq_true_eq] at held
    exact unrepairedSnoc.mpr (held.imp id (fun old => ⟨ih old.1,old.2⟩))

theorem nodeIsIff (h : Tracked cp state) (s : MembershipState) : cp.nodeIs i s ↔ inState state i s := by
  simp [nodeIs,h.current]

theorem failedNotActive {target : Nat} (active : inState (failedState state target) i .active) :
    inState state i .active ∧ i ≠ target := by
  rw [inState,lookupFailed] at active
  split at active
  · simp at active
  · exact ⟨active,by assumption⟩

theorem effectActive (h : Effect cp state op cp' state') (active : inState state' i .active) :
    inState state i .active ∧ ¬ interrupts op i ∨
    ∃ snapshots roundId future, op = .call snapshots roundId ∧ cp.cutoverDue roundId = some future ∧
      i < cp.nodeCount ∧ future.membersBitmap.testBit i = true := by
  cases op with
  | advance snapshots timeNs => exact Or.inl ⟨h.1.activeOnly i active,id⟩
  | call snapshots roundId =>
    cases h with
    | quiet early rebuilt => exact Or.inl ⟨active,id⟩
    | @cutover future pending committed due rebuilt =>
      have held : (cp.cutoverState future).nodeStates.lookup i = some .active := active
      rw [lookupCutover] at held
      refine Or.inr ⟨snapshots,roundId,future,rfl,?_,?_⟩
      · simp only [cutoverDue,pending,committed,ne_eq,not_true_eq_false,if_false]
        exact if_neg (by omega)
      · split at held
        · rename_i bound
          split at held
          · exact ⟨bound,by assumption⟩
          · simp at held
        · simp at held
  | observe event =>
    cases h with
    | ignored other => exact Or.inl ⟨active,fun kind => other kind.1⟩
    | acked kind held prepared acked =>
      refine Or.inl ⟨active,?_⟩
      rintro ⟨interrupted,_⟩
      simp [interruption,kind] at interrupted
    | collected kind collects =>
      obtain ⟨before,other⟩ := failedNotActive active
      exact Or.inl ⟨before,fun same => other same.2.symm⟩
    | queued kind late =>
      obtain ⟨before,other⟩ := failedNotActive active
      exact Or.inl ⟨before,fun same => other same.2.symm⟩

/- No cutover of the run installs a member that was interrupted and not marked
RECOVERING since. -/
def CutoversRepaired (nodeCount : Nat) (moves : List (Move OnlineRejoinControlPlane Op)) : Prop :=
  ∀ pre m post, moves = pre ++ m :: post →
    ∀ snapshots roundId future, m.op = .call snapshots roundId →
      m.before.cutoverDue roundId = some future →
      ∀ i < nodeCount, future.membersBitmap.testBit i = true → ¬ Unrepaired pre i

theorem repairedPrefix (h : CutoversRepaired nodeCount (moves ++ [m])) : CutoversRepaired nodeCount moves := by
  intro pre x post split
  exact h pre x (post ++ [m]) (by simp [split])

theorem ranRepaired (ran : Ran (runs slack timing nodeCount) moves cp)
    (repaired : CutoversRepaired nodeCount moves) (unrepaired : Unrepaired moves i) :
    ¬ cp.nodeIs i .active := by
  induction ran with
  | start h =>
    obtain ⟨before,m,since,split,_⟩ := unrepaired
    simp at split
  | @move moves s op s' before h ih =>
    obtain ⟨state,state',coherent,coherent',effect⟩ := stepEffect (ranSound before) h
    rw [nodeIsIff coherent'.tracked]
    intro active
    rcases unrepairedSnoc.mp unrepaired with interrupted | ⟨old,_⟩
    · rcases effectActive effect active with ⟨_,spared⟩ | ⟨_,_,_,call,_⟩
      · exact spared interrupted
      · simp [interrupts,call] at interrupted
    · rcases effectActive effect active with ⟨was,_⟩ | ⟨snapshots,roundId,future,call,due,bound,bit⟩
      · exact ih (repairedPrefix repaired) old ((nodeIsIff coherent.tracked _).mpr was)
      · rw [(ranSound before).nodeCount] at bound
        exact repaired moves ⟨s,op,s'⟩ [] rfl snapshots roundId future call due i bound bit old

theorem cutoverActivates {snapshots : List RepairSnapshot} {roundId : Int}
    {future : PendingConfig} (effect : Effect cp state (.call snapshots roundId) cp' state')
    (due : cp.cutoverDue roundId = some future) (bound : i < cp.nodeCount)
    (bit : future.membersBitmap.testBit i = true) :
    inState state' i .active ∧ recoveredBy ⟨cp,.call snapshots roundId,cp'⟩ = [] := by
  cases effect with
  | quiet early rebuilt =>
    rcases cutoverDueCases cp roundId with ⟨none,_⟩ | ⟨other,held,pending,committed,reached⟩
    · simp [none] at due
    · have := early other pending committed
      omega
  | @cutover other pending committed reached rebuilt =>
    rcases cutoverDueCases cp roundId with ⟨none,_⟩ | ⟨_,held,pending',_,_⟩
    · simp [none] at due
    · cases Option.some.inj (held.symm.trans due)
      cases Option.some.inj (pending'.symm.trans pending)
      refine ⟨?_,?_⟩
      · change (cp.cutoverState future).nodeStates.lookup i = _
        rw [lookupCutover,if_pos bound,if_pos bit]
      · have grown : ((cp.afterCutover roundId future).beginCollectionWindow
            (roundId * cp.timing.roundLengthNs)).applied = (cp.afterCutover roundId future).applied := by
          rcases beginCollectionWindowCases (cp.afterCutover roundId future)
            (roundId * cp.timing.roundLengthNs) with same | ⟨_,_,_,same⟩ <;> rw [same]
        change (((List.drop cp.applied.length ((cp.afterCutover roundId future).beginCollectionWindow
          (roundId * cp.timing.roundLengthNs)).applied).filter _).flatMap _) = []
        rw [grown]
        simp [afterCutover,clearEpisodeState]

theorem resurrectedOnlyByCutover (ran : Ran (runs slack timing nodeCount) moves cp) :
    NoResurrection moves ↔ CutoversRepaired nodeCount moves := by
  constructor
  · intro none pre m post split snapshots roundId future call due i bound bit unrepaired
    obtain ⟨upTo,step,_⟩ := ranAt (split ▸ ran)
    obtain ⟨state,state',coherent,coherent',effect⟩ := stepEffect (ranSound upTo) step
    rw [← (ranSound upTo).nodeCount] at bound
    obtain ⟨cp,op,cp'⟩ := m
    cases call
    obtain ⟨active,recovered⟩ := cutoverActivates effect due bound bit
    have still := unrepairedSnoc.mpr (Or.inr ⟨unrepaired,by rw [recovered]; simp⟩)
    exact none pre _ post split i still ((nodeIsIff coherent'.tracked _).mpr active)
  · intro repaired pre m post split i unrepaired
    obtain ⟨_,_,upTo⟩ := ranAt (split ▸ ran)
    refine ranRepaired upTo ?_ unrepaired
    intro a x b inner
    exact repaired a x (b ++ post) (by rw [split,List.append_cons,inner]; simp)

def Op.time? : Op → Option Int
  | .advance _ timeNs => some timeNs
  | _ => none

def Op.round? : Op → Option Int
  | .call _ roundId => some roundId
  | _ => none

def Ordered (ops : List Op) : Prop :=
  (ops.filterMap Op.time?).Pairwise (· ≤ ·) ∧ (ops.filterMap Op.round?).Pairwise (· ≤ ·)
instance (ops : List Op) : Decidable (Ordered ops) := by unfold Ordered; infer_instance

-- The only node crashes, is prepared, acknowledges, and crashes again before its commit.
def crashedAgain : List Op :=
  [.advance [] 0,.call [] 0,.observe (crashOf 0 0 10000),.advance [] 32000,.advance [] 96000,
    .observe (ackOf 0 1 34 24 96000),.observe (crashOf 0 25 110000),.advance [] 112000,.call [] 34]

def opsOf (moves : List (Move OnlineRejoinControlPlane Op)) : List Op := moves.map Move.op

def resurrectedAtEnd (result : List (Move OnlineRejoinControlPlane Op) × OnlineRejoinControlPlane) : Bool :=
  Ordered (opsOf result.1) ∧ (outstanding result.1 [0] = [0]) ∧ result.2.nodeIs 0 .active

theorem resurrectionAfterCommit :
    ¬ ∀ slack timing nodeCount moves cp, 0 < timing.roundLengthNs →
      Ran (runs slack timing nodeCount) moves cp → Ordered (opsOf moves) → NoResurrection moves := by
  intro claim
  have value : (recorded 10 {} 1 crashedAgain).toOption.map resurrectedAtEnd = some true := by
    decide +kernel
  obtain ⟨⟨moves,cp⟩,done,found⟩ := okFound value
  have ran := recordedRan (by decide) done
  simp only [resurrectedAtEnd,decide_eq_true_eq] at found
  obtain ⟨ordered,held,active⟩ := found
  have inside : 0 ∈ outstanding moves [0] := by simp [held]
  have unrepaired := memOutstanding inside
  rcases List.eq_nil_or_concat moves with rfl | ⟨pre,m,rfl⟩
  · obtain ⟨before,x,since,split,_⟩ := unrepaired
    simp at split
  · rw [List.concat_eq_append] at ran ordered unrepaired
    obtain ⟨_,_,same⟩ := ranSnoc ran
    exact claim 10 {} 1 _ cp (by decide) ran ordered pre m [] rfl 0 unrepaired (same ▸ active)

theorem resurrectedOnlyByCutoverOnce :
    ∃ moves cp, Ran (runs 10 {} 1) moves cp ∧ cp.installedConfig = some ⟨1,1,1⟩ ∧
      (NoResurrection moves ↔ CutoversRepaired 1 moves) := by
  obtain ⟨moves,cp,ran,installed⟩ := rejoinedOnce
  exact ⟨moves,cp,ran,installed,resurrectedOnlyByCutover ran⟩

end OnlineRejoinControlPlane
end Syncons
