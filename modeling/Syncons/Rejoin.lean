import Syncons.Agreement
import Syncons.Cutover

/-! Rejoining. A node under repair is handed the longest stored history anew in every round,
so it starts its new run with the one stored when the last round before the cutover began.
The survivors commit one more round after that. -/
namespace Syncons
open Outcome Runs
open OnlineRejoinControlPlane (inState)

namespace ClusterRun

variable {run : ClusterRun} {pt : Point} {s s' : Cluster} {i j k r : Nat}
  {moves pre mid post : List (Move Point Phase)} {m x : Move Point Phase}
  {before : OnlineRejoinControlPlane} {state shown : ControlPlaneState} {as : MembershipState}

def shownAs (as : MembershipState) (i : Nat) (s : Cluster) : Prop :=
  ∃ u ∈ s.lastControlPlaneUpdates i, u.membershipState = as
instance (as i s) : Decidable (shownAs as i s) := by unfold shownAs; infer_instance

def repairing (i : Nat) (s : Cluster) : Prop := shownAs .recovering i s ∨ shownAs .rejoinPending i s
instance (i s) : Decidable (repairing i s) := by unfold repairing; infer_instance

def holdsRound (history : List CommittedRoundRecord) (round : Int) : Prop :=
  ∃ entry ∈ history, entry.round = round
instance (history round) : Decidable (holdsRound history round) := by unfold holdsRound; infer_instance

theorem shownState (latest : s.lastControlPlaneUpdates i = some (buildControlPlaneUpdate i shown))
    (known : as ≠ .failed) : shownAs as i s ↔ inState shown i as := by
  simp only [shownAs,latest,Option.mem_some_iff,exists_eq_left',buildControlPlaneUpdate,Dict.getD,inState]
  cases shown.nodeStates.lookup i with
  | none => simp [known.symm]
  | some held => simp

theorem repairingState (latest : s.lastControlPlaneUpdates i = some (buildControlPlaneUpdate i shown)) :
    repairing i s ↔ inState shown i .recovering ∨ inState shown i .rejoinPending := by
  unfold repairing
  rw [shownState latest (by simp),shownState latest (by simp)]

section Histories

def Filed (run : ClusterRun) (s : Cluster) : Prop :=
  ∀ i < run.nodeCount, repairing i s → ∀ u ∈ s.lastControlPlaneUpdates i, ∀ log ∈ u.repairLog,
    s.commitHistoryByNode i = log.entries

theorem pushFiled (one : PushedOne shown i s s')
    (was : repairing i s → ∀ u ∈ s.lastControlPlaneUpdates i, ∀ log ∈ u.repairLog,
      s.commitHistoryByNode i = log.entries) :
    repairing i s' → ∀ u ∈ s'.lastControlPlaneUpdates i, ∀ log ∈ u.repairLog,
      s'.commitHistoryByNode i = log.entries := by
  intro target u latest log held
  by_cases new : pushed shown i s
  · cases Option.some.inj (one.last.symm.trans latest)
    have found : shown.repairLogs.lookup i = some log := held
    rw [one.history new,found]
    rfl
  · have same : s.lastControlPlaneUpdates i = s'.lastControlPlaneUpdates i :=
      (not_not.mp new).trans one.last.symm
    rw [(one.quiet new).2]
    refine was ?_ u (same ▸ latest) log held
    unfold repairing shownAs at target ⊢
    rw [same]
    exact target

theorem turnIdle {shown state : ControlPlaneState} (midround : Midround run r k shown s state)
    (bound : k < run.nodeCount) (done : run.nodeTurn r s k = .ok s')
    (inactive : ¬ inState shown k .active) : s'.commitHistoryByNode k = s.commitHistoryByNode k := by
  obtain ⟨_,_,turned,turn,_⟩ := turnMirrored midround bound done
  rw [turned.history]
  generalize run.advanced r k (s.nodes k) = out at turn
  obtain ⟨n',result⟩ := out
  dsimp only at turn ⊢
  cases turn with
  | down off up => simp [timedEntries]
  | idle spared inactive tuned => simp [timedEntries]
  | took spared active tuned crossed => exact absurd active inactive

theorem ranFiled (ran : Ran run.system moves pt) : Filed run pt.cluster := by
  induction ran with
  | start h =>
    cases h
    intro i _ _ u latest
    simp [Cluster.init] at latest
  | @move moves at' op next upTo h ih =>
    have mirrored := ranMirrored upTo
    cases stepCases h with
    | @control r s s' done =>
      obtain ⟨cp,state,boundary⟩ := mirrored
      obtain ⟨_,_,shown,_,_,one⟩ := controlPushed boundary done
      intro i bound
      exact pushFiled (one i bound) (ih i bound)
    | @turn r k s s' done =>
      obtain ⟨bound,shown,state,midround⟩ := mirrored
      have turned := turnFacts done
      intro i inside target u latest log held
      have last : s'.lastControlPlaneUpdates = s.lastControlPlaneUpdates := turned.last
      have was : repairing i s := by
        unfold repairing shownAs at target ⊢
        rw [← last]
        exact target
      have filed := ih i inside was u (last ▸ latest) log held
      by_cases own : i = k
      · subst i
        have latest' := (midround.todo k le_rfl bound).latest
        refine (turnIdle midround bound done ?_).trans filed
        intro active
        rcases (repairingState latest').mp was with other | other <;>
          cases Option.some.inj (active.symm.trans other)
      · exact (turned.others i own).history.trans filed
    | network => exact ih

end Histories

section Round

-- Round `r` goes on, or has just ended, since the push that left `s`.
structure Following (run : ClusterRun) (r : Nat) (s : Cluster) (pt : Point) : Prop where
  round : pt.round = if pt.phase = .control then r + 1 else r
  shown : pt.cluster.lastControlPlaneUpdates = s.lastControlPlaneUpdates
  added : ∀ j < run.nodeCount, ∀ entry ∈ pt.cluster.commitHistoryByNode j,
    entry ∈ s.commitHistoryByNode j ∨ entry.round = r - 2
  idle : ∀ j < run.nodeCount, ¬ shownAs .active j s →
    pt.cluster.commitHistoryByNode j = s.commitHistoryByNode j

theorem followingStep (mirrored : Mirrored run m.before) (staged : Staged run m.before)
    (step : run.system.step m.before m.op m.after) (inside : m.op ≠ .control)
    (h : Following run r s m.before) : Following run r s m.after := by
  obtain ⟨before,op,after⟩ := m
  cases stepCases step with
  | control done => exact absurd rfl inside
  | @turn at' k a b done =>
    obtain ⟨bound,shown,state,midround⟩ := mirrored
    obtain ⟨rowOf,collected⟩ := staged
    obtain ⟨round,last,added,idle⟩ := h
    have same : at' = r := round
    subst same
    have turned := turnFacts done
    refine ⟨by rw [if_neg turnFromOpen],turned.last.trans last,?_,?_⟩
    · intro j below entry member
      by_cases own : j = k
      · subst j
        rcases turnSeals midround bound done collected entry member with old | new
        · exact added k below entry old
        · exact Or.inr new.round
      · have kept := (turned.others j own).history
        exact added j below entry (kept ▸ member)
    · intro j below inactive
      by_cases own : j = k
      · subst j
        refine (turnIdle midround bound done ?_).trans (idle k below inactive)
        intro active
        refine inactive ((shownState ?_ (by simp)).mpr active)
        rw [← last]
        exact (midround.todo k le_rfl bound).latest
      · exact (turned.others j own).history.trans (idle j below inactive)
  | network =>
    obtain ⟨round,last,added,idle⟩ := h
    exact ⟨congrArg (fun n => n + 1) round,last,added,idle⟩

theorem followed (faithful : Faithful run) (ran : Ran run.system (pre ++ m :: mid) pt)
    (opens : m.op = .control)
    (near : pt.round ≤ m.before.round ∨ pt.round = m.before.round + 1 ∧ pt.phase = .control) :
    Following run m.before.round m.after.cluster pt := by
  induction mid using List.reverseRecOn generalizing pt with
  | nil =>
    obtain ⟨_,step,same⟩ := ranSnoc ran
    subst same
    obtain ⟨before,op,after⟩ := m
    cases opens
    cases stepCases step with
    | control done => exact ⟨by rw [if_neg turnFromOpen],rfl,fun _ _ _ member => Or.inl member,fun _ _ _ => rfl⟩
  | append_singleton rest last ih =>
    rw [← List.cons_append,← List.append_assoc] at ran
    obtain ⟨upTo,step,same⟩ := ranSnoc ran
    subst same
    have mirrored := ranMirrored upTo
    have staged := ranStaged faithful upTo
    have earlier : last.before.round ≤ m.before.round := by
      obtain ⟨before,op,after⟩ := last
      cases stepCases step with
      | control done =>
        rcases near with within | ⟨_,open'⟩
        · exact within
        · exact absurd open' turnFromOpen
      | turn done =>
        rcases near with within | ⟨_,open'⟩
        · exact within
        · exact absurd open' turnFromOpen
      | @network at' a =>
        change at' ≤ m.before.round
        change at' + 1 ≤ m.before.round ∨ at' + 1 = m.before.round + 1 ∧ _ at near
        omega
    have following := ih upTo (Or.inl earlier)
    refine followingStep mirrored staged step ?_ following
    intro control
    have closed : last.before.phase = .control := step.2.1.trans control
    have now := following.round
    rw [if_pos closed] at now
    omega

end Round

section Rejoin

/- What a repaired node `i` and the surviving members hold when a round begins with `x`,
the round before having begun with `m`. -/
structure Restored (run : ClusterRun) (i : Nat) (m x : Move Point Phase) : Prop where
  copied : ∃ k, Longest run m.before.cluster k ∧
    x.after.cluster.commitHistoryByNode i = m.before.cluster.commitHistoryByNode k
  late : ∀ j < run.nodeCount, shownAs .active j x.before.cluster → shownAs .active j x.after.cluster →
    ∀ entry ∈ x.after.cluster.commitHistoryByNode j,
      entry ∈ m.before.cluster.commitHistoryByNode j ∨ entry.round = x.before.round - 3
  complete : ∀ j < run.nodeCount, shownAs .active j x.before.cluster → shownAs .active j x.after.cluster →
    (∀ k, Longest run m.before.cluster k → ∀ round, holdsRound (m.before.cluster.commitHistoryByNode j) round →
      holdsRound (m.before.cluster.commitHistoryByNode k) round) →
    ∀ round, holdsRound (x.after.cluster.commitHistoryByNode j) round →
      round = x.before.round - 3 ∨ holdsRound (x.after.cluster.commitHistoryByNode i) round

theorem controlFiles (ran : Ran run.system (pre ++ m :: post) pt) (control : m.op = .control) :
    ∃ shown : ControlPlaneState, ∀ i < run.nodeCount,
      m.after.cluster.lastControlPlaneUpdates i = some (buildControlPlaneUpdate i shown) ∧
      (shownAs .active i m.after.cluster →
        m.after.cluster.commitHistoryByNode i = m.before.cluster.commitHistoryByNode i) ∧
      (repairing i m.after.cluster → ∃ k, Longest run m.before.cluster k ∧
        m.after.cluster.commitHistoryByNode i = m.before.cluster.commitHistoryByNode k) := by
  obtain ⟨upTo,step,onward⟩ := ranAt ran
  have mirrored := ranMirrored upTo
  have stocked := ranStocked upTo
  have filed := ranFiled onward
  obtain ⟨before,op,after⟩ := m
  cases control
  cases stepCases step with
  | @control r s s' done =>
    obtain ⟨cp,state,boundary⟩ := mirrored
    obtain ⟨mid,midState,shown,controlled,_,one⟩ := controlPushed boundary done
    have stocked' := boundaryStocked boundary stocked
    refine ⟨shown,?_⟩
    intro i bound
    have push := one i bound
    have unlogged (none : shown.repairLogs.lookup i = none) :
        s'.commitHistoryByNode i = s.commitHistoryByNode i := by
      by_cases new : pushed shown i s
      · rw [push.history new,none]
        rfl
      · exact (push.quiet new).2
    refine ⟨push.last,?_,?_⟩
    · intro active
      exact unlogged (controlUnlogged controlled stocked' ((shownState push.last (by simp)).mp active))
    · intro target
      obtain ⟨k,longest,chosen⟩ := @selectLongest run s (by omega)
      refine ⟨k,longest,?_⟩
      by_cases stored : (selectRepairPrefix (run.repairLogSnapshots s)).entries = []
      · have none : shown.repairLogs.lookup i = none := by
          cases found : shown.repairLogs.lookup i with
          | none => rfl
          | some log =>
            obtain ⟨same,some⟩ := controlLogs controlled stocked' found
            rw [same] at some
            exact absurd stored some
        have empty : s.commitHistoryByNode k = [] := by rw [chosen] at stored; exact stored
        have most := longest.most i bound
        rw [empty,List.length_nil] at most
        rw [empty]
        exact (unlogged none).trans (List.eq_nil_of_length_eq_zero (by omega))
      · have logged := controlLogged controlled ((repairingState push.last).mp target) stored
        rw [chosen] at logged
        exact filed i bound target _ push.last ⟨s.commitHistoryByNode k⟩ logged

theorem rejoinsRestored (faithful : Faithful run)
    (ran : Ran run.system (pre ++ m :: (mid ++ x :: post)) pt) (opens : m.op = .control)
    (closes : x.op = .control) (next : x.before.round = m.before.round + 1) (bound : i < run.nodeCount)
    (target : repairing i x.before.cluster) (joined : shownAs .active i x.after.cluster) :
    Restored run i m x := by
  obtain ⟨first,opened⟩ := controlFiles ran opens
  rw [← List.cons_append,← List.append_assoc] at ran
  obtain ⟨last,closed⟩ := controlFiles ran closes
  obtain ⟨upTo,step,_⟩ := ranAt ran
  have following := followed faithful upTo opens (Or.inr ⟨next,step.2.1.trans closes⟩)
  have earlier (as : MembershipState) (j : Nat) :
      shownAs as j x.before.cluster ↔ shownAs as j m.after.cluster := by
    unfold shownAs
    rw [following.shown]
  have under : repairing i m.after.cluster :=
    target.imp (earlier _ i).mp (earlier _ i).mp
  obtain ⟨latest,_,copied⟩ := opened i bound
  obtain ⟨k,longest,same⟩ := copied under
  have inactive : ¬ shownAs .active i m.after.cluster := by
    intro active
    rcases (repairingState latest).mp under with other | other <;>
      cases Option.some.inj (((shownState latest (by simp)).mp active).symm.trans other)
  have history : x.after.cluster.commitHistoryByNode i = m.before.cluster.commitHistoryByNode k :=
    ((closed i bound).2.1 joined).trans ((following.idle i bound inactive).trans same)
  have late : ∀ j < run.nodeCount, shownAs .active j x.before.cluster → shownAs .active j x.after.cluster →
      ∀ entry ∈ x.after.cluster.commitHistoryByNode j,
        entry ∈ m.before.cluster.commitHistoryByNode j ∨ entry.round = x.before.round - 3 := by
    intro j inside was still entry member
    rw [(closed j inside).2.1 still] at member
    rcases following.added j inside entry member with old | new
    · left
      rw [← (opened j inside).2.1 ((earlier _ j).mp was)]
      exact old
    · right
      omega
  refine ⟨⟨k,longest,history⟩,late,?_⟩
  rintro j inside was still covered round ⟨entry,member,rfl⟩
  rcases late j inside was still entry member with old | new
  · right
    rw [history]
    exact covered k longest _ ⟨entry,old,rfl⟩
  · exact Or.inl new

/- Every repaired node holds each round that a member stored before the cutover while it
was ACTIVE all along. -/
def RejoinsComplete (run : ClusterRun) (moves : List (Move Point Phase)) : Prop :=
  ∀ pre x post, moves = pre ++ x :: post → x.op = .control → installedAt x.before ≠ installedAt x.after →
    ∀ i < run.nodeCount, repairing i x.before.cluster → shownAs .active i x.after.cluster →
    ∀ j < run.nodeCount, (∀ y ∈ pre ++ [x], shownAs .active j y.after.cluster) →
    ∀ entry ∈ x.before.cluster.commitHistoryByNode j,
      holdsRound (x.after.cluster.commitHistoryByNode i) entry.round

-- Node 2 crashes in round 1 and comes back; nobody else fails and no packet is lost.
def onlineRejoin : ClusterRun :=
  { nodeCount := 3
    rounds := 40
    payloadFactory := fun _ _ => ""
    networkFaultModel := fun packet _ => {deliverRound := some packet.roundId}
    nodeFaultModel := fun i r => decide (i ≠ 2 ∨ r ≠ 1)
    hash := ⟨fun _ => "",fun _ _ => ""⟩ }

def joinsIncomplete (x : Move Point Phase) : Prop :=
  x.op = .control ∧ installedAt x.before ≠ installedAt x.after ∧ repairing 2 x.before.cluster ∧
  shownAs .active 2 x.after.cluster ∧ ∃ entry ∈ x.before.cluster.commitHistoryByNode 0,
    ¬ holdsRound (x.after.cluster.commitHistoryByNode 2) entry.round
instance (x) : Decidable (joinsIncomplete x) := by unfold joinsIncomplete; infer_instance

theorem rejoinMissesRound :
    ¬ ∀ run moves pt, 0 < run.timing.roundLengthNs → Faithful run → Ran run.system moves pt →
      RejoinsComplete run moves := by
  intro claim
  have faithful : Faithful onlineRejoin := fun _ _ => ⟨rfl,by simp [onlineRejoin]⟩
  have value : (onlineRejoin.walk 36).toOption.map (fun result => decide
      ((∀ y ∈ result.1, shownAs .active 0 y.after.cluster) ∧ ∃ x ∈ result.1, joinsIncomplete x)) =
      some true := by decide +kernel
  obtain ⟨moves,pt,ran,found⟩ := walkFound value
  simp only [decide_eq_true_eq] at found
  obtain ⟨stays,x,member,control,cutover,target,joined,entry,held,missing⟩ := found
  obtain ⟨pre,post,rfl⟩ := List.append_of_mem member
  refine missing (claim onlineRejoin _ pt (by decide) faithful ran pre x post rfl control
    cutover 2 (by decide) target joined 0 (by decide) ?_ entry held)
  intro y inside
  refine stays y ?_
  rcases List.mem_append.mp inside with earlier | last
  · exact List.mem_append_left _ earlier
  · rw [List.mem_singleton.mp last]
    exact List.mem_append_right _ (List.mem_cons_self ..)

-- The control moves of rounds 34 and 35, between which the last snapshot ages.
theorem rejoinsRestoredOnce :
    ∃ m x, m.before.round = 34 ∧ x.before.round = 35 ∧ repairing 2 x.before.cluster ∧
      shownAs .active 2 x.after.cluster ∧ Restored onlineRejoin 2 m x := by
  have faithful : Faithful onlineRejoin := fun _ _ => ⟨rfl,by simp [onlineRejoin]⟩
  have value : (onlineRejoin.walk 36).toOption.map (fun result => decide
      ((result.1.drop 170).head?.map (fun m => (m.before.round,m.op)) = some (34,Phase.control) ∧
      (result.1.drop 175).head?.map (fun x => (x.before.round,x.op)) = some (35,Phase.control) ∧
      ∀ x ∈ (result.1.drop 175).head?, repairing 2 x.before.cluster ∧ shownAs .active 2 x.after.cluster)) =
      some true := by decide +kernel
  obtain ⟨moves,pt,ran,found⟩ := walkFound value
  simp only [decide_eq_true_eq] at found
  obtain ⟨first,last,joins⟩ := found
  have split := (List.take_append_drop 170 moves).symm
  have split' := (List.take_append_drop 5 (moves.drop 170)).symm
  rw [List.drop_drop] at split'
  cases left : moves.drop 170 with
  | nil => simp [left] at first
  | cons m rest =>
    cases right : moves.drop 175 with
    | nil => simp [right] at last
    | cons x post =>
      simp only [left,List.head?_cons,Option.map_some,Option.some.injEq,Prod.mk.injEq] at first
      simp only [right,List.head?_cons,Option.map_some,Option.some.injEq,Prod.mk.injEq] at last
      obtain ⟨target,joined⟩ := joins x (by rw [right]; rfl)
      rw [right,left,List.take_succ_cons,List.cons_append] at split'
      rw [left,split'] at split
      rw [split] at ran
      exact ⟨m,x,first.1,last.1,target,joined,rejoinsRestored faithful ran first.2 last.2
        (last.1.trans (congrArg (· + 1) first.1).symm) (by decide) target joined⟩

end Rejoin

end ClusterRun
end Syncons
