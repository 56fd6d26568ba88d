import Syncons.CoreHalts

/-! The staged configuration from the control write that arms it to the cycle that loads it.
While it is armed its registers are locked, so what is loaded is what was armed; it is
loaded once, unless it is armed again in the very cycle that loads it. -/
namespace Syncons.ConsensusCore
open Runs (System Move Ran)

variable {p : Parameters} {s s' : Core} {x : Inputs} {q : Protocol} {moves : List (Move Core Inputs)}

namespace Core
variable (p : Parameters) (s : Core) (x : Inputs)

-- A control write with the activate bit that is not a reboot.
def arms : Bool :=
  !x.rst && (s.controlWrite p x).any (fun data => data.getLsbD 1 && !data.getLsbD 2)

def loads : Bool :=
  s.timing.roundStartPulse && s.activationFires p && !s.controlRebootPulse p x && !x.rst

end Core

structure SameConfig (c c' : Csr) : Prop where
  runId : c'.configRunId = c.configRunId
  membership : c'.configMembership = c.configMembership
  effectiveRound : c'.configEffectiveRound = c.configEffectiveRound

theorem SameConfig.trans {c c' c'' : Csr} (first : SameConfig c c') (second : SameConfig c' c'') :
    SameConfig c c'' :=
  ⟨second.runId.trans first.runId,second.membership.trans first.membership,
    second.effectiveRound.trans first.effectiveRound⟩

theorem armedLocks (armed : s.csr.activatePending = true) (alive : x.rst = false) :
    SameConfig s.csr (s.csrNext p x) := by
  cases write : s.regWrite p x with
  | none => constructor <;> simp [Core.csrNext,alive,write]
  | some w =>
    obtain ⟨register,data⟩ := w
    cases register <;> constructor <;> simp [Core.csrNext,alive,write,armed]

theorem controlNext {data : BitVec 32} (write : s.controlWrite p x = some data)
    (alive : x.rst = false) : SameConfig s.csr (s.csrNext p x) ∧
      (s.csrNext p x).activatePending =
        if data.getLsbD 2 then false else if data.getLsbD 1 then true
        else s.csr.activatePending && !s.protocolActivateConsumed := by
  simp only [Core.controlWrite] at write
  split at write
  · rename_i same
    cases write
    refine ⟨?_,by simp [Core.csrNext,alive,same]⟩
    constructor <;> simp [Core.csrNext,alive,same]
  · cases write

theorem uncontrolledNext (write : s.controlWrite p x = none) (alive : x.rst = false) :
    (s.csrNext p x).activatePending =
      (s.csr.activatePending && !s.protocolActivateConsumed) := by
  cases any : s.regWrite p x with
  | none => simp [Core.csrNext,alive,any]
  | some w =>
    obtain ⟨register,data⟩ := w
    cases register with
    | control => simp [Core.controlWrite,any] at write
    | _ => cases armed : s.csr.activatePending <;> simp [Core.csrNext,alive,any,armed]

/- A request pending after a cycle was armed in it, or was pending and not consumed; the
configuration did not move. -/
theorem pendingNext (pending : (s.csrNext p x).activatePending = true) :
    SameConfig s.csr (s.csrNext p x) ∧
      (s.arms p x = true ∨ s.csr.activatePending = true ∧ s.protocolActivateConsumed = false) := by
  cases alive : x.rst with
  | true => simp [Core.csrNext,alive] at pending
  | false =>
    cases write : s.controlWrite p x with
    | none =>
      rw [uncontrolledNext write alive,Bool.and_eq_true,Bool.not_eq_true'] at pending
      exact ⟨armedLocks pending.1 alive,Or.inr pending⟩
    | some data =>
      obtain ⟨same,next⟩ := controlNext write alive
      refine ⟨same,?_⟩
      rw [next] at pending
      simp only [Core.arms,alive,write,Option.any_some,Bool.not_false,Bool.true_and]
      generalize data.getLsbD 1 = activate at *
      generalize data.getLsbD 2 = reboot at *
      cases reboot <;> cases activate <;> simp_all

def armsMove (p : Parameters) (m : Move Core Inputs) : Bool := m.before.arms p m.op
def loadsMove (p : Parameters) (m : Move Core Inputs) : Bool := m.before.loads p m.op

/- A pending request was armed by a control write after which it was not consumed, and the
configuration registers are those of that write. -/
theorem pendingArmed (ran : Ran (clocked p) moves s) (pending : s.csr.activatePending = true) :
    ∃ front c mid, moves = front ++ c :: mid ∧ armsMove p c = true ∧
      (∀ m ∈ mid, m.before.protocolActivateConsumed = false) ∧ SameConfig c.before.csr s.csr := by
  induction ran with
  | start start =>
    rw [start] at pending
    cases pending
  | @move moves s x s' before step ih =>
    have after : s' = s.next p x := step
    rw [after] at pending ⊢
    obtain ⟨locked,arms | ⟨held,kept⟩⟩ := pendingNext pending
    · exact ⟨moves,⟨s,x,s.next p x⟩,[],rfl,arms,by simp,locked⟩
    · obtain ⟨front,c,mid,split,arms,unconsumed,same⟩ := ih held
      refine ⟨front,c,mid ++ [⟨s,x,s.next p x⟩],by simp [split],arms,?_,same.trans locked⟩
      intro m member
      rcases List.mem_append.mp member with earlier | last
      · exact unconsumed m earlier
      · cases List.mem_singleton.mp last
        exact kept

theorem loadedKeeps (kept : s.controlRebootPulse p x = false) (alive : x.rst = false) :
    (Core.reset x (s.reboot p x (s.stop p x (s.haltOnTiming x q)))).currentRunId = q.currentRunId ∧
      (Core.reset x (s.reboot p x (s.stop p x (s.haltOnTiming x q)))).installedMembership =
        q.installedMembership := by
  have halted : (s.haltOnTiming x q).currentRunId = q.currentRunId ∧
      (s.haltOnTiming x q).installedMembership = q.installedMembership := by
    unfold Core.haltOnTiming
    split <;> exact ⟨rfl,rfl⟩
  have stopped : (s.stop p x (s.haltOnTiming x q)).currentRunId = q.currentRunId ∧
      (s.stop p x (s.haltOnTiming x q)).installedMembership = q.installedMembership := by
    unfold Core.stop
    split <;> exact halted
  simp only [Core.reset,Core.reboot,kept,alive,Bool.false_eq_true,if_false]
  exact stopped

theorem loaded (loads : s.loads p x = true) :
    (s.protocolNext p x).currentRunId = s.csr.configRunId ∧
      (s.protocolNext p x).installedMembership =
        s.csr.configMembership.setWidth 8 &&& p.memberMask := by
  simp only [Core.loads,Bool.and_eq_true,Bool.not_eq_true'] at loads
  obtain ⟨⟨⟨pulse,fires⟩,kept⟩,alive⟩ := loads
  have installs (q : Protocol) : s.roundBoundary p q = s.install p q := by
    simp [Core.roundBoundary,pulse,fires]
  simp only [Core.protocolNext,installs]
  exact loadedKeeps kept alive

theorem loadsDue (loads : s.loads p x = true) : s.csr.activatePending = true ∧
    s.csr.configEffectiveRound ≤ s.timing.roundId ∧ s.protocolActivateConsumed = true := by
  simp only [Core.loads,Bool.and_eq_true,Core.activationFires] at loads
  obtain ⟨⟨⟨pulse,due,_⟩,_⟩,_⟩ := loads
  have now := due
  simp only [Core.activationDue,Bool.and_eq_true,decide_eq_true_eq] at now
  exact ⟨now.1.2,now.2,by simp [Core.protocolActivateConsumed,pulse,due]⟩

/- What the cycle `b` loads and compares its round with are the registers of the cycle of
the write `c` that armed it. -/
structure LoadsAsArmed (p : Parameters) (c b : Move Core Inputs) : Prop where
  runId : b.after.protocol.currentRunId = c.before.csr.configRunId
  membership : b.after.protocol.installedMembership =
    c.before.csr.configMembership.setWidth 8 &&& p.memberMask
  compared : b.before.csr.configEffectiveRound = c.before.csr.configEffectiveRound
  due : c.before.csr.configEffectiveRound ≤ b.before.timing.roundId

/- Every load is of a configuration armed by a write since when nothing was consumed, and
between two loads there is an arming write of its own for the second. -/
structure StagedOnce (p : Parameters) (moves : List (Move Core Inputs)) : Prop where
  armed : ∀ pre b post, moves = pre ++ b :: post → loadsMove p b = true →
    ∃ front c mid, pre = front ++ c :: mid ∧ armsMove p c = true ∧
      (∀ m ∈ mid, m.before.protocolActivateConsumed = false) ∧ LoadsAsArmed p c b
  once : ∀ pre a mid b post, moves = pre ++ a :: mid ++ b :: post →
    loadsMove p a = true → loadsMove p b = true → ∃ c ∈ mid, armsMove p c = true

theorem ranArmed (ran : Ran (clocked p) moves s) {pre post : List (Move Core Inputs)}
    {b : Move Core Inputs} (split : moves = pre ++ b :: post) (loads : loadsMove p b = true) :
    ∃ front c mid, pre = front ++ c :: mid ∧ armsMove p c = true ∧
      (∀ m ∈ mid, m.before.protocolActivateConsumed = false) ∧ LoadsAsArmed p c b := by
  rw [split] at ran
  obtain ⟨before,step,_⟩ := Runs.ranAt ran
  have after : b.after = b.before.next p b.op := step
  obtain ⟨pending,late,_⟩ := loadsDue loads
  obtain ⟨runId,membership⟩ := loaded loads
  obtain ⟨front,c,mid,arming,arms,unconsumed,same⟩ := pendingArmed before pending
  refine ⟨front,c,mid,arming,arms,unconsumed,?_,?_,same.effectiveRound,?_⟩
  · rw [after,← same.runId]
    exact runId
  · rw [after,← same.membership]
    exact membership
  · rw [← same.effectiveRound]
    exact late

theorem stagedOnce (ran : Ran (clocked p) moves s)
    (apart : ∀ m ∈ moves, loadsMove p m = true → armsMove p m = false) : StagedOnce p moves := by
  refine ⟨fun pre b post split loads => ranArmed ran split loads,?_⟩
  intro pre a mid b post split first second
  obtain ⟨front,c,rest,arming,arms,unconsumed,_⟩ := ranArmed ran split second
  have consumes := (loadsDue first).2.2
  rcases List.append_eq_append_iff.mp arming with ⟨later,_,tail⟩ | ⟨later,_,tail⟩
  · cases later with
    | nil =>
      obtain ⟨rfl,_⟩ := List.cons.inj tail
      have alone := apart a (by simp [split]) first
      cases alone.symm.trans arms
    | cons e later =>
      obtain ⟨_,rfl⟩ := List.cons.inj tail
      exact ⟨c,by simp,arms⟩
  · cases later with
    | nil =>
      obtain ⟨rfl,_⟩ := List.cons.inj tail
      have alone := apart c (by simp [split]) first
      cases alone.symm.trans arms
    | cons e later =>
      obtain ⟨_,rfl⟩ := List.cons.inj tail
      cases consumes.symm.trans (unconsumed a (by simp))

def activatesAt (k : Nat) (inputs : List Inputs) : List Inputs :=
  inputs.modify k (fun x => {x with regWr := some ⟨0x00300C,3⟩})

theorem stagedOnceApart : ∃ moves s, clock alone (activatesAt 9 (aloneInputs 1 0 12)) = .ok (moves,s) ∧
    moves.countP (loadsMove alone) = 2 ∧ StagedOnce alone moves := by
  obtain ⟨moves,s,done,ran,good⟩ := @clockFound alone (activatesAt 9 (aloneInputs 1 0 12))
    (fun moves => moves.countP (loadsMove alone) = 2 &&
      moves.all (fun m => !loadsMove alone m || !armsMove alone m)) (by decide +kernel)
  simp only [Bool.and_eq_true,decide_eq_true_eq,List.all_eq_true] at good
  refine ⟨moves,s,done,good.1,stagedOnce ran ?_⟩
  intro m member loads
  simpa [loads] using good.2 m member

-- Armed again in the cycle that loads it, the same configuration is loaded at the next boundary.
theorem stagedTwice : ∃ moves s, clock alone (activatesAt 8 (aloneInputs 1 0 12)) = .ok (moves,s) ∧
    Ran (clocked alone) moves s ∧ ¬ StagedOnce alone moves := by
  obtain ⟨moves,s,done,ran,good⟩ := @clockFound alone (activatesAt 8 (aloneInputs 1 0 12))
    (fun moves => (Runs.cut 8 moves).any (fun first => loadsMove alone first.2.1 &&
      (Runs.cut 1 first.2.2).any (fun second => loadsMove alone second.2.1 &&
        second.1.all (fun c => !armsMove alone c)))) (by decide +kernel)
  refine ⟨moves,s,done,ran,?_⟩
  intro staged
  obtain ⟨⟨pre,a,rest⟩,first,good⟩ := (Option.any_eq_true _ _).mp good
  simp only [Bool.and_eq_true] at good
  obtain ⟨⟨mid,b,post⟩,second,later⟩ := (Option.any_eq_true _ _).mp good.2
  simp only [Bool.and_eq_true,List.all_eq_true] at later
  have split : moves = pre ++ a :: mid ++ b :: post := by
    rw [Runs.cutIs first,Runs.cutIs second]
    simp
  obtain ⟨c,member,arms⟩ := staged.once pre a mid b post split good.1 later.1
  simpa [arms] using later.2 c member

end Syncons.ConsensusCore
