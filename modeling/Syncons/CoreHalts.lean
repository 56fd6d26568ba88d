import Syncons.CommitStream

/-! When the core falls silent. Runs here are on arbitrary inputs: any time, any writes,
any frames. A loss of time stops a core unless it falls on the very cycle that
installs a configuration, and a halted core stays halted for as long as it is enabled. -/
namespace Syncons.ConsensusCore
open Runs (System Move Ran)

def clocked (p : Parameters) : System Core Inputs where
  start s := s = powerUp p
  step s x s' := s' = s.next p x

def clock (p : Parameters) (inputs : List Inputs) : Except Empty (List (Move Core Inputs) × Core) :=
  Runs.record (fun s x => .ok (s.next p x)) inputs (powerUp p)

theorem clockRan {p : Parameters} {inputs : List Inputs} {moves : List (Move Core Inputs)} {s : Core}
    (done : clock p inputs = .ok (moves,s)) : Ran (clocked p) moves s :=
  Runs.recordTotal (fun _ _ => rfl) rfl done

variable {p : Parameters} {s s' : Core} {x : Inputs} {q : Protocol} {moves : List (Move Core Inputs)}

namespace Core
variable (p : Parameters) (s : Core) (x : Inputs)

def enabled : Bool := x.enable && s.csr.controlEnable

-- A step, a jump of the second counter, time behind the round base, or a lost lock.
def losesTime : Bool :=
  x.ptpStep || (s.secondChanged x && x.ptpTodSec != s.timing.previousSecond + 1) ||
    (s.timing.timingArmed && x.ptpTodNs < s.timing.roundBaseNs && !s.secondChanged x) ||
    !x.ptpTimeValid

def installsWaiting : Bool :=
  s.protocol.state = .waitActivate && s.timing.roundStartPulse && s.activationFires p &&
    !s.controlRebootPulse p x && !x.rst

end Core

theorem lostIff (up : s.enabled x = true) : s.timingLost x = s.losesTime x := by
  simp only [Core.enabled,Bool.and_eq_true] at up
  cases valid : x.ptpTimeValid with
  | false => simp [Core.timingLost,Core.losesTime,valid]
  | true =>
    simp [Core.timingLost,Core.losesTime,Core.timeFault,Core.secondJumped,Core.timeMovedBackward,
      Core.timingRunning,up.1,up.2,valid]

theorem upIff (up : s.enabled x = true) : s.protocolStop p x = s.controlRebootPulse p x := by
  simp only [Core.enabled,Bool.and_eq_true] at up
  simp [Core.protocolStop,up.1,up.2]

/- A running core that loses time leaves the run state; another one can only enter it by an
installation, which nothing in the fault branch undoes. -/
theorem runsAfterLoss (up : s.enabled x = true) (lost : s.losesTime x = true) :
    (s.protocolNext p x).state = .run ↔ s.installsWaiting p x = true := by
  rw [← lostIff up] at lost
  have stop := @upIff p s x up
  constructor
  · intro runs
    have waiting : s.protocol.state ≠ .run := fun running => lostHalts lost running runs
    have step := runningTick runs
    generalize s.protocolNext p x = q at step runs
    cases step with
    | stopped down idle silent current previous => cases idle.symm.trans runs
    | listened on alive quiet => exact absurd (by simpa using runs) waiting
    | installed on alive pulse fires =>
      have state : s.protocol.state = .waitActivate := by
        have due := fires
        simp only [Core.activationFires,Core.activationDue,Bool.and_eq_true,Bool.or_eq_true,
          decide_eq_true_eq] at due
        exact due.1.1.1.resolve_right waiting
      simp [Core.installsWaiting,state,pulse,fires,alive,← stop,on]
    | excluded on alive pulse due without => cases runs
    | waited on alive pulse idle pending => cases runs
    | stayed on alive pulse undue still => exact absurd (by simpa using runs) still
    | halted on alive pulse undue running halts => cases runs
    | shifted on alive pulse undue running passes => exact absurd running waiting
  · intro installs
    simp only [Core.installsWaiting,Bool.and_eq_true,decide_eq_true_eq,Bool.not_eq_true'] at installs
    obtain ⟨⟨⟨⟨state,pulse⟩,fires⟩,kept⟩,alive⟩ := installs
    have step := @tick p s x (fun running => by cases state.symm.trans running)
    generalize s.protocolNext p x = q at step
    cases step with
    | stopped down idle silent current previous =>
      rw [stop,kept,alive] at down
      exact absurd down (by decide)
    | listened on alive quiet => cases quiet.symm.trans pulse
    | installed on alive pulse fires => rfl
    | excluded on alive pulse due without =>
      simp [Core.activationFires,without] at fires
    | waited on alive pulse idle pending => cases state.symm.trans idle
    | stayed on alive pulse undue still => simp [Core.activationFires,undue] at fires
    | halted on alive pulse undue running halts => cases state.symm.trans running
    | shifted on alive pulse undue running passes => cases state.symm.trans running

def StopsOnLoss (moves : List (Move Core Inputs)) : Prop :=
  ∀ m ∈ moves, m.before.enabled m.op = true → m.before.losesTime m.op = true →
    m.after.protocol.state ≠ .run

theorem lossStopsIff (ran : Ran (clocked p) moves s) : StopsOnLoss moves ↔
    ∀ m ∈ moves, m.before.enabled m.op = true → m.before.losesTime m.op = true →
      m.before.installsWaiting p m.op = false := by
  have once : ∀ m ∈ moves, m.before.enabled m.op = true → m.before.losesTime m.op = true →
      (m.after.protocol.state ≠ .run ↔ m.before.installsWaiting p m.op = false) := by
    intro m member up lost
    have step : m.after = m.before.next p m.op := Runs.ranStep ran member
    rw [step,Ne,Core.next,runsAfterLoss up lost,Bool.not_eq_true]
  constructor
  · intro stops m member up lost
    exact (once m member up lost).mp (stops m member up lost)
  · intro free m member up lost
    exact (once m member up lost).mpr (free m member up lost)

-- A halted core as it was: it asserts halt, starts no transmission and keeps its record.
structure Held (s s' : Core) : Prop where
  halt : s'.oHalt = true
  silent : s'.oTxStartPulse = false
  record : s'.protocol.haltRecord = s.protocol.haltRecord
  count : s'.protocol.haltCount = s.protocol.haltCount

theorem Held.refl (halt : s.oHalt = true) : Held s s := by
  have state : s.protocol.state = .halt := by simpa [Core.oHalt] using halt
  exact ⟨halt,by simp [Core.oTxStartPulse,Core.protocolActive,state],rfl,rfl⟩

theorem Held.trans {s'' : Core} (first : Held s s') (second : Held s' s'') : Held s s'' :=
  ⟨second.halt,second.silent,second.record.trans first.record,second.count.trans first.count⟩

theorem haltedNext (halt : s.oHalt = true) (up : s.enabled x = true)
    (kept : s.controlRebootPulse p x = false) (alive : x.rst = false) :
    s.protocolNext p x = s.arrival p x := by
  have state : s.protocol.state = .halt := by simpa [Core.oHalt] using halt
  have step := @tick p s x (fun running => by cases state.symm.trans running)
  generalize s.protocolNext p x = q at step
  cases step with
  | stopped down idle silent current previous =>
    rw [upIff up,kept,alive] at down
    exact absurd down (by decide)
  | listened on alive quiet => rfl
  | installed on alive pulse fires =>
    simp [Core.activationFires,Core.activationDue,state] at fires
  | excluded on alive pulse due without => simp [Core.activationDue,state] at due
  | waited on alive pulse idle pending => cases state.symm.trans idle
  | stayed on alive pulse undue still => rfl
  | halted on alive pulse undue running halts => cases state.symm.trans running
  | shifted on alive pulse undue running passes => cases state.symm.trans running

theorem heldNext (halt : s.oHalt = true) (up : s.enabled x = true)
    (kept : s.controlRebootPulse p x = false) (alive : x.rst = false) :
    Held s (s.next p x) ∧ (s.next p x).protocol.commitValid = false := by
  have next := haltedNext halt up kept alive
  have state : (s.next p x).protocol.state = .halt := by
    rw [Core.next,next,arrivalState]
    simpa [Core.oHalt] using halt
  have record : (s.next p x).protocol.haltRecord = s.protocol.haltRecord := by
    rw [Core.next,next,arrivalKeeps]
  have count : (s.next p x).protocol.haltCount = s.protocol.haltCount := by
    rw [Core.next,next,arrivalKeeps]
  refine ⟨⟨by simp [Core.oHalt,state],?_,record,count⟩,?_⟩
  · simp [Core.oTxStartPulse,Core.protocolActive,state]
  · rw [Core.next,next,arrivalSilent]

-- What the source lets end a halt: a reset, or a control write with the reboot bit.
def lifts (p : Parameters) (m : Move Core Inputs) : Bool :=
  m.op.rst || m.before.controlRebootPulse p m.op

/- In every stretch of cycles that starts halted and lifts nothing, the core is held from
the first cycle to the last and commits nothing. -/
def HaltSticky (p : Parameters) (moves : List (Move Core Inputs)) : Prop :=
  ∀ pre held post, moves = pre ++ held ++ post → (∀ m ∈ held, lifts p m = false) →
    ∀ a ∈ held.head?, a.before.oHalt = true → a.before.oTxStartPulse = false ∧
      ∀ b ∈ held.getLast?, Held a.before b.after ∧ b.after.protocol.commitValid = false

theorem liftsNot {m : Move Core Inputs} (h : lifts p m = false) :
    m.before.controlRebootPulse p m.op = false ∧ m.op.rst = false := by
  simp only [lifts,Bool.or_eq_false_iff] at h
  exact ⟨h.2,h.1⟩

theorem disabledLeaves (down : s.enabled x = false) : (s.next p x).oHalt = false := by
  have stops : s.protocolStop p x = true := by
    simp only [Core.enabled,Bool.and_eq_false_iff] at down
    rcases down with pin | software
    · simp [Core.protocolStop,pin]
    · simp [Core.protocolStop,software]
  have idle := (@stoppedNext p s x (Or.inl stops)).1
  simp [Core.oHalt,Core.next,idle]

theorem heldThrough {pre rest : List (Move Core Inputs)} {a : Move Core Inputs}
    (ran : Ran (clocked p) (pre ++ a :: rest) s) (halt : a.before.oHalt = true)
    (still : ∀ m ∈ a :: rest, lifts p m = false)
    (enabled : ∀ m ∈ a :: rest, m.before.oHalt = true → m.before.enabled m.op = true) :
    Held a.before s ∧ s.protocol.commitValid = false := by
  induction rest using List.reverseRecOn generalizing s with
  | nil =>
    obtain ⟨_,step,rfl⟩ := Runs.ranSnoc ran
    obtain ⟨kept,alive⟩ := liftsNot (still a (by simp))
    have after : a.after = a.before.next p a.op := step
    rw [after]
    exact heldNext halt (enabled a (by simp) halt) kept alive
  | append_singleton rest m ih =>
    rw [← List.cons_append,← List.append_assoc] at ran
    obtain ⟨before,step,rfl⟩ := Runs.ranSnoc ran
    have earlier : ∀ x ∈ a :: rest, x ∈ a :: (rest ++ [m]) := by
      intro x member
      simp only [← List.cons_append,List.mem_append]
      exact Or.inl member
    obtain ⟨held,_⟩ := ih before (fun x member => still x (earlier x member))
      (fun x member => enabled x (earlier x member))
    obtain ⟨kept,alive⟩ := liftsNot (still m (by simp))
    obtain ⟨same,silent⟩ := heldNext held.halt (enabled m (by simp) held.halt) kept alive
    have after : m.after = m.before.next p m.op := step
    rw [after]
    exact ⟨held.trans same,silent⟩

theorem haltStickyIff (ran : Ran (clocked p) moves s) : HaltSticky p moves ↔
    ∀ m ∈ moves, m.before.oHalt = true → lifts p m = false → m.before.enabled m.op = true := by
  constructor
  · intro sticky m member halt kept
    obtain ⟨pre,post,split⟩ := List.append_of_mem member
    have step : m.after = m.before.next p m.op := Runs.ranStep ran member
    have whole : moves = pre ++ [m] ++ post := by simpa using split
    obtain ⟨_,last⟩ := sticky pre [m] post whole (by simpa using kept) m rfl halt
    have held := (last m rfl).1.halt
    cases up : m.before.enabled m.op with
    | true => rfl
    | false =>
      rw [step,disabledLeaves up] at held
      cases held
  · intro enabled pre held post split still a first halt
    refine ⟨(Held.refl halt).silent,?_⟩
    intro b last
    obtain ⟨rest,rfl⟩ := List.head?_eq_some_iff.mp first
    obtain ⟨body,shape⟩ := List.getLast?_eq_some_iff.mp last
    have upTo : Ran (clocked p) (pre ++ a :: rest) b.after := by
      rw [split,shape,← List.append_assoc,List.append_assoc,List.singleton_append] at ran
      rw [shape,← List.append_assoc]
      exact (Runs.ranAt ran).2.2
    refine heldThrough upTo halt still ?_
    intro m member halted
    have inside : m ∈ moves := by
      rw [split]
      exact List.mem_append_left _ (List.mem_append_right _ member)
    exact enabled m inside halted (still m member)

-- The first configuration of a single core is installed in cycle 8; time steps in cycle `k`.
def stepsAt (k : Nat) (inputs : List Inputs) : List Inputs :=
  inputs.modify k (fun x => {x with ptpStep := true})

theorem clockFound {inputs : List Inputs} {good : List (Move Core Inputs) → Bool}
    (value : (clock p inputs).toOption.map (fun result => good result.1) = some true) :
    ∃ moves s, clock p inputs = .ok (moves,s) ∧ Ran (clocked p) moves s ∧ good moves = true := by
  obtain ⟨⟨moves,s⟩,done,found⟩ := Runs.okFound value
  exact ⟨moves,s,done,clockRan done,found⟩

theorem lossStopsOnce : ∃ moves s, clock alone (stepsAt 10 (aloneInputs 1 0 12)) = .ok (moves,s) ∧
    (moves.any (fun m => m.before.enabled m.op && m.before.losesTime m.op)) = true ∧
    StopsOnLoss moves := by
  obtain ⟨moves,s,done,ran,good⟩ := @clockFound alone (stepsAt 10 (aloneInputs 1 0 12))
    (fun moves => moves.any (fun m => m.before.enabled m.op && m.before.losesTime m.op) &&
      moves.all (fun m => !m.before.enabled m.op || !m.before.losesTime m.op ||
        !m.before.installsWaiting alone m.op)) (by decide +kernel)
  simp only [Bool.and_eq_true,List.all_eq_true] at good
  refine ⟨moves,s,done,good.1,(lossStopsIff ran).mpr ?_⟩
  intro m member up lost
  simpa [up,lost] using good.2 m member

-- Time steps in the cycle of the installation, and the core runs on.
theorem lossInstalls : ∃ moves s, clock alone (stepsAt 8 (aloneInputs 1 0 6)) = .ok (moves,s) ∧
    Ran (clocked alone) moves s ∧ ¬ StopsOnLoss moves := by
  obtain ⟨moves,s,done,ran,good⟩ := @clockFound alone (stepsAt 8 (aloneInputs 1 0 6))
    (fun moves => moves.any (fun m => m.before.enabled m.op && m.before.losesTime m.op &&
      m.after.protocol.state = .run)) (by decide +kernel)
  refine ⟨moves,s,done,ran,?_⟩
  intro stops
  obtain ⟨m,member,held⟩ := List.any_eq_true.mp good
  simp only [Bool.and_eq_true,decide_eq_true_eq] at held
  exact stops m member held.1.1 held.1.2 held.2

def disabledFrom (k : Nat) (inputs : List Inputs) : List Inputs :=
  inputs.mapIdx (fun i x => {x with enable := i < k})

theorem haltStickyOnce : ∃ moves s, clock alone (stepsAt 10 (aloneInputs 1 0 12)) = .ok (moves,s) ∧
    (moves.any (fun m => m.before.oHalt)) = true ∧ HaltSticky alone moves := by
  obtain ⟨moves,s,done,ran,good⟩ := @clockFound alone (stepsAt 10 (aloneInputs 1 0 12))
    (fun moves => moves.any (fun m => m.before.oHalt) &&
      moves.all (fun m => !m.before.oHalt || m.before.enabled m.op)) (by decide +kernel)
  simp only [Bool.and_eq_true,List.all_eq_true] at good
  refine ⟨moves,s,done,good.1,(haltStickyIff ran).mpr ?_⟩
  intro m member halt _
  simpa [halt] using good.2 m member

-- A core that lost its time and halted is idle again once the enable pin falls.
theorem haltLifted :
    ∃ moves s, clock alone (disabledFrom 12 (stepsAt 10 (aloneInputs 1 0 12))) = .ok (moves,s) ∧
      Ran (clocked alone) moves s ∧ ¬ HaltSticky alone moves := by
  obtain ⟨moves,s,done,ran,good⟩ :=
    @clockFound alone (disabledFrom 12 (stepsAt 10 (aloneInputs 1 0 12)))
      (fun moves => moves.any (fun m => m.before.oHalt && !lifts alone m && !m.after.oHalt))
      (by decide +kernel)
  refine ⟨moves,s,done,ran,?_⟩
  intro sticky
  obtain ⟨m,member,held⟩ := List.any_eq_true.mp good
  simp only [Bool.and_eq_true,Bool.not_eq_true'] at held
  obtain ⟨pre,post,split⟩ := List.append_of_mem member
  have whole : moves = pre ++ [m] ++ post := by simpa using split
  obtain ⟨_,last⟩ := sticky pre [m] post whole (by simpa using held.1.2) m rfl held.1.1
  cases (last m rfl).1.halt.symm.trans held.2

end Syncons.ConsensusCore
