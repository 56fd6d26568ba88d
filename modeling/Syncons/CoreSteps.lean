import Syncons.CoreTiming

/-! The transitions of the core under fault-free time: what one cycle does to the
protocol registers, and the invariants of the round generator and of the two-stage
pipeline over a run. -/
namespace Syncons.ConsensusCore
open Runs (System Move Ran)

variable {p : Parameters} {b b' : Bench} {s : Core} {x : Inputs} {q : Protocol} {t : Nat}

namespace Core
variable (p : Parameters) (s : Core) (x : Inputs)

def arrival : Protocol := s.packetArrival p x {s.protocol with commitValid := false}

def passed (q : Protocol) : Protocol :=
  let q := s.shift q
  s.advertise p (if s.protocol.evalCommits p then s.commit p q else q)

end Core

inductive Tick (p : Parameters) (s : Core) (x : Inputs) : Protocol → Prop where
  | stopped {q : Protocol} (down : s.protocolStop p x = true ∨ x.rst = true)
      (idle : q.state = .idle) (silent : q.commitValid = false)
      (current : q.currentStageValid = false) (previous : q.previousStageValid = false) : Tick p s x q
  | listened (up : s.protocolStop p x = false) (alive : x.rst = false)
      (quiet : s.timing.roundStartPulse = false) : Tick p s x (s.arrival p x)
  | installed (up : s.protocolStop p x = false) (alive : x.rst = false)
      (pulse : s.timing.roundStartPulse = true) (fires : s.activationFires p = true) :
      Tick p s x (s.install p (s.arrival p x))
  | excluded (up : s.protocolStop p x = false) (alive : x.rst = false)
      (pulse : s.timing.roundStartPulse = true) (due : s.activationDue = true)
      (without : s.activationIncludesSelf p = false) :
      Tick p s x {s.arrival p x with configExcludesSelf := true, state := .idle}
  | waited (up : s.protocolStop p x = false) (alive : x.rst = false)
      (pulse : s.timing.roundStartPulse = true) (idle : s.protocol.state = .idle)
      (pending : s.csr.activatePending = true) :
      Tick p s x {s.arrival p x with state := .waitActivate}
  | stayed (up : s.protocolStop p x = false) (alive : x.rst = false)
      (pulse : s.timing.roundStartPulse = true) (undue : s.activationDue = false)
      (still : s.protocol.state ≠ .run) : Tick p s x (s.arrival p x)
  | halted (up : s.protocolStop p x = false) (alive : x.rst = false)
      (pulse : s.timing.roundStartPulse = true) (undue : s.activationDue = false)
      (running : s.protocol.state = .run) (halts : s.protocol.evalHalts p = true) :
      Tick p s x (s.haltAtBoundary p (s.shift (s.arrival p x)))
  | shifted (up : s.protocolStop p x = false) (alive : x.rst = false)
      (pulse : s.timing.roundStartPulse = true) (undue : s.activationDue = false)
      (running : s.protocol.state = .run) (passes : s.protocol.evalHalts p = false) :
      Tick p s x (s.passed p (s.arrival p x))

theorem stoppedNext (down : s.protocolStop p x = true ∨ x.rst = true) :
    (s.protocolNext p x).state = .idle ∧ (s.protocolNext p x).commitValid = false ∧
      (s.protocolNext p x).currentStageValid = false ∧
      (s.protocolNext p x).previousStageValid = false := by
  simp only [Core.protocolNext]
  generalize s.haltOnTiming x _ = q
  cases alive : x.rst with
  | true => simp [Core.reset,alive]
  | false =>
    have up : s.protocolStop p x = true := by simpa [alive] using down
    cases pulse : s.controlRebootPulse p x <;> simp [Core.reset,Core.reboot,Core.stop,alive,up,pulse]

theorem tick (kept : s.protocol.state = .run → s.timingLost x = false) :
    Tick p s x (s.protocolNext p x) := by
  have timing (q : Protocol) : s.haltOnTiming x q = q := by
    simp only [Core.haltOnTiming,Bool.and_eq_true,decide_eq_true_eq,ite_eq_right_iff,and_imp]
    intro lost running
    cases lost.symm.trans (kept running)
  cases alive : x.rst with
  | true =>
    obtain ⟨idle,silent,current,previous⟩ := @stoppedNext p s x (Or.inr alive)
    exact .stopped (Or.inr alive) idle silent current previous
  | false =>
    cases up : s.protocolStop p x with
    | true =>
      obtain ⟨idle,silent,current,previous⟩ := @stoppedNext p s x (Or.inl up)
      exact .stopped (Or.inl up) idle silent current previous
    | false =>
      have noReboot : s.controlRebootPulse p x = false := by
        simp only [Core.protocolStop,Bool.or_eq_false_iff] at up
        exact up.1.1
      have next : s.protocolNext p x = s.roundBoundary p (s.arrival p x) := by
        simp [Core.protocolNext,Core.reset,Core.reboot,Core.stop,alive,up,noReboot,timing,Core.arrival]
      rw [next]
      cases pulse : s.timing.roundStartPulse with
      | false =>
        have same : s.roundBoundary p (s.arrival p x) = s.arrival p x := by
          simp [Core.roundBoundary,pulse]
        rw [same]
        exact .listened up alive pulse
      | true =>
        cases due : s.activationDue with
        | true =>
          cases inside : s.activationIncludesSelf p with
          | true =>
            have fires : s.activationFires p = true := by simp [Core.activationFires,due,inside]
            have same : s.roundBoundary p (s.arrival p x) = s.install p (s.arrival p x) := by
              simp [Core.roundBoundary,pulse,fires]
            rw [same]
            exact .installed up alive pulse fires
          | false =>
            have same : s.roundBoundary p (s.arrival p x) =
                {s.arrival p x with configExcludesSelf := true, state := .idle} := by
              simp [Core.roundBoundary,pulse,Core.activationFires,due,inside]
            rw [same]
            exact .excluded up alive pulse due inside
        | false =>
          have undue : s.roundBoundary p (s.arrival p x) = s.stateBoundary p (s.arrival p x) := by
            simp [Core.roundBoundary,pulse,Core.activationFires,due]
          rw [undue,Core.stateBoundary]
          cases state : s.protocol.state with
          | idle =>
            cases pending : s.csr.activatePending with
            | true => exact .waited up alive pulse state pending
            | false => exact .stayed up alive pulse due (by simp [state])
          | waitActivate => exact .stayed up alive pulse due (by simp [state])
          | halt => exact .stayed up alive pulse due (by simp [state])
          | run =>
            cases halts : s.protocol.evalHalts p with
            | true =>
              have same : s.runBoundary p (s.arrival p x) =
                  s.haltAtBoundary p (s.shift (s.arrival p x)) := by simp [Core.runBoundary,halts]
              simp only [same]
              exact .halted up alive pulse due state halts
            | false =>
              have same : s.runBoundary p (s.arrival p x) = s.passed p (s.arrival p x) := by
                simp [Core.runBoundary,halts,Core.passed]
              simp only [same]
              exact .shifted up alive pulse due state halts

theorem arrivalKeeps : s.arrival p x =
    { s.protocol with
      commitValid := false
      currentStageProposals := (s.arrival p x).currentStageProposals
      previousStageRows := (s.arrival p x).previousStageRows } := by
  cases accepted : s.rxAccepted p x <;> simp [Core.arrival,Core.packetArrival,accepted]

@[simp] theorem arrivalState : (s.arrival p x).state = s.protocol.state := by rw [arrivalKeeps]

@[simp] theorem arrivalRunId : (s.arrival p x).currentRunId = s.protocol.currentRunId := by
  rw [arrivalKeeps]

@[simp] theorem arrivalSilent : (s.arrival p x).commitValid = false := by rw [arrivalKeeps]

theorem lostHalts (lost : s.timingLost x = true) (running : s.protocol.state = .run) :
    (s.protocolNext p x).state ≠ .run := by
  simp only [Core.protocolNext]
  generalize s.roundBoundary p _ = q
  have halted : (s.haltOnTiming x q).state = .halt := by simp [Core.haltOnTiming,lost,running]
  have stopped : (s.stop p x (s.haltOnTiming x q)).state ≠ .run := by
    unfold Core.stop
    split
    · exact nofun
    · rw [halted]
      exact nofun
  have rebooted : (s.reboot p x (s.stop p x (s.haltOnTiming x q))).state ≠ .run := by
    unfold Core.reboot
    split
    · exact stopped
    · exact stopped
  unfold Core.reset
  split
  · exact nofun
  · exact rebooted

theorem runningTick (running : (s.protocolNext p x).state = .run) :
    Tick p s x (s.protocolNext p x) := by
  refine tick ?_
  intro before
  cases lost : s.timingLost x with
  | false => rfl
  | true => exact absurd running (lostHalts lost before)

-- A core that waits or runs after a cycle was up in it, and waited, ran or was started by a pulse.
theorem engagedBefore (step : Tick p s x q) (engaged : q.state.engaged) :
    s.protocolStop p x = false ∧ x.rst = false ∧
      (s.protocol.state.engaged ∨ s.timing.roundStartPulse = true) := by
  cases step with
  | stopped down idle silent current previous => simp [FsmState.engaged,idle] at engaged
  | listened up alive quiet => exact ⟨up,alive,Or.inl (by simpa using engaged)⟩
  | installed up alive pulse fires => exact ⟨up,alive,Or.inr pulse⟩
  | excluded up alive pulse due without => exact ⟨up,alive,Or.inr pulse⟩
  | waited up alive pulse idle pending => exact ⟨up,alive,Or.inr pulse⟩
  | stayed up alive pulse undue still => exact ⟨up,alive,Or.inr pulse⟩
  | halted up alive pulse undue running halts => exact ⟨up,alive,Or.inr pulse⟩
  | shifted up alive pulse undue running passes => exact ⟨up,alive,Or.inr pulse⟩

theorem engagedRunning (free : FaultFree p b.now x) (up : b.core.protocolStop p x = false) :
    b.core.timingRunning x = true := by
  simp only [Core.protocolStop,Bool.or_eq_false_iff,Bool.not_eq_eq_eq_not,Bool.not_false] at up
  simp [Core.timingRunning,up.1.2,up.2,free.valid]

theorem latched : (s.timingNext p x).secondValid = !x.rst ∧
    (x.rst = false → (s.timingNext p x).previousSecond = x.ptpTodSec) ∧
    (s.timingNext p x).currentSecondBase = Core.secondBase p x ∧
    (s.timingNext p x).nextSecondBase =
      Core.secondBase p x + BitVec.ofNat 64 p.roundsPerSecond := by
  cases alive : x.rst with
  | true => simp [Core.timingNext,Core.timingReset,Core.timingLatch,alive]
  | false =>
    simp only [Core.timingNext,alive,Bool.false_eq_true,if_false]
    repeat' split
    all_goals
      simp [Core.timingDown,Core.timingFaulted,Core.timingArm,Core.timingRollover,
        Core.timingBoundary,Core.timingLatch]

theorem downTiming (down : x.rst = true ∨ s.timingRunning x = false) :
    (s.timingNext p x).timingArmed = false ∧ (s.timingNext p x).roundStartPulse = false := by
  cases alive : x.rst with
  | true => simp [Core.timingNext,Core.timingReset,Core.timingLatch,alive]
  | false =>
    have off : s.timingRunning x = false := by simpa [alive] using down
    simp [Core.timingNext,Core.timingDown,Core.timingLatch,alive,off]

/- A rollover right after a pulse without arming in between needs rounds that last a
whole second. -/
theorem wholeSecondRounds {t t' : Nat} (early : t % nsPerSecond < p.roundLengthNs)
    (near : t' < t + p.roundLengthNs) (next : t' / nsPerSecond = t / nsPerSecond + 1) :
    p.roundsPerSecond = 1 := by
  have rate := p.lengthTimesRate
  have long : nsPerSecond < p.roundLengthNs * 2 := by
    simp only [nsPerSecond] at *
    omega
  have few : p.roundsPerSecond < 2 := by
    by_contra many
    have := Nat.mul_le_mul_left p.roundLengthNs (Nat.le_of_not_lt many)
    omega
  have some : p.roundsPerSecond ≠ 0 := by
    intro zero
    rw [zero,Nat.mul_zero] at rate
    exact absurd rate (by decide)
  omega

theorem timedStep (timed : Timed p b) (step : (system p).step b x b') : Timed p b' := by
  obtain ⟨free,rfl⟩ := step
  obtain ⟨valid,second,current,after⟩ := @latched p b.core x
  obtain ⟨sec,ns⟩ := instantSecond free.within
  have protocol := @tick p b.core x (by simp [Core.timingLost,faultless timed free,free.valid])
  have stepped (alive : x.rst = false) (running : b.core.timingRunning x = true) :
      ∃ t, b.now = some t ∧
        RoundStep p b.core.timing (b.core.timingNext p x) t x.instant := by
    obtain ⟨t,now,_⟩ := runningSeen timed running
    exact ⟨t,now,roundStep timed (now ▸ free) now alive running⟩
  constructor
  case dark =>
    intro unseen
    have down : x.rst = true := by simpa [Core.next,valid] using unseen
    obtain ⟨armed,pulse⟩ := @downTiming p b.core x (Or.inl down)
    exact ⟨by simp [Core.next,Core.csrNext,down],armed,pulse,(stoppedNext (Or.inr down)).1⟩
  case second =>
    intro seen
    have alive : x.rst = false := by simpa [Core.next,valid] using seen
    exact ⟨_,rfl,by rw [sec]; exact congrArg BitVec.toNat (second alive)⟩
  case bases =>
    intro t now
    cases now
    have base : Core.secondBase p x =
        BitVec.ofNat 64 (x.ptpTodSec.toNat * p.roundsPerSecond) := by
      rw [Core.secondBase,BitVec.ofNat_mul]
      congr 1
      exact BitVec.eq_of_toNat_eq (by simp)
    rw [sec]
    refine ⟨current.trans base,after.trans ?_⟩
    rw [base,Nat.add_mul,Nat.one_mul,BitVec.ofNat_add]
  case aligned =>
    intro armed t now
    cases now
    by_cases down : x.rst = true ∨ b.core.timingRunning x = false
    · have off := (@downTiming p b.core x down).1
      exact absurd (off.symm.trans armed) (by decide)
    · simp only [not_or,Bool.not_eq_true,Bool.not_eq_false] at down
      obtain ⟨_,_,round⟩ := stepped down.1 down.2
      exact round.aligned armed
  case pulsed =>
    intro pulse t now
    cases now
    by_cases down : x.rst = true ∨ b.core.timingRunning x = false
    · have off := (@downTiming p b.core x down).2
      exact absurd (off.symm.trans pulse) (by decide)
    · simp only [not_or,Bool.not_eq_true,Bool.not_eq_false] at down
      obtain ⟨_,_,round⟩ := stepped down.1 down.2
      have grown := (round.pulsed pulse).2.1
      exact ⟨(round.pulsed pulse).1,(round.pulsed pulse).2.2,by omega⟩
  case live =>
    intro engaged
    obtain ⟨up,alive,before⟩ := engagedBefore protocol engaged
    obtain ⟨t,now,round⟩ := stepped alive (engagedRunning free up)
    have near := (free.advances t now).2
    have slow (unarmed : b.core.timing.timingArmed = false)
        (next : x.instant / nsPerSecond = t / nsPerSecond + 1) : p.roundsPerSecond = 1 := by
      rcases before with held | pulse
      · simpa [unarmed] using (timed.live held).1
      · have early := (timed.pulsed pulse t now).2.1
        exact wholeSecondRounds (by simpa [unarmed] using early) near next
    cases armed : (b.core.timingNext p x).timingArmed with
    | true =>
      refine ⟨Or.inl armed,?_⟩
      intro t' now'
      cases now'
      exact (round.aligned armed).round
    | false =>
      have unarmed : b.core.timing.timingArmed = false := by
        by_contra held
        rw [round.armed (by simpa using held)] at armed
        cases armed
      obtain ⟨held,_⟩ | ⟨pulse,next⟩ := round.arms unarmed
      · exact absurd (armed.symm.trans held) (by decide)
      · refine ⟨Or.inr (slow unarmed next),?_⟩
        intro t' now'
        cases now'
        exact (round.pulsed pulse).1

theorem timedStart (start : (system p).start b) : Timed p b := by
  cases start
  constructor <;> simp [powerUp,FsmState.engaged]

theorem ranTimed {moves : List (Move Bench Inputs)} (ran : Ran (system p) moves b) : Timed p b :=
  Runs.ranInvariant (fun _ start => timedStart start) (fun _ _ _ timed step => timedStep timed step)
    ran

-- The number of the last round whose boundary the core has processed.
def entered (p : Parameters) (b : Bench) : Nat :=
  match b.now with
  | none => 0
  | some t => if b.core.timing.roundStartPulse then p.roundAt t - 1 else p.roundAt t

def Core.lastEntered (s : Core) : BitVec 64 :=
  if s.timing.roundStartPulse then s.timing.roundId - 1 else s.timing.roundId

theorem lastEnteredPulse (pulse : s.timing.roundStartPulse = true) :
    s.lastEntered + 1 = s.timing.roundId := by
  rw [Core.lastEntered,if_pos pulse]
  exact BitVec.sub_add_cancel _ _

theorem lastEnteredQuiet (quiet : s.timing.roundStartPulse = false) :
    s.lastEntered = s.timing.roundId := by simp [Core.lastEntered,quiet]

/- Where a cycle leaves the round counter of a core that runs after it: the round that
was current in the cycle is the one it has processed. -/
structure Counted (p : Parameters) (b : Bench) (x : Inputs) (t : Nat) : Prop where
  now : b.now = some t
  round : b.core.timing.roundId = BitVec.ofNat 64 (p.roundAt t)
  entered : entered p ⟨b.core.next p x,some x.instant⟩ = p.roundAt t
  last : (b.core.next p x).lastEntered = b.core.timing.roundId

theorem runningBefore (step : Tick p s x q) (running : q.state = .run) :
    s.protocolStop p x = false ∧ x.rst = false ∧ s.protocol.state.engaged := by
  obtain ⟨up,alive,_⟩ := engagedBefore step (Or.inr running)
  refine ⟨up,alive,?_⟩
  cases step with
  | stopped down idle silent current previous => simp [idle] at running
  | listened up alive quiet => exact Or.inr (by simpa using running)
  | installed up alive pulse fires =>
    simp only [Core.activationFires,Core.activationDue,Bool.and_eq_true,Bool.or_eq_true,
      decide_eq_true_eq] at fires
    exact fires.1.1.1
  | excluded up alive pulse due without => cases running
  | waited up alive pulse idle pending => cases running
  | stayed up alive pulse undue still => exact absurd (by simpa using running) still
  | halted up alive pulse undue running' halts => cases running
  | shifted up alive pulse undue running' passes => exact Or.inr running'

theorem tickOf (timed : Timed p b) (free : FaultFree p b.now x) :
    Tick p b.core x (b.core.protocolNext p x) :=
  tick (by simp [Core.timingLost,faultless timed free,free.valid])

theorem counted (timed : Timed p b) (free : FaultFree p b.now x)
    (running : (b.core.protocolNext p x).state = .run) : ∃ t, Counted p b x t := by
  obtain ⟨up,alive,engaged⟩ := runningBefore (tickOf timed free) running
  have runs := engagedRunning free up
  obtain ⟨t,now,_⟩ := runningSeen timed runs
  have round := roundStep timed (now ▸ free) now alive runs
  have here := (timed.live engaged).2 t now
  have after := (timedStep timed ⟨free,rfl⟩).live (Or.inr running)
  have there : (b.core.timingNext p x).roundId = BitVec.ofNat 64 (p.roundAt x.instant) :=
    after.2 _ rfl
  cases pulse : (b.core.timingNext p x).roundStartPulse with
  | true =>
    have grown := (round.pulsed pulse).2.1
    have back : BitVec.ofNat 64 (p.roundAt t + 1) - 1 = BitVec.ofNat 64 (p.roundAt t) := by
      rw [BitVec.ofNat_add]
      exact BitVec.add_sub_cancel _ _
    refine ⟨t,now,here,?_,?_⟩
    · simp [entered,Core.next,pulse,grown]
    · rw [Core.lastEntered,Core.next,if_pos pulse,there,here,grown,back]
  | false =>
    have same : p.roundAt x.instant = p.roundAt t := by
      cases armed : b.core.timing.timingArmed with
      | true => exact round.quiet armed pulse
      | false =>
        have whole : p.roundsPerSecond = 1 := by simpa [armed] using (timed.live engaged).1
        have rate := p.lengthTimesRate
        rw [whole,Nat.mul_one] at rate
        obtain ⟨_,sec⟩ | ⟨fires,_⟩ := round.arms armed
        · simpa [Parameters.roundAt,rate] using sec
        · exact absurd (pulse.symm.trans fires) (by decide)
    refine ⟨t,now,here,?_,?_⟩
    · simp [entered,Core.next,pulse,same]
    · simp [Core.lastEntered,Core.next,pulse,there,here,same]

theorem enteredMono (timed : Timed p b) (free : FaultFree p b.now x) (now : b.now = some t) :
    p.roundAt t ≤ entered p ⟨b.core.next p x,some x.instant⟩ := by
  have le := p.roundAtMono (free.advances t now).1
  cases pulse : (b.core.timingNext p x).roundStartPulse with
  | false => simpa [entered,Core.next,pulse] using le
  | true =>
    have up : ¬ (x.rst = true ∨ b.core.timingRunning x = false) := by
      intro down
      exact absurd ((downTiming down).2.symm.trans pulse) (by decide)
    simp only [not_or,Bool.not_eq_true,Bool.not_eq_false] at up
    have grown := ((roundStep timed (now ▸ free) now up.1 up.2).pulsed pulse).2.1
    simp [entered,Core.next,pulse,grown]

theorem enteredLe (now : b.now = some t) : entered p b ≤ p.roundAt t := by
  simp only [entered,now]
  split <;> omega

/- A passed boundary, but for what a commit adds to it: the shift, the own row filed and
advertised, and a fresh current stage. -/
structure Passed (p : Parameters) (s : Core) (q q' : Protocol) : Prop where
  state : q'.state = q.state
  runId : q'.currentRunId = q.currentRunId
  opened : q'.currentStageValid = true
  current : q'.currentStageRoundId = s.timing.roundId
  proposals : q'.currentStageProposals = p.selfBit
  valid : q'.previousStageValid = s.protocol.currentStageValid
  previous : q'.previousStageRoundId = s.protocol.currentStageRoundId
  held : q'.previousStageProposals = s.protocol.currentStageProposals
  rows : q'.previousStageRows =
    Function.update (fun _ => 0) p.nodeId s.protocol.currentStageProposals
  spoken : q'.txRoundId = s.timing.roundId
  own : q'.txRunId = s.protocol.currentRunId
  row : q'.txRow = s.protocol.currentStageProposals
  sound : q'.currentSoundSet =
    if s.protocol.evalCommits p then s.protocol.evalSoundSet p else q.currentSoundSet
  commitValid : q'.commitValid = (s.protocol.evalCommits p || q.commitValid)
  committed : s.protocol.evalCommits p = true →
    q'.commitRoundId = s.protocol.previousStageRoundId ∧ q'.commitSet = s.protocol.evalLocalRow p

theorem passedFacts : Passed p s q (s.passed p q) := by
  cases commits : s.protocol.evalCommits p <;>
    constructor <;>
      simp [Core.passed,Core.shift,Core.advertise,Core.commit,Core.openCurrentStage,commits]

def Core.AdvertisesRun (s : Core) : Prop :=
  s.protocol.state = .run → s.protocol.txRunId = s.protocol.currentRunId

theorem advertisesRunNext (speaks : s.AdvertisesRun) : (s.next p x).AdvertisesRun := by
  intro running
  have same : (s.arrival p x).txRunId = s.protocol.txRunId := by rw [arrivalKeeps]
  have step := runningTick running
  simp only [Core.next] at running ⊢
  generalize s.protocolNext p x = q at step running ⊢
  cases step with
  | stopped down idle silent current previous => cases idle.symm.trans running
  | listened up alive quiet =>
    rw [same,arrivalRunId]
    exact speaks (by simpa using running)
  | installed up alive pulse fires => rfl
  | excluded up alive pulse due without => cases running
  | waited up alive pulse idle pending => cases running
  | stayed up alive pulse undue still => exact absurd (by simpa using running) still
  | halted up alive pulse undue running' halts => cases running
  | shifted up alive pulse undue running' passes =>
    rw [passedFacts.own,passedFacts.runId,arrivalRunId]

/- The two-stage pipeline of a running core. The stage opened last is that of the round
entered last, which is also the round it speaks for; the one before collects rows. -/
structure Piped (p : Parameters) (s : Core) : Prop where
  opened : s.protocol.currentStageValid = true
  current : s.protocol.currentStageRoundId = s.lastEntered
  spoken : s.protocol.txRoundId = s.lastEntered
  own : s.protocol.txRunId = s.protocol.currentRunId
  previous : s.protocol.previousStageValid = true →
    s.protocol.previousStageRoundId + 1 = s.lastEntered
  filed : s.protocol.previousStageValid = true →
    s.protocol.previousStageRows p.nodeId = s.protocol.txRow

theorem rxIndex {r : RxRow} (accepted : s.rxAccept p r = true) :
    (r.nodeId.extractLsb' 0 3).toNat = r.nodeId.toNat ∧ r.nodeId.toNat < p.nodeCount ∧
      r.nodeId.toNat ≠ p.nodeId := by
  simp only [Core.rxAccept,Bool.and_eq_true,decide_eq_true_eq] at accepted
  obtain ⟨⟨⟨⟨⟨_,inside⟩,other⟩,_⟩,_⟩,_⟩ := accepted
  have narrow := p.narrow
  refine ⟨?_,inside,other⟩
  rw [BitVec.extractLsb'_toNat]
  simp only [Nat.shiftRight_zero]
  omega

theorem arrivalOwnRow :
    (s.arrival p x).previousStageRows p.nodeId = s.protocol.previousStageRows p.nodeId := by
  simp only [Core.arrival,Core.packetArrival]
  cases accepted : s.rxAccepted p x with
  | none => rfl
  | some r =>
    have held : s.rxAccept p r = true := (Option.filter_eq_some_iff.mp accepted).2
    obtain ⟨index,_,other⟩ := rxIndex held
    simp only [index]
    exact Function.update_of_ne (Ne.symm other) _ _

theorem pipedStep (timed : Timed p b) (free : FaultFree p b.now x)
    (piped : b.core.protocol.state = .run → Piped p b.core)
    (running : (b.core.next p x).protocol.state = .run) : Piped p (b.core.next p x) := by
  obtain ⟨t,count⟩ := counted timed free running
  have step := tickOf timed free
  have last := count.last
  generalize same : b.core.protocolNext p x = q at step
  have protocol : (b.core.next p x).protocol = q := same
  rw [protocol] at running
  cases step with
  | stopped down idle silent current previous => simp [idle] at running
  | listened up alive quiet =>
    have before := piped (by simpa using running)
    have settled : b.core.lastEntered = b.core.timing.roundId := lastEnteredQuiet quiet
    have keeps := @arrivalKeeps p b.core x
    constructor
    · rw [protocol,keeps]
      exact before.opened
    · rw [protocol,keeps,last,← settled]
      exact before.current
    · rw [protocol,keeps,last,← settled]
      exact before.spoken
    · rw [protocol,keeps]
      exact before.own
    · rw [protocol,keeps,last,← settled]
      exact before.previous
    · rw [protocol,arrivalOwnRow]
      rw [keeps]
      exact before.filed
  | installed up alive pulse fires =>
    constructor
    · rw [protocol]
      rfl
    · rw [protocol,last]
      rfl
    · rw [protocol,last]
      rfl
    · rw [protocol]
      rfl
    · rw [protocol]
      exact nofun
    · rw [protocol]
      exact nofun
  | excluded up alive pulse due without => cases running
  | waited up alive pulse idle pending => cases running
  | stayed up alive pulse undue still => exact absurd (by simpa using running) still
  | halted up alive pulse undue running' halts => cases running
  | shifted up alive pulse undue running' passes =>
    have before := piped running'
    have settled : b.core.lastEntered + 1 = b.core.timing.roundId := lastEnteredPulse pulse
    have facts := @passedFacts p b.core (b.core.arrival p x)
    constructor
    · rw [protocol,facts.opened]
    · rw [protocol,facts.current,last]
    · rw [protocol,facts.spoken,last]
    · rw [protocol,facts.own,facts.runId,arrivalKeeps]
    · rw [protocol,facts.previous,last,before.current,settled]
      exact fun _ => rfl
    · rw [protocol,facts.rows,facts.row]
      exact fun _ => Function.update_self _ _ _

end Syncons.ConsensusCore
