import Syncons.ConsensusCore
import Mathlib.Data.Nat.Basic
import Mathlib.Algebra.Order.Ring.Nat

/-! Fault-free PTP time. A bench is a core with the instant of its last cycle; while
the core waits or runs, its round id is the number of the round of that instant, and
the start pulse marks exactly the cycles after which this number has grown by one. -/
namespace Syncons.ConsensusCore
open Runs (System Move Ran)

def nsPerSecond : Nat := 1000000000

def Inputs.instant (x : Inputs) : Nat := x.ptpTodSec.toNat * nsPerSecond + x.ptpTodNs.toNat

namespace Parameters
variable (p : Parameters)

def roundAt (t : Nat) : Nat := t / p.roundLengthNs

theorem lengthPos : 0 < p.roundLengthNs := by
  have fits := p.fits
  omega

theorem lengthTimesRate : p.roundLengthNs * p.roundsPerSecond = nsPerSecond :=
  Nat.mul_div_cancel' (Nat.dvd_of_mod_eq_zero p.divides)

theorem lengthLe : p.roundLengthNs ≤ nsPerSecond :=
  Nat.le_of_dvd (by decide) (Nat.dvd_of_mod_eq_zero p.divides)

theorem roundAtSplit (sec ns : Nat) :
    p.roundAt (sec * nsPerSecond + ns) = sec * p.roundsPerSecond + ns / p.roundLengthNs := by
  rw [roundAt,← p.lengthTimesRate,Nat.mul_left_comm,Nat.mul_add_div p.lengthPos]

theorem roundAtMono {t t' : Nat} (le : t ≤ t') : p.roundAt t ≤ p.roundAt t' :=
  Nat.div_le_div_right le

theorem roundAtNext {t t' : Nat} (near : t' < t + p.roundLengthNs) :
    p.roundAt t' ≤ p.roundAt t + 1 := by
  have step := p.roundAtMono near.le
  simp only [roundAt] at *
  rwa [Nat.add_div_right t p.lengthPos] at step

end Parameters

/- No step, no loss of lock, and a clock that never goes back and advances by less than
a round from one cycle to the next. -/
structure FaultFree (p : Parameters) (now : Option Nat) (x : Inputs) : Prop where
  valid : x.ptpTimeValid = true
  steady : x.ptpStep = false
  within : x.ptpTodNs.toNat < nsPerSecond
  advances : ∀ t ∈ now, t ≤ x.instant ∧ x.instant < t + p.roundLengthNs

structure Bench where
  core : Core
  now : Option Nat := none

def system (p : Parameters) : System Bench Inputs where
  start b := b = ⟨powerUp p,none⟩
  step b x b' := FaultFree p b.now x ∧ b' = ⟨b.core.next p x,some x.instant⟩

instance (p : Parameters) (now : Option Nat) (x : Inputs) : Decidable (FaultFree p now x) :=
  decidable_of_iff (x.ptpTimeValid = true ∧ x.ptpStep = false ∧ x.ptpTodNs.toNat < nsPerSecond ∧
      ∀ t ∈ now, t ≤ x.instant ∧ x.instant < t + p.roundLengthNs)
    ⟨fun h => ⟨h.1,h.2.1,h.2.2.1,h.2.2.2⟩,fun h => ⟨h.1,h.2,h.3,h.4⟩⟩

def cycle (p : Parameters) (b : Bench) (x : Inputs) : Except Unit Bench :=
  if FaultFree p b.now x then .ok ⟨b.core.next p x,some x.instant⟩ else .error ()

def play (p : Parameters) (inputs : List Inputs) : Except Unit (List (Move Bench Inputs) × Bench) :=
  Runs.record (cycle p) inputs ⟨powerUp p,none⟩

theorem playRan {p : Parameters} {inputs : List Inputs} {moves : List (Move Bench Inputs)} {b : Bench}
    (done : play p inputs = .ok (moves,b)) : Ran (system p) moves b := by
  have legal : ∀ op ∈ inputs, ∀ s s', cycle p s op = .ok s' → (system p).step s op s' := by
    intro op _ s s' took
    simp only [cycle] at took
    split at took
    · cases took
      exact ⟨by assumption,rfl⟩
    · cases took
  have ran : Ran (system p) ([] ++ moves) b := Runs.recordRan legal (Ran.start rfl) done
  simpa using ran

structure Aligned (p : Parameters) (timing : Timing) (t : Nat) : Prop where
  round : timing.roundId = BitVec.ofNat 64 (p.roundAt t)
  base : timing.roundBaseNs.toNat = t % nsPerSecond / p.roundLengthNs * p.roundLengthNs
  next : timing.nextBoundaryNs.toNat =
    t % nsPerSecond / p.roundLengthNs * p.roundLengthNs + p.roundLengthNs

def FsmState.engaged (state : FsmState) : Prop := state = .waitActivate ∨ state = .run

structure Timed (p : Parameters) (b : Bench) : Prop where
  dark : b.core.timing.secondValid = false →
    b.core.csr.controlEnable = false ∧ b.core.timing.timingArmed = false ∧
      b.core.timing.roundStartPulse = false ∧ b.core.protocol.state = .idle
  second : b.core.timing.secondValid = true →
    ∃ t, b.now = some t ∧ b.core.timing.previousSecond.toNat = t / nsPerSecond
  bases : ∀ t ∈ b.now,
    b.core.timing.currentSecondBase = BitVec.ofNat 64 (t / nsPerSecond * p.roundsPerSecond) ∧
    b.core.timing.nextSecondBase =
      BitVec.ofNat 64 ((t / nsPerSecond + 1) * p.roundsPerSecond)
  aligned : b.core.timing.timingArmed = true → ∀ t ∈ b.now, Aligned p b.core.timing t
  pulsed : b.core.timing.roundStartPulse = true → ∀ t ∈ b.now,
    b.core.timing.roundId = BitVec.ofNat 64 (p.roundAt t) ∧
      (b.core.timing.timingArmed = true ∨ t % nsPerSecond < p.roundLengthNs) ∧ 0 < p.roundAt t
  live : b.core.protocol.state.engaged →
    (b.core.timing.timingArmed = true ∨ p.roundsPerSecond = 1) ∧
      ∀ t ∈ b.now, b.core.timing.roundId = BitVec.ofNat 64 (p.roundAt t)

variable {p : Parameters} {b b' : Bench} {s : Core} {x : Inputs} {t : Nat}

theorem instantSecond (within : x.ptpTodNs.toNat < nsPerSecond) :
    x.instant / nsPerSecond = x.ptpTodSec.toNat ∧ x.instant % nsPerSecond = x.ptpTodNs.toNat := by
  simp only [Inputs.instant,nsPerSecond] at *
  omega

theorem secondMoves (free : FaultFree p (some t) x) :
    x.ptpTodSec.toNat = t / nsPerSecond ∨ x.ptpTodSec.toNat = t / nsPerSecond + 1 := by
  obtain ⟨le,lt⟩ := free.advances t rfl
  have short := p.lengthLe
  have within := free.within
  simp only [Inputs.instant,nsPerSecond] at *
  omega

theorem changedIff (timed : Timed p b) (now : b.now = some t)
    (valid : b.core.timing.secondValid = true) :
    b.core.secondChanged x = true ↔ x.ptpTodSec.toNat ≠ t / nsPerSecond := by
  obtain ⟨t',same,second⟩ := timed.second valid
  cases now.symm.trans same
  simp [Core.secondChanged,valid,← second,BitVec.toNat_eq]

theorem runningSeen (timed : Timed p b) (running : b.core.timingRunning x = true) :
    ∃ t, b.now = some t ∧ b.core.timing.secondValid = true := by
  cases valid : b.core.timing.secondValid with
  | true =>
    obtain ⟨t,now,_⟩ := timed.second valid
    exact ⟨t,now,rfl⟩
  | false => simp [Core.timingRunning,(timed.dark valid).1] at running

theorem faultless (timed : Timed p b) (free : FaultFree p b.now x) :
    b.core.timeFault x = false := by
  cases running : b.core.timingRunning x with
  | false => simp [Core.timeFault,running]
  | true =>
    obtain ⟨t,now,valid⟩ := runningSeen timed running
    rw [now] at free
    obtain ⟨t',same,second⟩ := timed.second valid
    cases now.symm.trans same
    have jumped : b.core.secondJumped x = false := by
      cases changed : b.core.secondChanged x with
      | false => simp [Core.secondJumped,changed]
      | true =>
        have moved := (changedIff timed now valid).mp changed
        have next := (secondMoves free).resolve_left moved
        have bound := x.ptpTodSec.isLt
        have : x.ptpTodSec = b.core.timing.previousSecond + 1 := by
          apply BitVec.eq_of_toNat_eq
          rw [BitVec.toNat_add,second,next]
          exact (Nat.mod_eq_of_lt (next ▸ bound)).symm
        simp [Core.secondJumped,this]
    have backward : b.core.timeMovedBackward x = false := by
      cases armed : b.core.timing.timingArmed with
      | false => simp [Core.timeMovedBackward,armed]
      | true =>
        cases changed : b.core.secondChanged x with
        | true => simp [Core.timeMovedBackward,changed]
        | false =>
          have stays : x.ptpTodSec.toNat = t / nsPerSecond := by
            by_contra moved
            rw [(changedIff timed now valid).mpr moved] at changed
            cases changed
          have base := (timed.aligned armed t now).base
          have floor := Nat.div_mul_le_self (t % nsPerSecond) p.roundLengthNs
          have le := (free.advances t rfl).1
          have : ¬ x.ptpTodNs < b.core.timing.roundBaseNs := by
            rw [BitVec.lt_def,base]
            simp only [Inputs.instant,nsPerSecond] at *
            omega
          simp [Core.timeMovedBackward,this]
    simp [Core.timeFault,free.steady,jumped,backward]

theorem rolloverEarly (free : FaultFree p (some t) x)
    (next : x.ptpTodSec.toNat = t / nsPerSecond + 1) :
    x.ptpTodNs.toNat < p.roundLengthNs ∧
      p.roundAt x.instant = (t / nsPerSecond + 1) * p.roundsPerSecond ∧
      p.roundAt x.instant = p.roundAt t + 1 := by
  obtain ⟨le,lt⟩ := free.advances t rfl
  have early : x.ptpTodNs.toNat < p.roundLengthNs := by
    simp only [Inputs.instant,nsPerSecond] at *
    omega
  have round : p.roundAt x.instant = (t / nsPerSecond + 1) * p.roundsPerSecond := by
    rw [Inputs.instant,p.roundAtSplit,Nat.div_eq_of_lt early,next,Nat.add_zero]
  have below : p.roundAt t < (t / nsPerSecond + 1) * p.roundsPerSecond := by
    apply Nat.div_lt_of_lt_mul
    rw [Nat.mul_left_comm,p.lengthTimesRate]
    simp only [nsPerSecond]
    omega
  have near := p.roundAtNext lt
  exact ⟨early,round,by omega⟩

theorem boundaryReached (free : FaultFree p (some t) x)
    (stays : x.ptpTodSec.toNat = t / nsPerSecond) :
    (x.ptpTodNs.toNat / p.roundLengthNs =
        t % nsPerSecond / p.roundLengthNs + 1 ∧ p.roundAt x.instant = p.roundAt t + 1 ∧
        t % nsPerSecond / p.roundLengthNs * p.roundLengthNs + p.roundLengthNs ≤ x.ptpTodNs.toNat) ∨
    (x.ptpTodNs.toNat / p.roundLengthNs = t % nsPerSecond / p.roundLengthNs ∧
        p.roundAt x.instant = p.roundAt t ∧
        x.ptpTodNs.toNat < t % nsPerSecond / p.roundLengthNs * p.roundLengthNs + p.roundLengthNs) := by
  obtain ⟨le,lt⟩ := free.advances t rfl
  have whole : t = t / nsPerSecond * nsPerSecond + t % nsPerSecond := by
    simp only [nsPerSecond]
    omega
  have before : p.roundAt t =
      t / nsPerSecond * p.roundsPerSecond + t % nsPerSecond / p.roundLengthNs := by
    conv_lhs => rw [whole]
    exact p.roundAtSplit _ _
  have after : p.roundAt x.instant =
      t / nsPerSecond * p.roundsPerSecond + x.ptpTodNs.toNat / p.roundLengthNs := by
    rw [Inputs.instant,p.roundAtSplit,stays]
  have floor := Nat.div_mul_le_self (t % nsPerSecond) p.roundLengthNs
  have ceil : t % nsPerSecond <
      t % nsPerSecond / p.roundLengthNs * p.roundLengthNs + p.roundLengthNs :=
    Nat.lt_div_mul_add p.lengthPos
  have order : t % nsPerSecond ≤ x.ptpTodNs.toNat ∧
      x.ptpTodNs.toNat < t % nsPerSecond + p.roundLengthNs := by
    simp only [Inputs.instant,nsPerSecond] at *
    omega
  rw [before,after]
  generalize t % nsPerSecond / p.roundLengthNs = k at *
  by_cases reached : k * p.roundLengthNs + p.roundLengthNs ≤ x.ptpTodNs.toNat
  · left
    have next : x.ptpTodNs.toNat / p.roundLengthNs = k + 1 := by
      apply Nat.div_eq_of_lt_le
      · rw [Nat.add_mul]
        omega
      · rw [Nat.add_mul,Nat.add_mul]
        omega
    exact ⟨next,by omega,reached⟩
  · right
    have same : x.ptpTodNs.toNat / p.roundLengthNs = k := by
      apply Nat.div_eq_of_lt_le
      · omega
      · rw [Nat.add_mul]
        omega
    exact ⟨same,by omega,by omega⟩

structure RoundStep (p : Parameters) (timing timing' : Timing) (t t' : Nat) : Prop where
  aligned : timing'.timingArmed = true → Aligned p timing' t'
  pulsed : timing'.roundStartPulse = true →
    timing'.roundId = BitVec.ofNat 64 (p.roundAt t') ∧ p.roundAt t' = p.roundAt t + 1 ∧
      (timing'.timingArmed = true ∨ t' % nsPerSecond < p.roundLengthNs)
  quiet : timing.timingArmed = true → timing'.roundStartPulse = false →
    p.roundAt t' = p.roundAt t
  armed : timing.timingArmed = true → timing'.timingArmed = true
  arms : timing.timingArmed = false →
    timing'.timingArmed = true ∧ t' / nsPerSecond = t / nsPerSecond ∨
    timing'.roundStartPulse = true ∧ t' / nsPerSecond = t / nsPerSecond + 1

theorem lengthFits (p : Parameters) : p.roundLengthNs % 2 ^ 32 = p.roundLengthNs := by
  have short := p.lengthLe
  simp only [nsPerSecond] at short
  omega

theorem alignedAtArm (timed : Timed p b) (free : FaultFree p (some t) x) (now : b.now = some t)
    (stays : x.ptpTodSec.toNat = t / nsPerSecond) (timing : Timing)
    (round : timing.roundId =
      b.core.timing.currentSecondBase + (Core.roundIndexInSecondAtArm p x).setWidth 64)
    (base : timing.roundBaseNs =
      Core.roundIndexInSecondAtArm p x * BitVec.ofNat 32 p.roundLengthNs)
    (next : timing.nextBoundaryNs =
      (Core.roundIndexInSecondAtArm p x + 1) * BitVec.ofNat 32 p.roundLengthNs) :
    Aligned p timing x.instant := by
  obtain ⟨sec,ns⟩ := instantSecond free.within
  have short := p.lengthLe
  have within := free.within
  have floor := Nat.div_mul_le_self x.ptpTodNs.toNat p.roundLengthNs
  have length := lengthFits p
  have index : (Core.roundIndexInSecondAtArm p x).toNat = x.ptpTodNs.toNat / p.roundLengthNs := by
    rw [Core.roundIndexInSecondAtArm,BitVec.toNat_udiv,BitVec.toNat_ofNat,length]
  have small : x.ptpTodNs.toNat / p.roundLengthNs < nsPerSecond :=
    lt_of_le_of_lt (Nat.div_le_self _ _) within
  simp only [nsPerSecond] at short within small
  constructor
  · rw [round,(timed.bases t now).1,Inputs.instant,p.roundAtSplit,stays,BitVec.ofNat_add]
    congr 1
    apply BitVec.eq_of_toNat_eq
    simp [index]
  · rw [base,ns,BitVec.toNat_mul,index,BitVec.toNat_ofNat,length]
    exact Nat.mod_eq_of_lt (by omega)
  · rw [next,ns,BitVec.toNat_mul,BitVec.toNat_add,index,BitVec.toNat_ofNat,length]
    have one : (x.ptpTodNs.toNat / p.roundLengthNs + (1 : BitVec 32).toNat) % 2 ^ 32 =
        x.ptpTodNs.toNat / p.roundLengthNs + 1 := Nat.mod_eq_of_lt (by simp; omega)
    rw [one,Nat.add_mul,Nat.one_mul]
    exact Nat.mod_eq_of_lt (by omega)

theorem boundaryHitIff (running : b.core.timingRunning x = true)
    (armed : b.core.timing.timingArmed = true) (before : Aligned p b.core.timing t) :
    b.core.roundBoundaryHit x = true ↔
      t % nsPerSecond / p.roundLengthNs * p.roundLengthNs + p.roundLengthNs ≤ x.ptpTodNs.toNat := by
  simp only [Core.roundBoundaryHit,running,armed,Bool.true_and,decide_eq_true_eq]
  rw [BitVec.le_def,before.next]

theorem alignedAtBoundary (free : FaultFree p (some t) x) (before : Aligned p b.core.timing t)
    (index : x.ptpTodNs.toNat / p.roundLengthNs = t % nsPerSecond / p.roundLengthNs + 1)
    (round : p.roundAt x.instant = p.roundAt t + 1) :
    Aligned p (b.core.timingBoundary p x) x.instant := by
  have ns := (instantSecond free.within).2
  have within := free.within
  have ceil := Nat.div_mul_le_self x.ptpTodNs.toNat p.roundLengthNs
  have short := p.lengthLe
  rw [index,Nat.add_mul,Nat.one_mul] at ceil
  constructor
  · rw [Core.timingBoundary,before.round,round,BitVec.ofNat_add]
    rfl
  · rw [ns,index,Nat.add_mul,Nat.one_mul]
    exact before.next
  · rw [ns,index,Nat.add_mul,Nat.one_mul,Core.timingBoundary,BitVec.toNat_add,before.next,
      BitVec.toNat_ofNat,lengthFits]
    apply Nat.mod_eq_of_lt
    simp only [nsPerSecond] at *
    omega

-- A second that begins puts the round generator at the base of the second.
theorem alignedAtRollover (timed : Timed p b) (free : FaultFree p (some t) x) (now : b.now = some t)
    (early : x.ptpTodNs.toNat < p.roundLengthNs)
    (round : p.roundAt x.instant = (t / nsPerSecond + 1) * p.roundsPerSecond) :
    Aligned p (b.core.timingRollover p x) x.instant := by
  have ns := (instantSecond free.within).2
  have zero : x.ptpTodNs.toNat / p.roundLengthNs = 0 := Nat.div_eq_of_lt early
  constructor
  · rw [round]
    exact (timed.bases t now).2
  · simp [ns,zero,Core.timingRollover]
  · rw [ns,zero,Core.timingRollover,BitVec.toNat_ofNat,lengthFits]
    simp

theorem boundaryStep (timed : Timed p b) (free : FaultFree p (some t) x) (now : b.now = some t)
    (running : b.core.timingRunning x = true) (stays : x.ptpTodSec.toNat = t / nsPerSecond)
    (armed : b.core.timing.timingArmed = true) (hit : b.core.roundBoundaryHit x = true) :
    RoundStep p b.core.timing (b.core.timingBoundary p x) t x.instant := by
  have before := timed.aligned armed t now
  have reached := (boundaryHitIff running armed before).mp hit
  obtain ⟨index,round,_⟩ | ⟨_,_,early⟩ := boundaryReached free stays
  · have aligned := alignedAtBoundary free before index round
    exact
      { aligned := fun _ => aligned
        pulsed := fun _ => ⟨aligned.round,round,Or.inl armed⟩
        quiet := nofun
        armed := fun _ => armed
        arms := fun off => by simp [armed] at off }
  · omega

theorem latchStep (timed : Timed p b) (free : FaultFree p (some t) x) (now : b.now = some t)
    (running : b.core.timingRunning x = true) (stays : x.ptpTodSec.toNat = t / nsPerSecond)
    (armed : b.core.timing.timingArmed = true) (missed : b.core.roundBoundaryHit x = false) :
    RoundStep p b.core.timing (b.core.timingLatch p x) t x.instant := by
  have before := timed.aligned armed t now
  have ns := (instantSecond free.within).2
  obtain ⟨_,_,reached⟩ | ⟨index,round,_⟩ := boundaryReached free stays
  · cases missed.symm.trans ((boundaryHitIff running armed before).mpr reached)
  · have kept : Aligned p (b.core.timingLatch p x) x.instant :=
      ⟨by rw [round]; exact before.round,by rw [ns,index]; exact before.base,
        by rw [ns,index]; exact before.next⟩
    exact
      { aligned := fun _ => kept
        pulsed := nofun
        quiet := fun _ _ => round
        armed := fun _ => armed
        arms := fun off => by simp [armed] at off }

theorem rolloverStep (timed : Timed p b) (free : FaultFree p (some t) x) (now : b.now = some t)
    (next : x.ptpTodSec.toNat = t / nsPerSecond + 1) :
    RoundStep p b.core.timing (b.core.timingRollover p x) t x.instant := by
  obtain ⟨sec,ns⟩ := instantSecond free.within
  obtain ⟨early,round,grown⟩ := rolloverEarly free next
  have aligned := alignedAtRollover timed free now early round
  exact
    { aligned := fun _ => aligned
      pulsed := fun _ => ⟨aligned.round,grown,Or.inr (ns.symm ▸ early)⟩
      quiet := nofun
      armed := id
      arms := fun _ => Or.inr ⟨rfl,by rw [sec,next]⟩ }

theorem secondAdvances (timed : Timed p b) (now : b.now = some t)
    (running : b.core.timingRunning x = true) (next : x.ptpTodSec.toNat = t / nsPerSecond + 1) :
    b.core.secondChanged x = true ∧ b.core.secondAdvanced x = true := by
  obtain ⟨_,_,valid⟩ := runningSeen timed running
  have moved : b.core.secondChanged x = true := (changedIff (x := x) timed now valid).mpr (by omega)
  obtain ⟨t',same,second⟩ := timed.second valid
  cases now.symm.trans same
  have one : x.ptpTodSec = b.core.timing.previousSecond + 1 := by
    apply BitVec.eq_of_toNat_eq
    rw [BitVec.toNat_add,second,next]
    exact (Nat.mod_eq_of_lt (next ▸ x.ptpTodSec.isLt)).symm
  exact ⟨moved,by simp [Core.secondAdvanced,running,moved,one]⟩

theorem roundStep (timed : Timed p b) (free : FaultFree p (some t) x) (now : b.now = some t)
    (alive : x.rst = false) (running : b.core.timingRunning x = true) :
    RoundStep p b.core.timing (b.core.timingNext p x) t x.instant := by
  obtain ⟨_,_,valid⟩ := runningSeen timed running
  have fine := faultless timed (now ▸ free)
  rcases secondMoves free with stays | next
  · have same : b.core.secondChanged x = false := by
      cases moved : b.core.secondChanged x with
      | false => rfl
      | true => exact absurd stays ((changedIff (x := x) timed now valid).mp moved)
    have advanced : b.core.secondAdvanced x = false := by simp [Core.secondAdvanced,same]
    cases armed : b.core.timing.timingArmed with
    | false =>
      have step : b.core.timingNext p x = b.core.timingArm p x := by
        simp [Core.timingNext,alive,running,fine,armed,same]
      rw [step]
      exact
        { aligned := fun _ => alignedAtArm timed free now stays _ rfl rfl rfl
          pulsed := nofun
          quiet := fun held => by simp [armed] at held
          armed := fun _ => rfl
          arms := fun _ => Or.inl ⟨rfl,by rw [(instantSecond free.within).1,stays]⟩ }
    | true =>
      cases hit : b.core.roundBoundaryHit x with
      | true =>
        have step : b.core.timingNext p x = b.core.timingBoundary p x := by
          simp [Core.timingNext,alive,running,fine,armed,advanced,hit]
        exact step ▸ boundaryStep timed free now running stays armed hit
      | false =>
        have step : b.core.timingNext p x = b.core.timingLatch p x := by
          simp [Core.timingNext,alive,running,fine,armed,advanced,hit]
        exact step ▸ latchStep timed free now running stays armed hit
  · obtain ⟨moved,advanced⟩ := secondAdvances timed now running next
    have step : b.core.timingNext p x = b.core.timingRollover p x := by
      simp [Core.timingNext,alive,running,fine,moved,advanced]
    exact step ▸ rolloverStep timed free now next

end Syncons.ConsensusCore
