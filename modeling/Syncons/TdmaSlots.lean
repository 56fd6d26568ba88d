import Syncons.RoundOfTime
import Mathlib.Data.List.Chain

/-! TDMA slots as parts of the round. A window of an armed core is open after the instants
that lie in its part of the round and after no others, wherever the boundary falls, so
the slots of different cores are apart and each whole round goes through its slot once. -/
namespace Syncons.ConsensusCore
open Runs (System Move Ran)

section Levels
variable {α : Type} {rel : α → α → Prop} {level : α → Nat} {d bar : Nat} {a b : α} {l : List α}

theorem chainBefore {front rest : List α} (chain : (a :: (front ++ b :: rest)).IsChain rel) :
    ∃ c ∈ a :: front, rel c b := by
  have each := List.isChain_iff_forall_rel_of_append_cons_cons.mp chain
  cases front using List.reverseRecOn with
  | nil => exact ⟨a,by simp,@each a b [] rest rfl⟩
  | append_singleton others c => exact ⟨c,by simp,@each c b (a :: others) rest (by simp)⟩

-- A level that rises in steps of at most `d` passes a bar once, and lands less than `d` above it.
theorem crossed (rises : ∀ a b, rel a b → level a ≤ level b ∧ level b ≤ level a + d)
    (chain : (a :: l).IsChain rel) (low : level a < bar) (reached : ∃ z ∈ a :: l, bar ≤ level z) :
    ∃ front z rest, l = front ++ z :: rest ∧ (∀ y ∈ a :: front, level y < bar) ∧
      level z < bar + d ∧ ∀ y ∈ z :: rest, bar ≤ level y := by
  induction l generalizing a with
  | nil =>
    obtain ⟨z,member,high⟩ := reached
    cases List.mem_singleton.mp member
    omega
  | cons b l ih =>
    obtain ⟨first,later⟩ := List.isChain_cons_cons.mp chain
    have step := rises a b first
    by_cases below : level b < bar
    · have still : ∃ z ∈ b :: l, bar ≤ level z := by
        obtain ⟨z,member,high⟩ := reached
        rcases List.mem_cons.mp member with rfl | member
        · omega
        · exact ⟨z,member,high⟩
      obtain ⟨front,z,rest,rfl,under,near,above⟩ := ih later below still
      refine ⟨b :: front,z,rest,rfl,?_,near,above⟩
      intro y member
      rcases List.mem_cons.mp member with rfl | member
      · exact low
      · exact under y member
    · refine ⟨[],b,l,rfl,by simpa using low,by omega,?_⟩
      intro y member
      have onwards : level b ≤ level y := by
        have rising : (b :: l).IsChain (fun x y => level x ≤ level y) :=
          later.imp (fun x y held => (rises x y held).1)
        rcases List.mem_cons.mp member with rfl | member
        · exact le_rfl
        · exact (List.pairwise_cons.mp rising.pairwise).1 y member
      omega

end Levels

namespace Parameters
variable (p : Parameters)

-- The longest step of the time that no slot, and no part of one, is missed by.
def pace : Nat := min p.guardTimeNs (min p.txAdmitMarginNs (p.txSubslotNs - p.txAdmitMarginNs))

def offsetAt (t : Nat) : Nat := t % p.roundLengthNs

def within (opens closes t : Nat) : Prop := opens ≤ p.offsetAt t ∧ p.offsetAt t < closes

def inSlot (t : Nat) : Prop := p.within p.txStartOffsetNs p.txEndOffsetNs t
def inGate (t : Nat) : Prop := p.within p.txStartOffsetNs p.txAdmitOffsetNs t

theorem paceBounds : p.pace ≤ p.guardTimeNs ∧ p.pace ≤ p.txAdmitMarginNs ∧
    p.pace + p.txAdmitMarginNs ≤ p.txSubslotNs := by
  have admits := p.admits
  simp only [pace]
  omega

theorem slotBounds : p.guardTimeNs ≤ p.txStartOffsetNs ∧ p.txEndOffsetNs < p.roundLengthNs ∧
    p.txEndOffsetNs = p.txStartOffsetNs + p.txSubslotNs ∧
    p.txAdmitOffsetNs + p.txAdmitMarginNs = p.txEndOffsetNs := by
  have fits := p.fits
  have admits := p.admits
  have inside := Nat.mul_le_mul_right p.txSubslotNs p.named
  rw [Nat.succ_mul] at inside
  have last : p.txEndOffsetNs = p.guardTimeNs + p.nodeId * p.txSubslotNs + p.txSubslotNs := rfl
  refine ⟨Nat.le_add_right _ _,by omega,rfl,?_⟩
  rw [txAdmitOffsetNs]
  omega

theorem offsetOfSecond (t : Nat) : p.offsetAt (t % nsPerSecond) = p.offsetAt t :=
  Nat.mod_mod_of_dvd t (Nat.dvd_of_mod_eq_zero p.divides)

theorem offsetSplit (t : Nat) : p.roundAt t * p.roundLengthNs + p.offsetAt t = t :=
  Nat.div_add_mod' t p.roundLengthNs

theorem offsetFresh {t t' d : Nat} (near : t' ≤ t + d) (grown : p.roundAt t' = p.roundAt t + 1) :
    p.offsetAt t' < d := by
  have before := p.offsetSplit t
  have after := p.offsetSplit t'
  have below : p.offsetAt t < p.roundLengthNs := Nat.mod_lt t p.lengthPos
  rw [grown,Nat.add_mul] at after
  omega

theorem offsetGrows {t t' : Nat} (same : p.roundAt t' = p.roundAt t) :
    p.offsetAt t' + t = p.offsetAt t + t' := by
  have before := p.offsetSplit t
  have after := p.offsetSplit t'
  rw [same] at after
  omega

theorem offsetLate {t t' d : Nat} (near : t' ≤ t + d) (grown : p.roundAt t' = p.roundAt t + 1) :
    p.roundLengthNs ≤ p.offsetAt t + d := by
  have before := p.offsetSplit t
  have after := p.offsetSplit t'
  rw [grown,Nat.add_mul] at after
  omega

end Parameters

def paced (p : Parameters) : System Bench Inputs where
  start := (system p).start
  step b x b' := (system p).step b x b' ∧ ∀ t ∈ b.now, x.instant ≤ t + p.pace

variable {p p' : Parameters} {b b' : Bench} {x : Inputs} {t opens closes : Nat}
  {moves moves' pre post : List (Move Bench Inputs)}

theorem ranPaced (ran : Ran (paced p) moves b) : Ran (system p) moves b := by
  induction ran with
  | start h => exact .start h
  | move before h ih => exact .move ih h.1

theorem windowActiveIff (opensFits : opens < 2 ^ 32) (closesFits : closes < 2 ^ 32) :
    b.core.windowActive x opens closes = true ↔
      b.core.timing.timingArmed = true ∧ opens ≤ (b.core.roundOffsetNs x).toNat ∧
        (b.core.roundOffsetNs x).toNat < closes := by
  simp only [Core.windowActive,Bool.and_eq_true,decide_eq_true_eq,BitVec.le_def,BitVec.lt_def,
    BitVec.toNat_ofNat,Nat.mod_eq_of_lt opensFits,Nat.mod_eq_of_lt closesFits,and_assoc]

/- The offset against the base of the last cycle: that of the instant, or past the end of
the round in the cycle that crosses a boundary. -/
theorem offsetSeen (timed : Timed p b) (free : FaultFree p (some t) x) (now : b.now = some t)
    (near : x.instant ≤ t + p.pace) (armed : b.core.timing.timingArmed = true) :
    (b.core.roundOffsetNs x).toNat = p.offsetAt x.instant ∨
      p.offsetAt x.instant < p.pace ∧ p.roundLengthNs ≤ (b.core.roundOffsetNs x).toNat := by
  obtain ⟨sec,ns⟩ := instantSecond free.within
  have base := (timed.aligned armed t now).base
  have here := p.offsetOfSecond x.instant
  rw [ns] at here
  have length := p.lengthLe
  have within := free.within
  have wide := x.ptpTodNs.isLt
  simp only [nsPerSecond] at length within
  have wraps : (b.core.roundOffsetNs x).toNat =
      (2 ^ 32 - b.core.timing.roundBaseNs.toNat + x.ptpTodNs.toNat) % 2 ^ 32 := BitVec.toNat_sub ..
  rcases secondMoves free with stays | next
  · obtain ⟨index,grown,reached⟩ | ⟨index,_,_⟩ := boundaryReached free stays
    · right
      refine ⟨p.offsetFresh near grown,?_⟩
      rw [wraps,base]
      omega
    · left
      have floor := Nat.div_add_mod' x.ptpTodNs.toNat p.roundLengthNs
      rw [index] at floor
      rw [wraps,base,← here,Parameters.offsetAt]
      omega
  · obtain ⟨early,_,grown⟩ := rolloverEarly free next
    have fresh := p.offsetFresh near grown
    have same : p.offsetAt x.instant = x.ptpTodNs.toNat := here.symm.trans (Nat.mod_eq_of_lt early)
    have floor := Nat.div_mul_le_self (t % nsPerSecond) p.roundLengthNs
    have inSecond : t % nsPerSecond < nsPerSecond := Nat.mod_lt t (by decide)
    rw [wraps,base]
    generalize t % nsPerSecond / p.roundLengthNs = k at *
    simp only [nsPerSecond] at floor inSecond
    cases k with
    | zero =>
      left
      omega
    | succ k =>
      right
      refine ⟨fresh,?_⟩
      rw [Nat.succ_mul] at *
      omega

theorem windowIff (timed : Timed p b) (free : FaultFree p b.now x)
    (near : ∀ t ∈ b.now, x.instant ≤ t + p.pace) (guarded : p.guardTimeNs ≤ opens)
    (ordered : opens ≤ closes) (inside : closes ≤ p.roundLengthNs) :
    b.core.windowActive x opens closes = true ↔
      b.core.timing.timingArmed = true ∧ p.within opens closes x.instant := by
  have length := p.lengthLe
  simp only [nsPerSecond] at length
  rw [windowActiveIff (by omega) (by omega)]
  refine and_congr_right ?_
  intro armed
  obtain ⟨t,now,_⟩ := armedRound timed armed
  have pace := p.paceBounds.1
  rw [now] at free
  rcases offsetSeen timed free now (near t now) armed with same | ⟨fresh,past⟩
  · rw [same]
    rfl
  · simp only [Parameters.within]
    omega

theorem txWindowIff (timed : Timed p b) (free : FaultFree p b.now x)
    (near : ∀ t ∈ b.now, x.instant ≤ t + p.pace) :
    b.core.txWindowActive p x = true ↔
      b.core.timing.timingArmed = true ∧ p.inSlot x.instant := by
  obtain ⟨guarded,inside,slot,_⟩ := p.slotBounds
  exact windowIff timed free near guarded (by omega) inside.le

theorem txAdmitIff (timed : Timed p b) (free : FaultFree p b.now x)
    (near : ∀ t ∈ b.now, x.instant ≤ t + p.pace) :
    b.core.txAdmitActive p x = true ↔
      b.core.timing.timingArmed = true ∧ p.inGate x.instant := by
  obtain ⟨guarded,inside,slot,gate⟩ := p.slotBounds
  have admits := p.admits
  exact windowIff timed free near guarded (by omega) (by omega)

structure Slotted (p : Parameters) (b : Bench) : Prop where
  fresh : b.core.timing.roundStartPulse = true → ∀ t ∈ b.now, p.offsetAt t < p.pace
  armed : b.core.protocol.state.engaged → b.core.timing.timingArmed = true
  slot : b.core.windows.txWindowPrevious = true → ∃ t ∈ b.now, p.inSlot t
  gate : b.core.windows.txAdmitPrevious = true → ∀ t ∈ b.now, p.inGate t
  started : b.core.windows.txStartPulse = true → b.core.windows.txWindowPrevious = true

theorem slottedStart (start : (paced p).start b) : Slotted p b := by
  cases start
  constructor <;> simp [powerUp,FsmState.engaged]

structure WindowStep (p : Parameters) (s s' : Core) (t' : Nat) : Prop where
  slot : s'.windows.txWindowPrevious = true ↔ s.timing.timingArmed = true ∧ p.inSlot t'
  gate : s'.windows.txAdmitPrevious = true ↔ s.timing.timingArmed = true ∧ p.inGate t'
  pulse : s'.windows.txStartPulse = true ↔
    s'.windows.txWindowPrevious = true ∧ s.windows.txWindowPrevious = false

theorem windowsDown (down : x.rst = true ∨ b.core.timingRunning x = false) :
    (b.core.next p x).windows = {} := by
  have off : (x.rst || !b.core.timingRunning x) = true := by simpa using down
  simp [Core.next,Core.windowsNext,off]

theorem windowStep (timed : Timed p b) (free : FaultFree p b.now x)
    (near : ∀ t ∈ b.now, x.instant ≤ t + p.pace) (alive : x.rst = false)
    (running : b.core.timingRunning x = true) :
    WindowStep p b.core (b.core.next p x) x.instant := by
  have up : (x.rst || !b.core.timingRunning x) = false := by simp [alive,running]
  have next : (b.core.next p x).windows = b.core.windowsNext p x := rfl
  simp only [Core.windowsNext,up,Bool.false_eq_true,if_false] at next
  constructor
  · rw [next]
    exact txWindowIff timed free near
  · rw [next]
    exact txAdmitIff timed free near
  · simp [next]

theorem pulseArms (timed : Timed p b) (slotted : Slotted p b)
    (now : b.now = some t) (near : x.instant ≤ t + p.pace)
    (pulse : b.core.timing.roundStartPulse = true)
    (round : RoundStep p b.core.timing (b.core.timingNext p x) t x.instant) :
    (b.core.timingNext p x).timingArmed = true := by
  cases armed : b.core.timing.timingArmed with
  | true => exact round.armed armed
  | false =>
    obtain ⟨held,_⟩ | ⟨_,next⟩ := round.arms armed
    · exact held
    · have early : t % nsPerSecond < p.roundLengthNs := by
        simpa [armed] using (timed.pulsed pulse t now).2.1
      have fresh := slotted.fresh pulse t now
      rw [← p.offsetOfSecond,Parameters.offsetAt,Nat.mod_eq_of_lt early] at fresh
      obtain ⟨guard,margin,part⟩ := p.paceBounds
      obtain ⟨first,last,slot,_⟩ := p.slotBounds
      have length := p.lengthLe
      simp only [nsPerSecond] at *
      omega

theorem slottedStep (timed : Timed p b) (slotted : Slotted p b) (step : (paced p).step b x b') :
    Slotted p b' := by
  obtain ⟨⟨free,rfl⟩,near⟩ := step
  by_cases down : x.rst = true ∨ b.core.timingRunning x = false
  · have off := @windowsDown p b x down
    obtain ⟨unarmed,quiet⟩ := @downTiming p b.core x down
    constructor
    case fresh =>
      intro pulse
      cases quiet.symm.trans pulse
    case armed =>
      intro engaged
      obtain ⟨up,alive,_⟩ := engagedBefore (tickOf timed free) engaged
      simp [alive,engagedRunning free up] at down
    all_goals simp [off]
  · simp only [not_or,Bool.not_eq_true,Bool.not_eq_false] at down
    obtain ⟨t,now,_⟩ := runningSeen timed down.2
    have windows := windowStep timed free near down.1 down.2
    rw [now] at free
    have round := roundStep timed free now down.1 down.2
    constructor
    case fresh =>
      intro pulse t' now'
      cases now'
      exact p.offsetFresh (near t now) (round.pulsed pulse).2.1
    case armed =>
      intro engaged
      obtain ⟨_,_,held | pulse⟩ := engagedBefore (tickOf timed (now ▸ free)) engaged
      · exact round.armed (slotted.armed held)
      · exact pulseArms timed slotted now (near t now) pulse round
    case slot =>
      intro held
      exact ⟨_,rfl,(windows.slot.mp held).2⟩
    case gate =>
      intro held t' now'
      cases now'
      exact (windows.gate.mp held).2
    case started =>
      intro held
      exact (windows.pulse.mp held).1

theorem ranSlotted (ran : Ran (paced p) moves b) : Slotted p b := by
  induction ran with
  | start h => exact slottedStart h
  | move before h ih => exact slottedStep (ranTimed (ranPaced before)) ih h

structure SharedRound (p p' : Parameters) : Prop where
  length : p'.roundLengthNs = p.roundLengthNs
  guard : p'.guardTimeNs = p.guardTimeNs
  subslot : p'.txSubslotNs = p.txSubslotNs
  other : p'.nodeId ≠ p.nodeId

theorem slotsApart (shared : SharedRound p p') (here : p.inSlot t) : ¬ p'.inSlot t := by
  intro there
  simp only [Parameters.inSlot,Parameters.within,Parameters.offsetAt,Parameters.txEndOffsetNs,
    Parameters.txStartOffsetNs,shared.length,shared.guard,shared.subslot] at here there
  rcases Nat.lt_or_gt_of_ne shared.other with before | after
  · have gap := Nat.mul_le_mul_right p.txSubslotNs before
    rw [Nat.succ_mul] at gap
    omega
  · have gap := Nat.mul_le_mul_right p.txSubslotNs after
    rw [Nat.succ_mul] at gap
    omega

-- The windows of a cycle: the level on its own instant, the level registered before it and the gate.
def txOpen (p : Parameters) (m : Move Bench Inputs) : Bool :=
  m.before.core.txWindowActive p m.op || m.before.core.oTxWindow

def txHeld (m : Move Bench Inputs) : Bool := m.before.core.windows.txWindowPrevious
def gateOpen (m : Move Bench Inputs) : Bool := m.before.core.oTxWindow
def startPulse (m : Move Bench Inputs) : Bool := m.before.core.oTxStartPulse

theorem gateInSlot {m : Move Bench Inputs} (before : Ran (paced p) moves m.before)
    (step : (paced p).step m.before m.op m.after) (gate : gateOpen m = true) :
    p.inSlot m.op.instant := by
  obtain ⟨⟨free,_⟩,near⟩ := step
  simp only [gateOpen,Core.oTxWindow,Core.protocolActive,Bool.and_eq_true,decide_eq_true_eq] at gate
  have slotted := ranSlotted before
  obtain ⟨t,now,_⟩ := armedRound (ranTimed (ranPaced before)) (slotted.armed (Or.inr gate.2))
  obtain ⟨opens,closes⟩ := slotted.gate gate.1 t now
  obtain ⟨le,lt⟩ := free.advances t now
  have step := near t now
  obtain ⟨_,margin,_⟩ := p.paceBounds
  obtain ⟨_,inside,_,early⟩ := p.slotBounds
  have split := p.offsetSplit t
  have same : p.roundAt m.op.instant = p.roundAt t := by
    apply Nat.div_eq_of_lt_le
    · omega
    · rw [Nat.succ_mul]
      omega
  have grows := p.offsetGrows same
  exact ⟨by omega,by omega⟩

theorem openInSlot {m : Move Bench Inputs} (before : Ran (paced p) moves m.before)
    (step : (paced p).step m.before m.op m.after) (held : txOpen p m = true) :
    p.inSlot m.op.instant := by
  rcases Bool.or_eq_true_iff.mp held with active | gate
  · exact ((txWindowIff (ranTimed (ranPaced before)) step.1.1 step.2).mp active).2
  · exact gateInSlot before step gate

/- The cycles of a whole round: the boundary pulse is in the first of them and in the
cycle after the last. The core runs, at the latest from the pulse on. -/
structure WholeRound (entry : Move Bench Inputs) (inner : List (Move Bench Inputs))
    (exit : Move Bench Inputs) : Prop where
  entered : onBoundary entry = true
  inside : ∀ m ∈ inner, onBoundary m = false
  left : onBoundary exit = true
  runs : ∀ m ∈ inner, m.before.core.protocol.state = .run

def lastInstant (m : Move Bench Inputs) : Nat := m.before.now.getD 0

structure Follows (p : Parameters) (m m' : Move Bench Inputs) : Prop where
  rises : p.offsetAt (lastInstant m) ≤ p.offsetAt (lastInstant m')
  near : p.offsetAt (lastInstant m') ≤ p.offsetAt (lastInstant m) + p.pace
  held : txHeld m' = true ↔ p.inSlot (lastInstant m')
  gate : gateOpen m' = true ↔ p.inGate (lastInstant m')
  pulse : startPulse m' = true ↔ txHeld m' = true ∧ txHeld m = false

theorem follows {m m' : Move Bench Inputs} (before : Ran (paced p) moves m.before)
    (step : (paced p).step m.before m.op m.after) (link : m'.before = m.after)
    (runs : m'.before.core.protocol.state = .run) (quiet : onBoundary m' = false) :
    Follows p m m' := by
  obtain ⟨⟨free,after⟩,near⟩ := step
  have timed := ranTimed (ranPaced before)
  rw [after] at link
  have goes : (m.before.core.protocolNext p m.op).state = .run := by
    rw [link] at runs
    exact runs
  obtain ⟨up,alive,engaged⟩ := runningBefore (tickOf timed free) goes
  have armed := (ranSlotted before).armed engaged
  obtain ⟨t,now,_⟩ := armedRound timed armed
  have running := engagedRunning free up
  have windows := windowStep timed free near alive running
  have here : lastInstant m = t := by simp [lastInstant,now]
  have there : lastInstant m' = m.op.instant := by simp [lastInstant,link]
  simp only [onBoundary,link] at quiet
  have round := roundStep timed (now ▸ free) now alive running
  have grows := p.offsetGrows (round.quiet armed quiet)
  have le := (free.advances t now).1
  have step := near t now
  have active : m'.before.core.protocolActive = true := by simp [Core.protocolActive,runs]
  constructor
  · rw [here,there]
    omega
  · rw [here,there]
    omega
  · rw [there,txHeld,link]
    simpa [armed] using windows.slot
  · rw [there,gateOpen,Core.oTxWindow,active,Bool.and_true,link]
    simpa [armed] using windows.gate
  · rw [startPulse,Core.oTxStartPulse,active,Bool.and_true,txHeld,txHeld,link]
    exact windows.pulse

section Rounds
variable {entry exit : Move Bench Inputs} {inner : List (Move Bench Inputs)}

theorem roundChain (ran : Ran (paced p) (pre ++ (entry :: inner) ++ exit :: post) b)
    (whole : WholeRound entry inner exit) : (entry :: inner).IsChain (Follows p) := by
  rw [List.isChain_iff_forall_rel_of_append_cons_cons]
  intro m m' front rest split
  rw [split] at ran
  have around : pre ++ (front ++ m :: m' :: rest) ++ exit :: post =
      (pre ++ front) ++ m :: m' :: (rest ++ exit :: post) := by simp
  rw [around] at ran
  obtain ⟨before,step,_⟩ := Runs.ranAt ran
  have later : m' ∈ inner := by
    cases front with
    | nil =>
      cases split
      simp
    | cons c others =>
      cases split
      simp
  exact follows before step (Runs.ranLink ran) (whole.runs m' later) (whole.inside m' later)

theorem entrySeen (before : Ran (paced p) pre entry.before) (whole : WholeRound entry inner exit) :
    ∃ t, entry.before.now = some t ∧ lastInstant entry = t := by
  have timed := ranTimed (ranPaced before)
  cases seen : entry.before.core.timing.secondValid with
  | false =>
    have quiet := (timed.dark seen).2.2.1
    cases quiet.symm.trans whole.entered
  | true =>
    obtain ⟨t,now,_⟩ := timed.second seen
    exact ⟨t,now,by simp [lastInstant,now]⟩

theorem entryLow (before : Ran (paced p) pre entry.before) (whole : WholeRound entry inner exit) :
    p.offsetAt (lastInstant entry) < p.pace := by
  obtain ⟨t,now,here⟩ := entrySeen before whole
  rw [here]
  exact (ranSlotted before).fresh whole.entered t now

theorem exitHigh (ran : Ran (paced p) (pre ++ (entry :: inner) ++ exit :: post) b)
    (whole : WholeRound entry inner exit) :
    ∃ z ∈ entry :: inner, p.roundLengthNs ≤ p.offsetAt (lastInstant z) + p.pace := by
  rcases List.eq_nil_or_concat (entry :: inner) with none | ⟨front,z,split⟩
  · simp at none
  · rw [List.concat_eq_append] at split
    rw [split] at ran
    have around : pre ++ (front ++ [z]) ++ exit :: post =
        (pre ++ front) ++ z :: exit :: post := by simp
    rw [around] at ran
    obtain ⟨before,⟨⟨free,after⟩,near⟩,_⟩ := Runs.ranAt ran
    have member : z ∈ entry :: inner := by
      rw [split]
      simp
    refine ⟨z,member,?_⟩
    have timed := ranTimed (ranPaced before)
    have pulse := whole.left
    rw [onBoundary,Runs.ranLink ran,after] at pulse
    have up : ¬ (z.op.rst = true ∨ z.before.core.timingRunning z.op = false) := by
      intro down
      exact absurd ((downTiming down).2.symm.trans pulse) (by decide)
    simp only [not_or,Bool.not_eq_true,Bool.not_eq_false] at up
    obtain ⟨t,now,_⟩ := runningSeen timed up.2
    have round := roundStep timed (now ▸ free) now up.1 up.2
    have here : lastInstant z = t := by simp [lastInstant,now]
    rw [here]
    exact p.offsetLate (near t now) (round.pulsed pulse).2.1

theorem followsRises (m m' : Move Bench Inputs) (held : Follows p m m') :
    p.offsetAt (lastInstant m) ≤ p.offsetAt (lastInstant m') ∧
      p.offsetAt (lastInstant m') ≤ p.offsetAt (lastInstant m) + p.pace := ⟨held.rises,held.near⟩

structure OneWindow (round : List (Move Bench Inputs)) : Prop where
  once : round.countP startPulse = 1
  gated : ∀ m ∈ round, startPulse m = true → gateOpen m = true
  closed : ∃ m ∈ round, txHeld m = true ∧ gateOpen m = false

theorem heldIff (before : Ran (paced p) pre entry.before) (whole : WholeRound entry inner exit)
    (chain : (entry :: inner).IsChain (Follows p)) {m : Move Bench Inputs}
    (member : m ∈ entry :: inner) : txHeld m = true ↔ p.inSlot (lastInstant m) := by
  rcases List.mem_cons.mp member with rfl | later
  · have slotted := ranSlotted before
    obtain ⟨t,now,here⟩ := entrySeen before whole
    have low := entryLow before whole
    have guard := p.paceBounds.1
    have opens := p.slotBounds.1
    rw [here] at low ⊢
    constructor
    · intro on
      obtain ⟨t',now',inside⟩ := slotted.slot on
      cases now.symm.trans now'
      exact inside
    · rintro ⟨late,_⟩
      omega
  · obtain ⟨front,rest,rfl⟩ := List.append_of_mem later
    obtain ⟨_,_,follows⟩ := chainBefore chain
    exact follows.held

theorem pulseHeld (before : Ran (paced p) pre entry.before)
    (chain : (entry :: inner).IsChain (Follows p)) {m : Move Bench Inputs}
    (member : m ∈ entry :: inner) (pulse : startPulse m = true) : txHeld m = true := by
  rcases List.mem_cons.mp member with rfl | later
  · simp only [startPulse,Core.oTxStartPulse,Bool.and_eq_true] at pulse
    exact (ranSlotted before).started pulse.1
  · obtain ⟨front,rest,rfl⟩ := List.append_of_mem later
    obtain ⟨_,_,follows⟩ := chainBefore chain
    exact (follows.pulse.mp pulse).1

structure Enters (entry : Move Bench Inputs) (front : List (Move Bench Inputs)) (z : Move Bench Inputs)
    (rest : List (Move Bench Inputs)) : Prop where
  silent : ∀ m ∈ entry :: front, startPulse m = false
  pulse : startPulse z = true
  gate : gateOpen z = true
  spent : ∀ m ∈ rest, startPulse m = false

theorem slotEntered (before : Ran (paced p) pre entry.before) (whole : WholeRound entry inner exit)
    (chain : (entry :: inner).IsChain (Follows p))
    (reached : ∃ z ∈ entry :: inner, p.txStartOffsetNs ≤ p.offsetAt (lastInstant z)) :
    ∃ front z rest, inner = front ++ z :: rest ∧ Enters entry front z rest := by
  have low := entryLow before whole
  obtain ⟨guard,margin,part⟩ := p.paceBounds
  obtain ⟨opens,inside,slot,gate⟩ := p.slotBounds
  obtain ⟨front,z,rest,rfl,under,near,above⟩ :=
    @crossed _ _ _ p.pace p.txStartOffsetNs _ _ followsRises chain (by omega) reached
  have earlier {m} (within : m ∈ entry :: front) : m ∈ entry :: (front ++ z :: rest) := by
    rw [← List.cons_append]
    exact List.mem_append_left _ within
  have later {m} (within : m ∈ z :: rest) : m ∈ entry :: (front ++ z :: rest) := by
    rw [← List.cons_append]
    exact List.mem_append_right _ within
  have late := above z (by simp)
  have inSlot : p.inSlot (lastInstant z) := ⟨late,by omega⟩
  have idle : ∀ m ∈ entry :: front, txHeld m = false := by
    intro m within
    rw [← Bool.not_eq_true,heldIff before whole chain (earlier within)]
    rintro ⟨past,_⟩
    exact absurd (under m within) (Nat.not_lt.mpr past)
  obtain ⟨c,within,enters⟩ := chainBefore chain
  refine ⟨front,z,rest,rfl,?_⟩
  constructor
  · intro m within
    rw [← Bool.not_eq_true]
    intro on
    cases (idle m within).symm.trans (pulseHeld before chain (earlier within) on)
  · exact enters.pulse.mpr ⟨enters.held.mpr inSlot,idle c within⟩
  · exact enters.gate.mpr ⟨late,by omega⟩
  · intro m within
    obtain ⟨others,more,rfl⟩ := List.append_of_mem within
    have tail := chain
    rw [← List.cons_append] at tail
    obtain ⟨x,place,follows⟩ := chainBefore tail.right_of_append
    have placed : x ∈ z :: (others ++ m :: more) := by
      rw [← List.cons_append]
      exact List.mem_append_left _ place
    rw [← Bool.not_eq_true,follows.pulse]
    rintro ⟨on,off⟩
    have still : p.inSlot (lastInstant x) :=
      ⟨above x placed,lt_of_le_of_lt follows.rises (follows.held.mp on).2⟩
    cases off.symm.trans ((heldIff before whole chain (later placed)).mpr still)

theorem gateLeft (chain : (entry :: inner).IsChain (Follows p))
    (low : p.offsetAt (lastInstant entry) < p.txAdmitOffsetNs)
    (reached : ∃ z ∈ entry :: inner, p.txAdmitOffsetNs ≤ p.offsetAt (lastInstant z)) :
    ∃ m ∈ entry :: inner, txHeld m = true ∧ gateOpen m = false := by
  obtain ⟨front,y,rest,rfl,under,near,above⟩ :=
    @crossed _ _ _ p.pace p.txAdmitOffsetNs _ _ followsRises chain low reached
  obtain ⟨_,_,leaves⟩ := chainBefore chain
  have past := above y (by simp)
  have admits := p.admits
  obtain ⟨guard,margin,part⟩ := p.paceBounds
  obtain ⟨opens,inside,slot,gate⟩ := p.slotBounds
  refine ⟨y,by simp,leaves.held.mpr ⟨by omega,by omega⟩,?_⟩
  rw [← Bool.not_eq_true,leaves.gate]
  rintro ⟨_,early⟩
  omega

theorem wholeRound (ran : Ran (paced p) (pre ++ (entry :: inner) ++ exit :: post) b)
    (whole : WholeRound entry inner exit) : OneWindow (entry :: inner) := by
  have before : Ran (paced p) pre entry.before := by
    rw [List.append_assoc] at ran
    exact (Runs.ranAt ran).1
  have chain := roundChain ran whole
  have low := entryLow before whole
  have admits := p.admits
  obtain ⟨last,member,high⟩ := exitHigh ran whole
  obtain ⟨guard,margin,part⟩ := p.paceBounds
  obtain ⟨opens,inside,slot,gate⟩ := p.slotBounds
  have closed := gateLeft chain (by omega) ⟨last,member,by omega⟩
  obtain ⟨front,z,rest,rfl,enters⟩ := slotEntered before whole chain ⟨last,member,by omega⟩
  have none {l : List (Move Bench Inputs)} (quiet : ∀ m ∈ l, startPulse m = false) :
      l.countP startPulse = 0 := by
    rw [List.countP_eq_zero]
    intro m within
    simp [quiet m within]
  refine ⟨?_,?_,closed⟩
  · rw [← List.cons_append,List.countP_append,List.countP_cons_of_pos enters.pulse,
      none enters.silent,none enters.spent]
  · intro m within on
    rw [← List.cons_append] at within
    rcases List.mem_append.mp within with early | late
    · cases (enters.silent m early).symm.trans on
    · rcases List.mem_cons.mp late with rfl | late
      · exact enters.gate
      · cases (enters.spent m late).symm.trans on

end Rounds

theorem sameCycle {m m' : Move Bench Inputs} {pre' post' : List (Move Bench Inputs)}
    (ran : Ran (paced p) (pre ++ m :: post) b) (ran' : Ran (paced p') (pre' ++ m' :: post') b')
    (fed : instants (pre' ++ m' :: post') = instants (pre ++ m :: post))
    (level : pre'.length = pre.length) :
    m'.op.instant = m.op.instant ∧ m'.before.now = m.before.now := by
  simp only [instants,List.map_append,List.map_cons] at fed
  obtain ⟨earlier,later⟩ := List.append_inj fed (by simpa using level)
  have now := ranInstants (ranPaced (Runs.ranAt ran).1)
  have now' := ranInstants (ranPaced (Runs.ranAt ran').1)
  refine ⟨(List.cons.inj later).1,?_⟩
  rw [now,now',instants,instants,earlier]

theorem pacedRan (ran : Ran (system p) moves b)
    (near : ∀ m ∈ moves, ∀ t ∈ m.before.now, m.op.instant ≤ t + p.pace) : Ran (paced p) moves b := by
  induction ran with
  | start h => exact .start h
  | move before h ih =>
    have earlier := ih (fun m member => near m (List.mem_append_left _ member))
    exact .move earlier ⟨h,near _ (List.mem_append_right _ (List.mem_singleton_self _))⟩

instance (entry exit : Move Bench Inputs) (inner : List (Move Bench Inputs)) :
    Decidable (WholeRound entry inner exit) :=
  decidable_of_iff (onBoundary entry = true ∧ (∀ m ∈ inner, onBoundary m = false) ∧
      onBoundary exit = true ∧ ∀ m ∈ inner, m.before.core.protocol.state = .run)
    ⟨fun h => ⟨h.1,h.2.1,h.2.2.1,h.2.2.2⟩,fun h => ⟨h.1,h.2,h.3,h.4⟩⟩

-- Two cores with slots of 300 ns in rounds of 1000 ns, on a clock of 150 ns a cycle.
def neighbour (i : Fin 2) : Parameters :=
  { nodeCount := 2, nodeId := i, roundLengthNs := 1000, txSubslotNs := 300, txAdmitMarginNs := 150
    divides := by decide, fits := by decide, admits := by decide, named := i.isLt,
    narrow := twoNarrow }

def slotInputs : List Inputs :=
  aloneAt 1 0 (some ⟨0x003104,3⟩) :: aloneAt 1 0 none :: aloneAt 1 0 (some ⟨0x00300C,3⟩) ::
    (List.range 30).map (fun k => aloneAt 1 (150 * k) none)

def keepsPace (p : Parameters) (moves : List (Move Bench Inputs)) : Bool :=
  moves.all (fun m => m.before.now.all (fun t => m.op.instant ≤ t + p.pace))

theorem pacedFound {inputs : List Inputs} {good : List (Move Bench Inputs) → Bool}
    (value : (play p inputs).toOption.map (fun result =>
      keepsPace p result.1 && good result.1) = some true) :
    ∃ moves b, play p inputs = .ok (moves,b) ∧ Ran (paced p) moves b ∧ good moves = true := by
  obtain ⟨moves,b,done,ran,found⟩ := @playFound p inputs
    (fun moves _ => keepsPace p moves && good moves) value
  rw [Bool.and_eq_true,keepsPace,List.all_eq_true] at found
  refine ⟨moves,b,done,pacedRan ran ?_,found.2⟩
  intro m member t now
  exact of_decide_eq_true ((Option.all_eq_true _ _).mp (found.1 m member) t now)

def roundFrom (first count : Nat) (moves : List (Move Bench Inputs)) : Bool :=
  (Runs.cut first moves).any (fun (_,entry,rest) =>
    (Runs.cut count rest).any (fun (inner,exit,_) => decide (WholeRound entry inner exit)))

theorem roundFound {first count : Nat} (found : roundFrom first count moves = true) :
    ∃ pre entry inner exit post, moves = pre ++ (entry :: inner) ++ exit :: post ∧
      WholeRound entry inner exit := by
  obtain ⟨⟨pre,entry,rest⟩,front,found⟩ := (Option.any_eq_true _ _).mp found
  obtain ⟨⟨inner,exit,post⟩,back,whole⟩ := (Option.any_eq_true _ _).mp found
  refine ⟨pre,entry,inner,exit,post,?_,of_decide_eq_true whole⟩
  rw [Runs.cutIs front,Runs.cutIs back]
  simp

end Syncons.ConsensusCore
