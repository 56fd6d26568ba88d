import Syncons.Runs
import Syncons.BitFields
import Syncons.Rings

/-! The commit buffer: a ring of fixed-size slots written beat by beat at the tail and
popped slot by slot at the head. -/
namespace Syncons
open BitFields (writeBytes)

structure CommitBuffer (w : Nat) where
  headPtr : Nat := 0
  tailPtr : Nat := 0
  slotCount : Nat := 0
  writeBeatIndex : Nat := 0
  errorCount : BitVec 32 := 0
  ram : Nat → BitVec (8 * w) := fun _ => 0

namespace CommitBuffer

-- Elaboration parameters for a beat of `w` bytes, with the checks of the `initial` block.
structure Parameters (w : Nat) where
  slotBytes : Nat := 1024
  slotCount : Nat := 64
  ramAddrWidth : Nat := 16
  dmaLenWidth : Nat := 16
  sized : slotBytes ≠ 0
  whole : slotBytes % w = 0
  binary : slotBytes &&& (slotBytes - 1) = 0
  populated : slotCount ≠ 0
  round : slotCount &&& (slotCount - 1) = 0

namespace Parameters
variable {w : Nat} (p : Parameters w)

-- Sizes that pass their checks: 64, and the smallest slot counts.
theorem manyPopulated : 64 ≠ 0 := by decide
theorem manyWhole : 64 % 64 = 0 := by decide
theorem manyRound : 64 &&& (64 - 1) = 0 := by decide
theorem onePopulated : 1 ≠ 0 := by decide
theorem oneRound : 1 &&& (1 - 1) = 0 := by decide
theorem twoPopulated : 2 ≠ 0 := by decide
theorem twoRound : 2 &&& (2 - 1) = 0 := by decide

def beatCount : Nat := p.slotBytes / w
def lastBeatIndex : Nat := p.beatCount - 1
def ptrWidth : Nat := if 1 < p.slotCount then Nat.clog 2 p.slotCount else 1
def countWidth : Nat := Nat.clog 2 (p.slotCount + 1)
def beatIndexWidth : Nat := if 1 < p.beatCount then Nat.clog 2 p.beatCount else 1
def rowAddrWidth : Nat := p.ramAddrWidth - Nat.clog 2 w

def cells : Nat := 2 ^ p.ptrWidth

end Parameters

-- `ramReady` is the write side of the slot RAM.
structure Inputs (w : Nat) where
  rst : Bool := false
  inData : BitVec (8 * w) := 0
  inBe : BitVec w := BitVec.allOnes w
  inValid : Bool := false
  inLast : Bool := false
  popValid : Bool := false
  ramReady : Bool := true

variable {w : Nat} (p : Parameters w) (b : CommitBuffer w) (x : Inputs w)

def bufferEmpty : Bool := b.slotCount = 0
def bufferFull : Bool := b.slotCount = p.slotCount

def headSlotValid : Bool := !b.bufferEmpty
def headSlotAddr : Nat := (b.headPtr <<< Nat.clog 2 p.slotBytes) % 2 ^ p.ramAddrWidth
def headSlotLen : Nat := p.slotBytes % 2 ^ p.dmaLenWidth

def headSlotPopFire : Bool := x.popValid && !b.bufferEmpty
def commitInReady : Bool := !b.bufferFull p && x.ramReady
def commitInFire : Bool := x.inValid && commitInReady p b x
def tailSlotPushFire : Bool := commitInFire p b x && b.writeBeatIndex = p.lastBeatIndex

def rowAddr (ptr beat : Nat) : Nat :=
  ((ptr * p.beatCount) % 2 ^ p.rowAddrWidth + beat) % 2 ^ p.rowAddrWidth

def commitErrorInc : BitVec 32 :=
  (if x.inBe ≠ BitVec.allOnes w then 1 else 0) +
  (if b.writeBeatIndex = p.lastBeatIndex && !x.inLast then 1 else 0) +
  (if b.writeBeatIndex ≠ p.lastBeatIndex && x.inLast then 1 else 0)

def slotCountNext : Nat :=
  match tailSlotPushFire p b x,headSlotPopFire b x with
  | false,true => (b.slotCount + 2 ^ p.countWidth - 1) % 2 ^ p.countWidth
  | true,false => (b.slotCount + 1) % 2 ^ p.countWidth
  | _,_ => b.slotCount

def writeBeatIndexNext : Nat :=
  if commitInFire p b x then
    if b.writeBeatIndex = p.lastBeatIndex then 0 else (b.writeBeatIndex + 1) % 2 ^ p.beatIndexWidth
  else b.writeBeatIndex

def ramNext : Nat → BitVec (8 * w) :=
  if commitInFire p b x then
    let addr := rowAddr p b.tailPtr b.writeBeatIndex
    Function.update b.ram addr (writeBytes x.inBe x.inData (b.ram addr))
  else b.ram

-- A reset clears the registers and leaves the RAM.
def next : CommitBuffer w :=
  if x.rst then {ram := ramNext p b x}
  else
    { headPtr := if headSlotPopFire b x then (b.headPtr + 1) % p.cells else b.headPtr
      tailPtr := if tailSlotPushFire p b x then (b.tailPtr + 1) % p.cells else b.tailPtr
      slotCount := slotCountNext p b x
      writeBeatIndex := writeBeatIndexNext p b x
      errorCount :=
        if commitInFire p b x then b.errorCount + commitErrorInc p b x else b.errorCount
      ram := ramNext p b x }

def slotRows (ram : Nat → BitVec (8 * w)) (ptr : Nat) : List (BitVec (8 * w)) :=
  Rings.slot p.beatCount (2 ^ p.rowAddrWidth) ram ptr

-- The slots that wait for the host, and the beats of the one that is being written.
def held : List (List (BitVec (8 * w))) := Rings.queue p.cells b.headPtr b.slotCount (slotRows p b.ram)
def begun : List (BitVec (8 * w)) :=
  (List.range b.writeBeatIndex).map (fun j => b.ram (rowAddr p b.tailPtr j))

-- The beat, as it comes to lie in the RAM, and the slots that enter and leave in a cycle.
def stored : Option (BitVec (8 * w)) :=
  if commitInFire p b x then
    some (writeBytes x.inBe x.inData (b.ram (rowAddr p b.tailPtr b.writeBeatIndex)))
  else none

def pushed : Option (List (BitVec (8 * w))) :=
  if tailSlotPushFire p b x then some (begun p b ++ (stored p b x).toList) else none

def popped : Option (List (BitVec (8 * w))) :=
  if headSlotPopFire b x then some (slotRows p b.ram b.headPtr) else none

structure Ring : Prop where
  head : b.headPtr < p.cells
  tail : b.tailPtr = Rings.cell p.cells b.headPtr b.slotCount
  bound : b.slotCount ≤ p.slotCount
  index : b.writeBeatIndex < p.beatCount
  full : b.slotCount = p.slotCount → b.writeBeatIndex = 0

section Ring

variable {p : Parameters w} {b : CommitBuffer w} {x : Inputs w}

namespace Parameters

def Fits (p : Parameters w) : Prop := p.slotCount * p.slotBytes ≤ 2 ^ p.ramAddrWidth

theorem beatsWhole (p : Parameters w) : p.beatCount * w = p.slotBytes :=
  Nat.div_mul_cancel (Nat.dvd_of_mod_eq_zero p.whole)

theorem someBeats (p : Parameters w) : 0 < p.beatCount := by
  refine Nat.pos_of_ne_zero ?_
  intro none
  have whole := p.beatsWhole
  rw [none,Nat.zero_mul] at whole
  exact p.sized whole.symm

theorem beatPower (p : Parameters w) : 2 ^ Nat.clog 2 w = w :=
  Rings.clogDivisor p.sized p.binary p.whole

theorem someBytes (p : Parameters w) : 0 < w := by
  rw [← p.beatPower]
  exact Nat.two_pow_pos _

theorem addressSplit (fits : p.Fits) :
    p.slotCount * p.beatCount * w ≤ 2 ^ p.ramAddrWidth ∧ 2 ^ p.ramAddrWidth = w * 2 ^ p.rowAddrWidth := by
  have bytes : p.slotCount * p.beatCount * w ≤ 2 ^ p.ramAddrWidth := by
    rw [Nat.mul_assoc,p.beatsWhole]
    exact fits
  refine ⟨bytes,?_⟩
  have some : 0 < p.slotCount * p.beatCount :=
    Nat.mul_pos (Nat.pos_of_ne_zero p.populated) p.someBeats
  have beat : 2 ^ Nat.clog 2 w ≤ 2 ^ p.ramAddrWidth :=
    p.beatPower.le.trans (le_trans (Nat.le_mul_of_pos_left w some) bytes)
  have narrow : Nat.clog 2 w ≤ p.ramAddrWidth := (Nat.pow_le_pow_iff_right (by omega)).mp beat
  calc 2 ^ p.ramAddrWidth = 2 ^ (Nat.clog 2 w + p.rowAddrWidth) := by
        rw [rowAddrWidth,Nat.add_sub_cancel' narrow]
    _ = w * 2 ^ p.rowAddrWidth := by rw [Nat.pow_add,p.beatPower]

theorem fitsRows (fits : p.Fits) : p.slotCount * p.beatCount ≤ 2 ^ p.rowAddrWidth := by
  obtain ⟨bytes,split⟩ := addressSplit fits
  have some := p.someBytes
  rw [split,Nat.mul_comm w] at bytes
  exact Nat.le_of_mul_le_mul_right bytes some

theorem cellsRound (p : Parameters w) : p.cells = p.slotCount ∨ p.slotCount = 1 := by
  have some := p.populated
  by_cases many : 1 < p.slotCount
  · refine Or.inl ?_
    rw [cells,ptrWidth,if_pos many]
    exact Rings.clogPower some p.round
  · exact Or.inr (by omega)

theorem countFits (p : Parameters w) : p.slotCount < 2 ^ p.countWidth :=
  Nat.le_pow_clog (by omega) _

end Parameters

theorem headSlotRow (fits : p.Fits) :
    headSlotAddr p b / w = b.headPtr * p.beatCount % 2 ^ p.rowAddrWidth := by
  have some := p.someBytes
  rw [headSlotAddr,Nat.shiftLeft_eq,Rings.clogPower p.sized p.binary,(Parameters.addressSplit fits).2,
    Nat.mod_mul_right_div_self,← p.beatsWhole,← Nat.mul_assoc,Nat.mul_div_cancel _ some]

theorem rowAddrRow (ptr beat : Nat) :
    rowAddr p ptr beat = Rings.row p.beatCount (2 ^ p.rowAddrWidth) ptr beat := by
  rw [rowAddr,Rings.row,Nat.mod_add_mod]

theorem fireRoom (ring : Ring p b) (fire : commitInFire p b x = true) : b.slotCount < p.slotCount := by
  simp only [commitInFire,commitInReady,bufferFull,Bool.and_eq_true,Bool.not_eq_true',
    decide_eq_false_iff_not] at fire
  have bound := ring.bound
  omega

theorem writtenApart (fits : p.Fits) (ring : Ring p b) (fire : commitInFire p b x = true) {i j : Nat}
    (waiting : i ≤ b.slotCount) (beat : j < p.beatCount) (other : i < b.slotCount ∨ j < b.writeBeatIndex) :
    Rings.row p.beatCount (2 ^ p.rowAddrWidth) (Rings.cell p.cells b.headPtr i) j ≠
      rowAddr p b.tailPtr b.writeBeatIndex := by
  intro same
  rw [rowAddrRow,ring.tail] at same
  obtain ⟨place,index⟩ := Rings.rowsApart (Parameters.fitsRows fits) p.cellsRound (fireRoom ring fire)
    waiting (Nat.le_refl _) beat ring.index same
  omega

theorem ramHeld (fits : p.Fits) (ring : Ring p b) {i : Nat} (waiting : i < b.slotCount) :
    slotRows p (ramNext p b x) (Rings.cell p.cells b.headPtr i) =
      slotRows p b.ram (Rings.cell p.cells b.headPtr i) := by
  unfold ramNext
  cases fire : commitInFire p b x with
  | false => rfl
  | true =>
    refine Rings.slotSame ?_
    intro j beat
    exact Function.update_of_ne
      (writtenApart fits ring fire (Nat.le_of_lt waiting) beat (Or.inl waiting)) _ _

theorem ramBegun (fits : p.Fits) (ring : Ring p b) :
    (List.range (b.writeBeatIndex + if commitInFire p b x then 1 else 0)).map
        (fun j => ramNext p b x (rowAddr p b.tailPtr j)) =
      begun p b ++ (stored p b x).toList := by
  cases fire : commitInFire p b x with
  | false => simp [begun,ramNext,stored,fire]
  | true =>
    rw [if_pos rfl,List.range_succ,List.map_append,begun,stored,if_pos fire,ramNext,if_pos fire]
    refine congrArg₂ (· ++ ·) ?_ (by simp)
    refine List.map_congr_left ?_
    intro j member
    have below := List.mem_range.mp member
    have index := ring.index
    have apart := writtenApart fits ring fire (Nat.le_refl _) (show j < p.beatCount by omega) (Or.inr below)
    rw [← ring.tail,← rowAddrRow] at apart
    exact Function.update_of_ne apart _ _

theorem pushIndex (push : tailSlotPushFire p b x = true) :
    commitInFire p b x = true ∧ b.writeBeatIndex + 1 = p.beatCount := by
  simp only [tailSlotPushFire,Bool.and_eq_true,decide_eq_true_eq] at push
  obtain ⟨fire,last⟩ := push
  have some := p.someBeats
  rw [Parameters.lastBeatIndex] at last
  exact ⟨fire,by omega⟩

theorem heldPushed (fits : p.Fits) (ring : Ring p b) :
    Rings.queue p.cells b.headPtr (b.slotCount + if tailSlotPushFire p b x then 1 else 0)
        (slotRows p (ramNext p b x)) =
      held p b ++ (pushed p b x).toList := by
  have kept : Rings.queue p.cells b.headPtr b.slotCount (slotRows p (ramNext p b x)) = held p b :=
    Rings.queueSame (fun i waiting => ramHeld fits ring waiting)
  cases push : tailSlotPushFire p b x with
  | false => simpa [pushed,push] using kept
  | true =>
    obtain ⟨fire,whole⟩ := pushIndex push
    have written := @ramBegun w p b x fits ring
    rw [if_pos fire,whole] at written
    rw [if_pos rfl,Rings.queueSnoc,kept,pushed,if_pos push,← ring.tail,← written]
    simp only [slotRows,Rings.slot,rowAddrRow,Option.toList_some]

theorem popCount (pop : headSlotPopFire b x = true) : 0 < b.slotCount := by
  simp only [headSlotPopFire,bufferEmpty,Bool.and_eq_true,Bool.not_eq_true',
    decide_eq_false_iff_not] at pop
  omega

theorem pushRoom (ring : Ring p b) (push : tailSlotPushFire p b x = true) : b.slotCount < p.slotCount :=
  fireRoom ring (pushIndex push).1

theorem slotCountStep (ring : Ring p b) :
    slotCountNext p b x + (if headSlotPopFire b x then 1 else 0) =
      b.slotCount + if tailSlotPushFire p b x then 1 else 0 :=
  Rings.countStep ring.bound p.countFits (pushRoom ring) popCount

theorem heldNext (fits : p.Fits) (ring : Ring p b) (quiet : x.rst = false) :
    (popped p b x).toList ++ held p (next p b x) = held p b ++ (pushed p b x).toList := by
  have alive : ¬ x.rst = true := by simp [quiet]
  have pops : popped p b x =
      if headSlotPopFire b x then some (slotRows p (ramNext p b x) b.headPtr) else none := by
    cases pop : headSlotPopFire b x with
    | false => simp [popped,pop]
    | true =>
      have first := @ramHeld w p b x fits ring 0 (popCount pop)
      rw [Rings.cellZero ring.head] at first
      simp [popped,pop,first]
  rw [pops,held,next,if_neg alive,Rings.queueStep ring.head (slotCountStep ring),heldPushed fits ring]

theorem indexGrows (ring : Ring p b) (push : tailSlotPushFire p b x = false) :
    writeBeatIndexNext p b x = b.writeBeatIndex + if commitInFire p b x then 1 else 0 := by
  unfold writeBeatIndexNext
  cases fire : commitInFire p b x with
  | false => rfl
  | true =>
    have index := ring.index
    have more : b.writeBeatIndex ≠ p.lastBeatIndex := by simpa [tailSlotPushFire,fire] using push
    have wide : p.beatCount ≤ 2 ^ p.beatIndexWidth := by
      unfold Parameters.beatIndexWidth
      split
      · exact Nat.le_pow_clog (by omega) _
      · omega
    have below : b.writeBeatIndex + 1 < 2 ^ p.beatIndexWidth := by
      rw [Parameters.lastBeatIndex] at more
      omega
    rw [if_pos rfl,if_neg more,Nat.mod_eq_of_lt below,if_pos rfl]

theorem indexRestarts (push : tailSlotPushFire p b x = true) : writeBeatIndexNext p b x = 0 := by
  simp only [tailSlotPushFire,Bool.and_eq_true,decide_eq_true_eq] at push
  obtain ⟨fire,last⟩ := push
  rw [writeBeatIndexNext,if_pos fire,if_pos last]

theorem ringNext (ring : Ring p b) (quiet : x.rst = false) : Ring p (next p b x) := by
  have count := slotCountStep (x := x) ring
  have alive : ¬ x.rst = true := by simp [quiet]
  rw [next,if_neg alive]
  refine ⟨Rings.headStep ring.head,?_,?_,?_,?_⟩
  · exact (Rings.tailStep ring.tail).trans (Rings.cellStep count)
  · exact Rings.countBelow count ring.bound (pushRoom ring)
  · change writeBeatIndexNext p b x < p.beatCount
    cases push : tailSlotPushFire p b x with
    | true =>
      rw [indexRestarts push]
      exact p.someBeats
    | false =>
      have inside := ring.index
      rw [indexGrows ring push]
      cases fire : commitInFire p b x with
      | false => exact inside
      | true =>
        have more : b.writeBeatIndex ≠ p.lastBeatIndex := by simpa [tailSlotPushFire,fire] using push
        rw [Parameters.lastBeatIndex] at more
        simp only [if_true]
        omega
  · intro full
    change slotCountNext p b x = p.slotCount at full
    change writeBeatIndexNext p b x = 0
    cases push : tailSlotPushFire p b x with
    | true => exact indexRestarts push
    | false =>
      have bound := ring.bound
      simp only [push,Bool.false_eq_true,if_false] at count
      have same : b.slotCount = p.slotCount := by omega
      have blocked : commitInFire p b x = false := by simp [commitInFire,commitInReady,bufferFull,same]
      rw [indexGrows ring push,blocked,ring.full same]
      rfl

theorem ringStart : Ring p ({} : CommitBuffer w) := by
  have some := p.populated
  refine ⟨Nat.two_pow_pos _,?_,Nat.zero_le _,p.someBeats,fun _ => rfl⟩
  exact (Rings.cellZero (Nat.two_pow_pos _)).symm

end Ring
end CommitBuffer
end Syncons
