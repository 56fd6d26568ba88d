import Syncons.ProposalDmaReader

/-! Which geometries of the two slot rings are sound. The checks of the modules let through
geometries whose addresses leave the RAM, whose slots share rows or whose length does not fit;
the sound ones keep every slot in its place over all runs, resets included. -/
namespace Syncons
open Runs

namespace CommitBuffer.Parameters

variable {w : Nat} (p : Parameters w)

def ramBytes : Nat := p.slotBytes * p.slotCount

/- A ring of one slot has a pointer of one bit, so that it also points behind its RAM unless
the addresses are too narrow for that. -/
def Sound : Prop :=
  p.slotBytes < 2 ^ p.dmaLenWidth ∧
    if p.slotCount = 1 then 2 ^ p.ramAddrWidth ≤ p.slotBytes else p.ramBytes ≤ 2 ^ p.ramAddrWidth

def Apart (c c' : Nat) : Prop :=
  ∀ j < p.beatCount, ∀ j' < p.beatCount,
    Rings.row p.beatCount (2 ^ p.rowAddrWidth) c j ≠ Rings.row p.beatCount (2 ^ p.rowAddrWidth) c' j'

section Geometry

variable {p} {ptr beat i j count head : Nat}

theorem slotPower (p : Parameters w) : 2 ^ Nat.clog 2 p.slotBytes = p.slotBytes :=
  Rings.clogPower p.sized p.binary

theorem beatInSlot (p : Parameters w) : Nat.clog 2 w ≤ Nat.clog 2 p.slotBytes :=
  Nat.clog_mono_right 2 (Nat.le_of_dvd (Nat.pos_of_ne_zero p.sized) (Nat.dvd_of_mod_eq_zero p.whole))

theorem beatsPower (p : Parameters w) : p.beatCount = 2 ^ (Nat.clog 2 p.slotBytes - Nat.clog 2 w) := by
  rw [← Nat.pow_div p.beatInSlot (by omega),p.slotPower,p.beatPower,beatCount]

theorem slotAddress (p : Parameters w) (ptr : Nat) : ptr <<< Nat.clog 2 p.slotBytes = ptr * p.slotBytes := by
  rw [Nat.shiftLeft_eq,p.slotPower]

theorem narrowAddress (narrow : 2 ^ p.ramAddrWidth ≤ p.slotBytes) :
    2 ^ p.ramAddrWidth ∣ p.slotBytes ∧ 2 ^ p.rowAddrWidth ∣ p.beatCount := by
  rw [← p.slotPower] at narrow
  have exponent : p.ramAddrWidth ≤ Nat.clog 2 p.slotBytes := (Nat.pow_le_pow_iff_right (by omega)).mp narrow
  refine ⟨?_,?_⟩
  · rw [← p.slotPower]
    exact Nat.pow_dvd_pow 2 exponent
  · rw [p.beatsPower,rowAddrWidth]
    exact Nat.pow_dvd_pow 2 (Nat.sub_le_sub_right exponent _)

theorem cellsMany (many : p.slotCount ≠ 1) : p.cells = p.slotCount := by
  obtain round | single := p.cellsRound
  · exact round
  · exact absurd single many

theorem soundFits (sound : p.Sound) (many : p.slotCount ≠ 1) : p.Fits := by
  have within := sound.2
  rwa [if_neg many,ramBytes,Nat.mul_comm] at within

theorem slotInside (sound : p.Sound) (inside : ptr < p.cells) :
    (ptr <<< Nat.clog 2 p.slotBytes) % 2 ^ p.ramAddrWidth + p.slotBytes ≤ p.ramBytes := by
  rw [p.slotAddress,ramBytes]
  by_cases single : p.slotCount = 1
  · have narrow := sound.2
    rw [if_pos single] at narrow
    have none := Nat.mod_eq_zero_of_dvd (Dvd.dvd.mul_left (narrowAddress narrow).1 ptr)
    rw [none,single]
    omega
  · rw [cellsMany single] at inside
    have next : (ptr + 1) * p.slotBytes ≤ p.slotCount * p.slotBytes :=
      Nat.mul_le_mul_right p.slotBytes inside
    have low := Nat.mod_le (ptr * p.slotBytes) (2 ^ p.ramAddrWidth)
    rw [Nat.add_mul,Nat.mul_comm p.slotCount] at next
    omega

theorem rowBytes (below : i < p.slotCount * p.beatCount) : (i + 1) * w ≤ p.ramBytes := by
  have next : (i + 1) * w ≤ p.slotCount * p.beatCount * w := Nat.mul_le_mul_right w below
  rwa [Nat.mul_assoc,p.beatsWhole,Nat.mul_comm p.slotCount] at next

theorem rowInside (sound : p.Sound) (inside : ptr < p.cells) (first : beat < p.beatCount) :
    (Rings.row p.beatCount (2 ^ p.rowAddrWidth) ptr beat + 1) * w ≤ p.ramBytes := by
  refine rowBytes ?_
  by_cases single : p.slotCount = 1
  · have narrow := sound.2
    rw [if_pos single] at narrow
    have none := Nat.mod_eq_zero_of_dvd (Dvd.dvd.mul_left (narrowAddress narrow).2 ptr)
    have low := Nat.mod_le beat (2 ^ p.rowAddrWidth)
    rw [Rings.row,Nat.add_mod,none,Nat.zero_add,Nat.mod_mod,single]
    omega
  · rw [cellsMany single] at inside
    have next : (ptr + 1) * p.beatCount ≤ p.slotCount * p.beatCount :=
      Nat.mul_le_mul_right p.beatCount inside
    rw [Rings.rowBelow (fitsRows (soundFits sound single)) inside first]
    rw [Nat.add_mul] at next
    omega

theorem cellsApart (sound : p.Sound) (below : i < j) (place : j < p.slotCount) :
    p.Apart (Rings.cell p.cells head i) (Rings.cell p.cells head j) := by
  intro first within second within' same
  have many : p.slotCount ≠ 1 := by omega
  obtain ⟨apart,_⟩ := Rings.rowsApart (fitsRows (soundFits sound many)) p.cellsRound place
    (Nat.le_of_lt below) (Nat.le_refl j) within within' same
  omega

theorem singleBeyond (single : p.slotCount = 1) (wide : p.slotBytes < 2 ^ p.ramAddrWidth) :
    ¬ (1 <<< Nat.clog 2 p.slotBytes) % 2 ^ p.ramAddrWidth + p.slotBytes ≤ p.ramBytes := by
  have some := p.sized
  rw [p.slotAddress,Nat.one_mul,Nat.mod_eq_of_lt wide,ramBytes,single]
  omega

theorem rowBeyond (single : p.slotCount = 1) (wide : p.slotBytes < 2 ^ p.ramAddrWidth) :
    ¬ (Rings.row p.beatCount (2 ^ p.rowAddrWidth) 1 0 + 1) * w ≤ p.ramBytes := by
  have exponent : Nat.clog 2 p.slotBytes < p.ramAddrWidth := by
    rw [← p.slotPower] at wide
    exact (Nat.pow_lt_pow_iff_right (by omega)).mp wide
  have narrow := p.beatInSlot
  have fewer : p.beatCount < 2 ^ p.rowAddrWidth := by
    rw [p.beatsPower,rowAddrWidth]
    exact Nat.pow_lt_pow_right (by omega) (by omega)
  have some := p.someBytes
  have base : Rings.row p.beatCount (2 ^ p.rowAddrWidth) 1 0 = p.beatCount := by
    rw [Rings.row,Nat.one_mul]
    exact Nat.mod_eq_of_lt fewer
  rw [base,Nat.add_mul,p.beatsWhole,ramBytes,single]
  omega

theorem slotShared (many : p.slotCount ≠ 1) (wide : 2 ^ p.ramAddrWidth < p.ramBytes) :
    ∃ k, 0 < k ∧ k < p.slotCount ∧ ¬ p.Apart 0 k := by
  obtain ⟨t,slots⟩ := Rings.binaryPower p.populated p.round
  have narrow := p.beatInSlot
  have exponent : p.ramAddrWidth < Nat.clog 2 p.slotBytes + t := by
    rw [ramBytes,← p.slotPower,slots,← Nat.pow_add] at wide
    exact (Nat.pow_lt_pow_iff_right (by omega)).mp wide
  have several : 0 < t := by
    refine Nat.pos_of_ne_zero ?_
    rintro rfl
    exact many slots
  have again : 2 ^ p.rowAddrWidth ∣ 2 ^ (p.ramAddrWidth - Nat.clog 2 p.slotBytes) * p.beatCount := by
    rw [p.beatsPower,← Nat.pow_add,rowAddrWidth]
    exact Nat.pow_dvd_pow 2 (by omega)
  refine ⟨2 ^ (p.ramAddrWidth - Nat.clog 2 p.slotBytes),Nat.two_pow_pos _,?_,?_⟩
  · rw [slots]
    exact Nat.pow_lt_pow_right (by omega) (by omega)
  · intro apart
    refine apart 0 p.someBeats 0 p.someBeats ?_
    rw [Rings.row,Rings.row,Nat.zero_mul,Nat.add_zero,Nat.zero_mod,Nat.add_zero]
    exact (Nat.mod_eq_zero_of_dvd again).symm

theorem cellsSingle (single : p.slotCount = 1) : p.cells = 2 := by
  rw [cells,ptrWidth,if_neg (by omega)]
  rfl

end Geometry

structure Placed (head tail count : Nat) : Prop where
  round : tail % p.slotCount = (head + count) % p.slotCount
  bound : count ≤ p.slotCount
  queued : ∀ i j, i < j → j < count → p.Apart (Rings.cell p.cells head i) (Rings.cell p.cells head j)
  writable : count < p.slotCount → ∀ i < count, p.Apart (Rings.cell p.cells head i) tail

section Placing

variable {p} {head tail count : Nat}

theorem placed (sound : p.Sound) (place : tail = Rings.cell p.cells head count)
    (bound : count ≤ p.slotCount) : p.Placed head tail count := by
  refine ⟨?_,bound,?_,?_⟩
  · rw [place,Rings.cell]
    obtain round | single := p.cellsRound
    · rw [round,Nat.mod_mod]
    · rw [single,Nat.mod_one,Nat.mod_one]
  · intro i j below later
    exact cellsApart sound below (by omega)
  · intro room i below
    rw [place]
    exact cellsApart sound below room

theorem soundFrom (len : p.slotBytes % 2 ^ p.dmaLenWidth = p.slotBytes)
    (lone : p.slotCount = 1 → 2 ^ p.ramAddrWidth ≤ p.slotBytes)
    (filled : ∀ k ≤ p.slotCount, p.Placed 0 (Rings.cell p.cells 0 k) k) : p.Sound := by
  refine ⟨len ▸ Nat.mod_lt _ (Nat.two_pow_pos _),?_⟩
  by_cases single : p.slotCount = 1
  · rw [if_pos single]
    exact lone single
  · rw [if_neg single]
    by_contra wide
    obtain ⟨k,some,inside,shared⟩ := slotShared single (Nat.lt_of_not_le wide)
    have apart := (filled k (Nat.le_of_lt inside)).writable inside 0 some
    rw [cellsMany single,Rings.cellZero (by omega),Rings.cell,Nat.zero_add,Nat.mod_eq_of_lt inside] at apart
    exact shared apart

end Placing

end CommitBuffer.Parameters

namespace CommitBuffer

variable {w : Nat} (p : Parameters w) (always : Bool) (b : CommitBuffer w)

/- `always` also counts the addresses of cycles in which they are not in use: that of the head
slot while there is none, and that of a row while the ring is full. -/
structure Represented : Prop extends p.Placed b.headPtr b.tailPtr b.slotCount where
  addr : always = true ∨ headSlotValid b = true → headSlotAddr p b + p.slotBytes ≤ p.ramBytes
  row : always = true ∨ bufferFull p b = false →
    (rowAddr p b.tailPtr b.writeBeatIndex + 1) * w ≤ p.ramBytes
  len : headSlotLen p = p.slotBytes

-- Any inputs in any cycle, from any contents of the RAM.
def ring : System (CommitBuffer w) (Inputs w) where
  start b := b = {ram := b.ram}
  step b x b' := b' = next p b x

section Represented

variable {p always b} {moves : List (Move (CommitBuffer w) (Inputs w))} {k : Nat}

theorem ranRing (ran : Ran (ring p) moves b) : Ring p b := by
  have fresh (ram : Nat → BitVec (8 * w)) : Ring p {ram := ram} := by
    have start := @ringStart w p
    exact ⟨start.head,start.tail,start.bound,start.index,start.full⟩
  refine Runs.ranInvariant ?_ ?_ ran
  · intro b start
    rw [start]
    exact fresh b.ram
  · intro b x b' before step
    rw [step]
    cases quiet : x.rst with
    | true =>
      rw [next,if_pos quiet]
      exact fresh _
    | false => exact ringNext before quiet

theorem represented (sound : p.Sound) (ran : Ran (ring p) moves b) : Represented p always b := by
  have ring := ranRing ran
  have inside : b.tailPtr < p.cells := by
    rw [ring.tail]
    exact Rings.cellBound (Nat.two_pow_pos _)
  refine ⟨Parameters.placed sound ring.tail ring.bound,?_,?_,Nat.mod_eq_of_lt sound.1⟩
  · intro _
    exact Parameters.slotInside sound ring.head
  · intro _
    rw [rowAddrRow]
    exact Parameters.rowInside sound inside ring.index

/- Beats fill the slots one after the other, as long as there is room. -/
theorem ranFilled (p : Parameters w) (k : Nat) (room : k ≤ p.slotCount * p.beatCount) :
    ∃ moves b, Ran (ring p) moves b ∧ b.headPtr = 0 ∧ b.slotCount * p.beatCount + b.writeBeatIndex = k := by
  induction k with
  | zero => exact ⟨[],{},.start rfl,rfl,Nat.zero_mul _⟩
  | succ k ih =>
    obtain ⟨moves,b,ran,head,total⟩ := ih (by omega)
    have ring := ranRing ran
    have few : b.slotCount < p.slotCount :=
      Nat.lt_of_mul_lt_mul_right (a := p.beatCount) (by omega)
    refine ⟨_,next p b {inValid := true},.move ran rfl,?_,?_⟩
    · simp [next,headSlotPopFire,head]
    · have fire : commitInFire p b {inValid := true} = true := by
        simp [commitInFire,commitInReady,bufferFull]
        omega
      have count := slotCountStep (x := {inValid := true}) ring
      have kept : headSlotPopFire b {inValid := true} = false := by simp [headSlotPopFire]
      change slotCountNext p b _ * p.beatCount + writeBeatIndexNext p b _ = k + 1
      rw [kept] at count
      cases push : tailSlotPushFire p b {inValid := true} with
      | true =>
        obtain ⟨_,whole⟩ := pushIndex push
        rw [push] at count
        have more : slotCountNext p b {inValid := true} = b.slotCount + 1 := by simpa using count
        rw [indexRestarts push,more,Nat.add_mul]
        omega
      | false =>
        rw [push] at count
        have same : slotCountNext p b {inValid := true} = b.slotCount := by simpa using count
        rw [indexGrows ring push,fire,same,if_pos rfl]
        omega

theorem ranSlots (room : k ≤ p.slotCount) :
    ∃ moves b, Ran (ring p) moves b ∧ b.headPtr = 0 ∧ b.slotCount = k := by
  obtain ⟨moves,b,ran,head,total⟩ := ranFilled p (k * p.beatCount) (Nat.mul_le_mul_right _ room)
  have index := (ranRing ran).index
  refine ⟨moves,b,ran,head,?_⟩
  have slots := congrArg (· / p.beatCount) total
  simpa [Nat.mul_comm _ p.beatCount,Nat.mul_add_div p.someBeats,Nat.div_eq_of_lt index,
    Nat.mul_div_cancel_left _ p.someBeats] using slots

theorem ranPopped (single : p.slotCount = 1) :
    ∃ moves b, Ran (ring p) moves b ∧ b.slotCount = 0 ∧ b.tailPtr = 1 ∧ b.writeBeatIndex = 0 := by
  obtain ⟨moves,b,ran,head,count⟩ := @ranSlots w p 1 (by omega)
  have ring := ranRing ran
  have whole := ring.full (count.trans single.symm)
  have popped : Ran (CommitBuffer.ring p) _ (next p b {popValid := true}) := .move ran rfl
  have pop : headSlotPopFire b {popValid := true} = true := by simp [headSlotPopFire,bufferEmpty,count]
  have push : tailSlotPushFire p b {popValid := true} = false := by simp [tailSlotPushFire,commitInFire]
  have none : (next p b {popValid := true}).slotCount = 0 := by
    have step := slotCountStep (x := {popValid := true}) ring
    rw [pop,push] at step
    change slotCountNext p b _ = 0
    simp only [if_true,Bool.false_eq_true,if_false] at step
    omega
  have first : (next p b {popValid := true}).headPtr = 1 := by
    simp [next,headSlotPopFire,bufferEmpty,count,head,Parameters.cellsSingle single]
  refine ⟨_,_,popped,none,?_,?_⟩
  · rw [(ranRing popped).tail,first,none,Parameters.cellsSingle single]
    rfl
  · simp [next,writeBeatIndexNext,commitInFire,whole]

theorem soundOf (all : ∀ moves b, Ran (ring p) moves b → Represented p always b) : p.Sound := by
  refine Parameters.soundFrom (all [] {} (.start rfl)).len ?_ ?_
  · intro single
    obtain ⟨moves,b,ran,none,tail,index⟩ := ranPopped single
    have row := (all moves b ran).row (Or.inr (by simp [bufferFull,none,single]))
    rw [tail,index,rowAddrRow] at row
    exact Nat.le_of_not_lt (fun wide => Parameters.rowBeyond single wide row)
  · intro k room
    obtain ⟨moves,b,ran,head,count⟩ := ranSlots room
    have placed := (all moves b ran).toPlaced
    rwa [(ranRing ran).tail,head,count] at placed

end Represented

end CommitBuffer

namespace ProposalBuffer

variable {w : Nat} (p : CommitBuffer.Parameters w) (always : Bool) (b : ProposalBuffer w) (x : Inputs w)

/- `always` also counts the addresses of cycles in which they are not in use: that of the tail
slot while the ring is full, and that of a read while none is asked for. -/
structure Represented : Prop extends p.Placed b.headPtr b.tailPtr b.slotCount where
  addr : always = true ∨ tailSlotValid p b = true → tailSlotAddr p b + p.slotBytes ≤ p.ramBytes
  row : always = true ∨ b.ramRdCmdValid = true → (b.ramRdCmdAddr + 1) * w ≤ p.ramBytes
  len : txLen p = p.slotBytes
  descriptor : ∀ q : ProposalDmaReader.Parameters, q.proposalSlotBytes = p.slotBytes →
    q.dmaLenWidth = p.dmaLenWidth → ∀ s y, (ProposalDmaReader.launched q s y).len = p.slotBytes

def ring : System (ProposalBuffer w) (Inputs w) where
  start b := b = {ram := b.ram}
  step b x b' := b' = next p b x

-- The state without what it has from the RAM, and the cycle without what enters the RAM.
def blind : ProposalBuffer w :=
  {b with rdData := 0, reads := b.reads.map (fun _ => 0), ram := fun _ => 0}
def Inputs.blind : Inputs w := {x with ramWrites := []}

section Represented

variable {p always b x} {moves : List (Move (ProposalBuffer w) (Inputs w))} {k : Nat}

theorem blindResponse : ramRdRespFire (blind b) x.blind = ramRdRespFire b x := by
  have empty : (blind b).reads.isEmpty = b.reads.isEmpty := List.isEmpty_map
  rw [ramRdRespFire,ramRdRespValid,empty]
  rfl

theorem blindReads : (readsNext b x).map (fun _ => (0 : BitVec (8 * w))) = readsNext (blind b) x.blind := by
  have command : ramRdCmdFire (blind b) x.blind = ramRdCmdFire b x := rfl
  rw [readsNext,readsNext,command,blindResponse,List.map_append]
  refine congrArg₂ (· ++ ·) ?_ ?_
  · cases ramRdRespFire b x with
    | true => exact List.map_tail
    | false => rfl
  · cases ramRdCmdFire b x with
    | true => rfl
    | false => rfl

theorem blindTx : blind (txNext p b x) = txNext p (blind b) x.blind := by
  cases state : b.txState with
  | idle =>
    have state' : (blind b).txState = .idle := state
    have same : (blind b).bufferEmpty = b.bufferEmpty := rfl
    simp only [txNext,state,state',same]
    cases b.bufferEmpty with
    | true => rfl
    | false => rfl
  | readCmd =>
    have state' : (blind b).txState = .readCmd := state
    have same : ramRdCmdFire (blind b) x.blind = ramRdCmdFire b x := rfl
    simp only [txNext,state,state',same]
    cases ramRdCmdFire b x with
    | true => rfl
    | false => rfl
  | readResp =>
    have state' : (blind b).txState = .readResp := state
    have first : (blind b).reads.headD 0 = 0 := by
      rw [blind]
      cases b.reads with
      | nil => rfl
      | cons read rest => rfl
    simp only [txNext,state,state',first,blindResponse]
    cases ramRdRespFire b x with
    | true => rfl
    | false => rfl
  | output =>
    have state' : (blind b).txState = .output := state
    have same : ((blind b).rdValid && x.blind.rdReady) = (b.rdValid && x.rdReady) := rfl
    have last : (blind b).txLast = b.txLast := rfl
    simp only [txNext,state,state',same,last]
    cases b.rdValid && x.rdReady with
    | true =>
      cases b.txLast with
      | true => rfl
      | false => rfl
    | false => rfl

theorem blindNext : blind (next p b x) = next p (blind b) x.blind := by
  have reads := @blindReads w b x
  have engine := @blindTx w p b x
  have same : x.blind.rst = x.rst := rfl
  simp only [next,same]
  cases x.rst with
  | true => rfl
  | false =>
    simp only [Bool.false_eq_true,if_false,← engine,← reads]
    rfl

theorem ranBlind (ran : Ran (ring p) moves b) : Ring p b ∧ Streams p (blind b) := by
  have fresh (ram : Nat → BitVec (8 * w)) :
      Ring p {ram := ram} ∧ Streams p (blind {ram := ram}) :=
    ⟨⟨Nat.two_pow_pos _,(Rings.cellZero (Nat.two_pow_pos _)).symm,Nat.zero_le _⟩,
      Streams.idle rfl rfl rfl rfl rfl⟩
  induction ran with
  | start first =>
    rw [first]
    exact fresh _
  | @move moves b x b' before step ih =>
    obtain ⟨ring,streams⟩ := ih
    have ring' : Ring p (blind b) := ⟨ring.head,ring.tail,ring.bound⟩
    rw [step]
    cases quiet : x.rst with
    | true =>
      rw [next,if_pos quiet]
      exact fresh _
    | false =>
      have later : Ring p (blind (next p b x)) := by
        rw [blindNext]
        exact ringNext ring' streams quiet
      refine ⟨⟨later.head,later.tail,later.bound⟩,?_⟩
      rw [blindNext]
      exact streamsNext ring' streams quiet (fun _ _ _ _ => rfl)

theorem tailInside (ring : Ring p b) : b.tailPtr < p.cells := by
  rw [ring.tail]
  exact Rings.cellBound (Nat.two_pow_pos _)

theorem commandRow (ring : Ring p b) (streams : Streams p (blind b)) (sound : p.Sound)
    (asked : b.ramRdCmdValid = true) : (b.ramRdCmdAddr + 1) * w ≤ p.ramBytes := by
  cases streams with
  | idle state index valid command reads => cases command.symm.trans asked
  | asks state queued index valid command reads addr =>
    change b.ramRdCmdAddr = _ at addr
    rw [addr]
    exact CommitBuffer.Parameters.rowInside sound ring.head index
  | fetches state queued index valid command reads => cases command.symm.trans asked
  | offers state queued index valid command reads data last =>
    cases command.symm.trans asked

theorem commandKept (quiet : x.rst = false) (unasked : (next p b x).ramRdCmdValid = false) :
    (next p b x).ramRdCmdAddr = b.ramRdCmdAddr := by
  have alive : ¬ x.rst = true := by simp [quiet]
  rw [next,if_neg alive] at unasked ⊢
  change (txNext p b x).ramRdCmdValid = false at unasked
  change (txNext p b x).ramRdCmdAddr = b.ramRdCmdAddr
  cases state : b.txState with
  | idle =>
    cases empty : b.bufferEmpty with
    | true => simp [txNext,state,empty]
    | false => simp [txNext,state,empty] at unasked
  | readCmd =>
    cases fire : ramRdCmdFire b x with
    | true => simp [txNext,state,fire]
    | false => simp [txNext,state,fire]
  | readResp =>
    cases fire : ramRdRespFire b x with
    | true => simp [txNext,state,fire]
    | false => simp [txNext,state,fire]
  | output =>
    cases took : b.rdValid && x.rdReady with
    | true =>
      cases last : b.txLast with
      | true => simp [txNext,state,took,last]
      | false => simp [txNext,state,took,last] at unasked
    | false => simp [txNext,state,took]

theorem ranRow (sound : p.Sound) (ran : Ran (ring p) moves b) : (b.ramRdCmdAddr + 1) * w ≤ p.ramBytes := by
  have first : (0 + 1) * w ≤ p.ramBytes :=
    CommitBuffer.Parameters.rowBytes (Nat.mul_pos (Nat.pos_of_ne_zero p.populated) p.someBeats)
  induction ran with
  | start fresh =>
    rw [fresh]
    exact first
  | @move moves b x b' before step ih =>
    obtain ⟨ring',streams⟩ := ranBlind (.move before step)
    change b' = next p b x at step
    subst step
    cases quiet : x.rst with
    | true =>
      rw [next,if_pos quiet]
      exact first
    | false =>
      cases asked : (next p b x).ramRdCmdValid with
      | true => exact commandRow ring' streams sound asked
      | false =>
        rw [commandKept quiet asked]
        exact ih

theorem represented (sound : p.Sound) (ran : Ran (ring p) moves b) : Represented p always b := by
  obtain ⟨ring,_⟩ := ranBlind ran
  refine ⟨CommitBuffer.Parameters.placed sound ring.tail ring.bound,?_,?_,Nat.mod_eq_of_lt sound.1,?_⟩
  · intro _
    exact CommitBuffer.Parameters.slotInside sound (tailInside ring)
  · intro _
    exact ranRow sound ran
  · intro q slots width s y
    change q.proposalSlotBytes % 2 ^ q.dmaLenWidth = p.slotBytes
    rw [slots,width]
    exact Nat.mod_eq_of_lt sound.1

theorem ranSlots (room : k ≤ p.slotCount) :
    ∃ moves b, Ran (ring p) moves b ∧ b.headPtr = 0 ∧ b.slotCount = k := by
  induction k with
  | zero => exact ⟨[],{},.start rfl,rfl,rfl⟩
  | succ k ih =>
    obtain ⟨moves,b,ran,head,count⟩ := ih (by omega)
    have fire : tailCommitFire p b {tailSlotCommit := true} = true := by
      simp [tailCommitFire,bufferFull,count]
      omega
    have pop : headPopFire b {tailSlotCommit := true} = false := by simp [headPopFire]
    have wide := p.countFits
    refine ⟨_,next p b {tailSlotCommit := true},.move ran rfl,?_,?_⟩
    · simp [next,pop,head]
    · change slotCountNext p b _ = k + 1
      rw [slotCountNext,fire,pop,count]
      exact Nat.mod_eq_of_lt (by omega)

/- The cycles until the head slot has been read out, where nothing makes the engine wait. -/
def remaining (p : CommitBuffer.Parameters w) (b : ProposalBuffer w) : Nat :=
  match b.txState with
  | .idle => 3 * p.beatCount + 1
  | .readCmd => 3 * (p.beatCount - b.txBeatIndex)
  | .readResp => 3 * (p.beatCount - b.txBeatIndex) - 1
  | .output => 3 * (p.beatCount - b.txBeatIndex) - 2

theorem remainingShrinks (streams : Streams p (blind b)) (some : 0 < b.slotCount)
    (pop : headPopFire b {rdReady := true} = false) :
    remaining p (next p b {rdReady := true}) < remaining p b := by
  cases streams with
  | idle state index valid command reads =>
    change b.txState = .idle at state
    have empty : b.bufferEmpty = false := by
      simp [bufferEmpty]
      omega
    have state' : (next p b {rdReady := true}).txState = .readCmd := by simp [next,txNext,state,empty]
    simp only [remaining,state,state']
    omega
  | asks state queued index valid command reads addr =>
    change b.txState = .readCmd at state
    change b.txBeatIndex < p.beatCount at index
    change b.ramRdCmdValid = true at command
    have state' : (next p b {rdReady := true}).txState = .readResp := by
      simp [next,txNext,state,ramRdCmdFire,command]
    have index' : (next p b {rdReady := true}).txBeatIndex = b.txBeatIndex := by
      simp [next,txNext,state,ramRdCmdFire,command]
    simp only [remaining,state,state',index']
    omega
  | fetches state queued index valid command reads =>
    change b.txState = .readResp at state
    change b.txBeatIndex < p.beatCount at index
    have fire : ramRdRespFire b {rdReady := true} = true := by
      rw [← blindResponse,ramRdRespFire,ramRdRespValid,reads]
      simp [Inputs.blind,blind,state]
    have state' : (next p b {rdReady := true}).txState = .output := by simp [next,txNext,state,fire]
    have index' : (next p b {rdReady := true}).txBeatIndex = b.txBeatIndex := by
      simp [next,txNext,state,fire]
    simp only [remaining,state,state',index']
    omega
  | offers state queued index valid command reads data last =>
    change b.txState = .output at state
    change b.txBeatIndex < p.beatCount at index
    change b.rdValid = true at valid
    change b.txLast = decide (b.txBeatIndex = p.lastBeatIndex) at last
    have more : b.txLast = false := by simpa [headPopFire,valid] using pop
    have wide := indexWide p
    have ahead : b.txBeatIndex ≠ p.lastBeatIndex := by
      rw [more] at last
      simpa using last.symm
    rw [CommitBuffer.Parameters.lastBeatIndex] at ahead
    have state' : (next p b {rdReady := true}).txState = .readCmd := by
      simp [next,txNext,state,valid,more]
    have index' : (next p b {rdReady := true}).txBeatIndex = b.txBeatIndex + 1 := by
      simp only [next,txNext,state,valid,more,Bool.false_eq_true,if_false,if_true,Bool.and_self]
      exact Nat.mod_eq_of_lt (by omega)
    simp only [remaining,state,state',index']
    omega

theorem ranDrained (ran : Ran (ring p) moves b) (single : p.slotCount = 1) (count : b.slotCount = 1)
    (head : b.headPtr = 0) (bound : remaining p b < k) :
    ∃ moves b, Ran (ring p) moves b ∧ b.headPtr = 1 ∧ b.slotCount = 0 := by
  induction k generalizing moves b with
  | zero => omega
  | succ k ih =>
    obtain ⟨ring,streams⟩ := ranBlind ran
    have fire : tailCommitFire p b {rdReady := true} = false := by simp [tailCommitFire]
    have onwards : Ran (ProposalBuffer.ring p) _ (next p b {rdReady := true}) := .move ran rfl
    cases pop : headPopFire b {rdReady := true} with
    | true =>
      refine ⟨_,_,onwards,?_,?_⟩
      · simp [next,pop,head,CommitBuffer.Parameters.cellsSingle single]
      · change slotCountNext p b _ = 0
        rw [slotCountNext,fire,pop,count]
        change (1 + 2 ^ p.countWidth - 1) % 2 ^ p.countWidth = 0
        rw [Nat.add_sub_cancel_left,Nat.mod_self]
    | false =>
      have shrinks := remainingShrinks streams (by omega) pop
      refine ih onwards ?_ ?_ (by omega)
      · change slotCountNext p b _ = 1
        rw [slotCountNext,fire,pop,count]
      · simp [next,pop,head]

theorem soundOf (all : ∀ moves b, Ran (ring p) moves b → Represented p always b) : p.Sound := by
  refine CommitBuffer.Parameters.soundFrom (all [] {} (.start rfl)).len ?_ ?_
  · intro single
    obtain ⟨moves,b,ran,head,count⟩ := @ranSlots w p 1 (by omega)
    obtain ⟨_,b,ran,head,none⟩ := ranDrained ran single count head (Nat.lt_succ_self _)
    have tail : b.tailPtr = 1 := by
      rw [(ranBlind ran).1.tail,head,none,CommitBuffer.Parameters.cellsSingle single]
      rfl
    have addr := (all _ b ran).addr (Or.inr (by simp [tailSlotValid,bufferFull,none,single]))
    rw [tailSlotAddr,tail] at addr
    exact Nat.le_of_not_lt (fun wide => CommitBuffer.Parameters.singleBeyond single wide addr)
  · intro k room
    obtain ⟨moves,b,ran,head,count⟩ := ranSlots room
    have placed := (all moves b ran).toPlaced
    rwa [(ranBlind ran).1.tail,head,count] at placed

end Represented

-- What remains to be wished of a geometry that this buffer's own checks accept.
theorem Parameters.soundChecked (q : Parameters w) : q.Sound ↔
    q.slotBytes ≠ 2 ^ q.dmaLenWidth ∧ (1 < q.slotCount ∨ q.slotBytes = 2 ^ q.ramAddrWidth) := by
  have fits := q.fits
  have expressible := q.expressible
  have some := q.populated
  rw [CommitBuffer.Parameters.Sound,CommitBuffer.Parameters.ramBytes]
  by_cases single : q.slotCount = 1
  · rw [single,Nat.mul_one] at fits
    rw [if_pos single]
    omega
  · rw [if_neg single]
    omega

end ProposalBuffer

/- Both rings, in every geometry: the registers describe the slots over all runs if and only if
the geometry is sound. The checks accept others as well. -/
theorem CommitBuffer.Parameters.soundRings {w : Nat} (p : CommitBuffer.Parameters w) (always : Bool) :
    ((∀ moves b, Ran (CommitBuffer.ring p) moves b → CommitBuffer.Represented p always b) ↔ p.Sound) ∧
    ((∀ moves b, Ran (ProposalBuffer.ring p) moves b → ProposalBuffer.Represented p always b) ↔ p.Sound) := by
  refine ⟨⟨CommitBuffer.soundOf,?_⟩,⟨ProposalBuffer.soundOf,?_⟩⟩
  · intro sound moves b ran
    exact CommitBuffer.represented sound ran
  · intro sound moves b ran
    exact ProposalBuffer.represented sound ran

namespace ProposalBuffer

-- Slots as long as the length register counts, and a ring of one slot.
def longSlots : Parameters 64 :=
  { slotBytes := 65536, slotCount := 2, ramAddrWidth := 17, sized := by decide, whole := by decide,
    binary := by decide, populated := CommitBuffer.Parameters.twoPopulated,
    round := CommitBuffer.Parameters.twoRound, fits := by decide, expressible := by decide,
    pointed := by decide }

def loneSlot : Parameters 64 :=
  { slotBytes := 128, slotCount := 1, sized := by decide, whole := by decide, binary := by decide,
    populated := CommitBuffer.Parameters.onePopulated, round := CommitBuffer.Parameters.oneRound,
    fits := by decide, expressible := by decide, pointed := by decide }

theorem checksTooWeak :
    (∃ moves b, Ran (ring longSlots.toParameters) moves b ∧ ¬ Represented longSlots.toParameters false b) ∧
    (∃ moves b, Ran (ring loneSlot.toParameters) moves b ∧ ¬ Represented loneSlot.toParameters false b) ∧
    ∃ moves b, Ran (CommitBuffer.ring longSlots.toParameters) moves b ∧
      ¬ CommitBuffer.Represented longSlots.toParameters false b := by
  refine ⟨⟨[],{},.start rfl,?_⟩,?_,⟨[],{},.start rfl,?_⟩⟩
  · intro represented
    exact absurd represented.len (by decide)
  · have value : (record (fun b x => (.ok (next loneSlot.toParameters b x) : Except Unit (ProposalBuffer 64)))
        ({tailSlotCommit := true} :: List.replicate 7 {rdReady := true}) {}).toOption.map
          (fun r => decide (tailSlotValid loneSlot.toParameters r.2 = true ∧ tailSlotAddr loneSlot.toParameters r.2 = 128)) =
        some true := by decide +kernel
    obtain ⟨⟨moves,b⟩,done,found⟩ := okFound value
    obtain ⟨writable,beyond⟩ := of_decide_eq_true found
    refine ⟨moves,b,recordTotal (fun _ _ => rfl) ?_ done,?_⟩
    · rfl
    · intro represented
      have addr := represented.addr (Or.inr writable)
      rw [beyond] at addr
      exact absurd addr (by decide)
  · intro represented
    exact absurd represented.len (by decide)

end ProposalBuffer

end Syncons
