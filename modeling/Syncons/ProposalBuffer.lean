import Syncons.CommitBuffer

/-! The proposal buffer: a ring of fixed-size slots that the DMA engine fills through the slot
RAM, and whose head slot is read back beat by beat for the transmit engine. -/
namespace Syncons
open BitFields (byteAt writeBytes byteWritten bytesEq)

-- One write of the DMA engine to a row of the RAM; a segment enables its own bytes only.
structure RamWrite (w : Nat) where
  addr : Nat
  be : BitVec w
  data : BitVec (8 * w)

inductive SlotReadState where
  | idle | readCmd | readResp | output
  deriving DecidableEq, Repr

-- `reads` are the commands that the RAM has accepted and not yet answered, as the data it found.
structure ProposalBuffer (w : Nat) where
  headPtr : Nat := 0
  tailPtr : Nat := 0
  slotCount : Nat := 0
  txState : SlotReadState := .idle
  txBeatIndex : Nat := 0
  rdData : BitVec (8 * w) := 0
  rdBe : BitVec w := 0
  rdValid : Bool := false
  txLast : Bool := false
  ramRdCmdAddr : Nat := 0
  ramRdCmdValid : Bool := false
  reads : List (BitVec (8 * w)) := []
  ram : Nat → BitVec (8 * w) := fun _ => 0

-- A stream of beats cut after every last one: the complete slots, and the beats of the next.
structure Gathered (α : Type) where
  slots : List (List α) := []
  part : List α := []

namespace Gathered
variable {α : Type}

def add (g : Gathered α) (beat : α × Bool) : Gathered α :=
  if beat.2 then ⟨g.slots ++ [g.part ++ [beat.1]],[]⟩ else {g with part := g.part ++ [beat.1]}

def ofBeats (beats : List (α × Bool)) : Gathered α := beats.foldl add {}

end Gathered

namespace ProposalBuffer

-- The slots lie in the RAM as those of the commit buffer do; the last three checks are new.
structure Parameters (w : Nat) extends CommitBuffer.Parameters w where
  fits : slotBytes * slotCount ≤ 2 ^ ramAddrWidth
  expressible : slotBytes ≤ 2 ^ dmaLenWidth
  pointed : toParameters.ptrWidth ≤ ramAddrWidth

-- The ring works on the geometry; what the checks make of it is for the proofs.
instance {w : Nat} : Coe (Parameters w) (CommitBuffer.Parameters w) := ⟨Parameters.toParameters⟩

/- `ramCmdReady` and `ramServes` are the read side of the RAM: whether it takes a command in
this cycle, and whether it has the data of the oldest one. -/
structure Inputs (w : Nat) where
  rst : Bool := false
  tailSlotCommit : Bool := false
  ramWrites : List (RamWrite w) := []
  rdReady : Bool := false
  ramCmdReady : Bool := true
  ramServes : Bool := true

variable {w : Nat} (p : CommitBuffer.Parameters w) (b : ProposalBuffer w) (x : Inputs w)

def bufferEmpty : Bool := b.slotCount = 0
def bufferFull : Bool := b.slotCount = p.slotCount

def tailSlotValid : Bool := !bufferFull p b
def tailSlotAddr : Nat := (b.tailPtr <<< Nat.clog 2 p.slotBytes) % 2 ^ p.ramAddrWidth
def txLen : Nat := p.slotBytes % 2 ^ p.dmaLenWidth

def txHeadSlotRamAddr : Nat := b.headPtr * p.beatCount % 2 ^ p.rowAddrWidth
def txCurrentRdAddr : Nat := (txHeadSlotRamAddr p b + b.txBeatIndex) % 2 ^ p.rowAddrWidth
def txNextRdAddr : Nat := (txHeadSlotRamAddr p b + b.txBeatIndex + 1) % 2 ^ p.rowAddrWidth

def tailCommitFire : Bool := x.tailSlotCommit && !bufferFull p b
def headPopFire : Bool := b.rdValid && x.rdReady && b.txLast

def ramRdCmdFire : Bool := b.ramRdCmdValid && x.ramCmdReady
def ramRdRespValid : Bool := x.ramServes && !b.reads.isEmpty
def ramRdRespFire : Bool := ramRdRespValid b x && b.txState = .readResp

def slotCountNext : Nat :=
  match tailCommitFire p b x,headPopFire b x with
  | false,true => (b.slotCount + 2 ^ p.countWidth - 1) % 2 ^ p.countWidth
  | true,false => (b.slotCount + 1) % 2 ^ p.countWidth
  | _,_ => b.slotCount

def txNext : ProposalBuffer w :=
  match b.txState with
  | .idle =>
    let b' := {b with txBeatIndex := 0, rdValid := false, txLast := false}
    if b.bufferEmpty then b'
    else {b' with ramRdCmdAddr := txCurrentRdAddr p b, ramRdCmdValid := true, txState := .readCmd}
  | .readCmd =>
    if ramRdCmdFire b x then {b with ramRdCmdValid := false, txState := .readResp} else b
  | .readResp =>
    if ramRdRespFire b x then
      { b with
        rdData := b.reads.headD 0
        rdBe := BitVec.allOnes w
        rdValid := true
        txLast := b.txBeatIndex = p.lastBeatIndex
        txState := .output }
    else b
  | .output =>
    if b.rdValid && x.rdReady then
      if b.txLast then {b with rdValid := false, txBeatIndex := 0, txState := .idle}
      else
        { b with
          rdValid := false
          txBeatIndex := (b.txBeatIndex + 1) % 2 ^ p.beatIndexWidth
          ramRdCmdAddr := txNextRdAddr p b
          ramRdCmdValid := true
          txState := .readCmd }
    else b

def readsNext : List (BitVec (8 * w)) :=
  (if ramRdRespFire b x then b.reads.tail else b.reads) ++
    if ramRdCmdFire b x then [b.ram b.ramRdCmdAddr] else []

def ramNext : Nat → BitVec (8 * w) :=
  x.ramWrites.foldl
    (fun ram c => Function.update ram c.addr (writeBytes c.be c.data (ram c.addr))) b.ram

-- A reset clears the registers and leaves the RAM.
def next : ProposalBuffer w :=
  if x.rst then {ram := ramNext b x}
  else
    { txNext p b x with
      headPtr := if headPopFire b x then (b.headPtr + 1) % p.cells else b.headPtr
      tailPtr := if tailCommitFire p b x then (b.tailPtr + 1) % p.cells else b.tailPtr
      slotCount := slotCountNext p b x
      reads := readsNext b x
      ram := ramNext b x }

def slotRows (ram : Nat → BitVec (8 * w)) (ptr : Nat) : List (BitVec (8 * w)) :=
  Rings.slot p.beatCount (2 ^ p.rowAddrWidth) ram ptr

-- The slots that are queued for transmission, and what has already been sent of the first.
def held : List (List (BitVec (8 * w))) := Rings.queue p.cells b.headPtr b.slotCount (slotRows p b.ram)
def begun : List (BitVec (8 * w)) := (slotRows p b.ram b.headPtr).take b.txBeatIndex

def streamed : Option (BitVec (8 * w) × Bool) :=
  if b.rdValid && x.rdReady then some (b.rdData,b.txLast) else none

def popped : Option (List (BitVec (8 * w))) :=
  if headPopFire b x then some (slotRows p b.ram b.headPtr) else none

def entered : Option (List (BitVec (8 * w))) :=
  if tailCommitFire p b x then some (slotRows p b.ram b.tailPtr) else none

structure Ring : Prop where
  head : b.headPtr < p.cells
  tail : b.tailPtr = Rings.cell p.cells b.headPtr b.slotCount
  bound : b.slotCount ≤ p.slotCount

def current : BitVec (8 * w) :=
  b.ram (Rings.row p.beatCount (2 ^ p.rowAddrWidth) b.headPtr b.txBeatIndex)

-- What the registers of the read engine hold in each of its states.
inductive Streams : Prop where
  | idle (state : b.txState = .idle) (index : b.txBeatIndex = 0) (valid : b.rdValid = false)
      (command : b.ramRdCmdValid = false) (reads : b.reads = [])
  | asks (state : b.txState = .readCmd) (queued : 0 < b.slotCount) (index : b.txBeatIndex < p.beatCount)
      (valid : b.rdValid = false) (command : b.ramRdCmdValid = true) (reads : b.reads = [])
      (addr : b.ramRdCmdAddr = Rings.row p.beatCount (2 ^ p.rowAddrWidth) b.headPtr b.txBeatIndex)
  | fetches (state : b.txState = .readResp) (queued : 0 < b.slotCount)
      (index : b.txBeatIndex < p.beatCount) (valid : b.rdValid = false)
      (command : b.ramRdCmdValid = false) (reads : b.reads = [current p b])
  | offers (state : b.txState = .output) (queued : 0 < b.slotCount) (index : b.txBeatIndex < p.beatCount)
      (valid : b.rdValid = true) (command : b.ramRdCmdValid = false) (reads : b.reads = [])
      (data : b.rdData = current p b) (last : b.txLast = decide (b.txBeatIndex = p.lastBeatIndex))

def Spared (c : Nat) : Prop :=
  ∀ j < p.beatCount, ramNext b x (Rings.row p.beatCount (2 ^ p.rowAddrWidth) c j) =
    b.ram (Rings.row p.beatCount (2 ^ p.rowAddrWidth) c j)

section Ring

variable {p : CommitBuffer.Parameters w} {b : ProposalBuffer w} {x : Inputs w} {c : Nat}

theorem commitRoom (ring : Ring p b) (fire : tailCommitFire p b x = true) : b.slotCount < p.slotCount := by
  simp only [tailCommitFire,bufferFull,Bool.and_eq_true,Bool.not_eq_true',decide_eq_false_iff_not] at fire
  have bound := ring.bound
  omega

theorem popFacts (streams : Streams p b) (pop : headPopFire b x = true) :
    0 < b.slotCount ∧ b.txState = .output := by
  simp only [headPopFire,Bool.and_eq_true] at pop
  obtain ⟨⟨offered,_⟩,_⟩ := pop
  cases streams with
  | idle state index valid command reads => cases valid.symm.trans offered
  | asks state queued index valid command reads addr => cases valid.symm.trans offered
  | fetches state queued index valid command reads => cases valid.symm.trans offered
  | offers state queued index valid command reads data last => exact ⟨queued,state⟩

theorem slotCountStep (ring : Ring p b) (streams : Streams p b) :
    slotCountNext p b x + (if headPopFire b x then 1 else 0) =
      b.slotCount + if tailCommitFire p b x then 1 else 0 :=
  Rings.countStep ring.bound p.countFits (commitRoom ring) (fun pop => (popFacts streams pop).1)

theorem ringNext (ring : Ring p b) (streams : Streams p b) (quiet : x.rst = false) :
    Ring p (next p b x) := by
  have count := slotCountStep (x := x) ring streams
  have alive : ¬ x.rst = true := by simp [quiet]
  rw [next,if_neg alive]
  refine ⟨Rings.headStep ring.head,?_,?_⟩
  · exact (Rings.tailStep ring.tail).trans (Rings.cellStep count)
  · exact Rings.countBelow count ring.bound (commitRoom ring)

theorem heldNext (ring : Ring p b) (streams : Streams p b) (quiet : x.rst = false)
    (spared : ∀ i < b.slotCount, Spared p b x (Rings.cell p.cells b.headPtr i))
    (kept : tailCommitFire p b x = true → Spared p b x b.tailPtr) :
    (popped p b x).toList ++ held p (next p b x) = held p b ++ (entered p b x).toList := by
  have alive : ¬ x.rst = true := by simp [quiet]
  have same : Rings.queue p.cells b.headPtr b.slotCount (slotRows p (ramNext b x)) = held p b :=
    Rings.queueSame (fun i queued => Rings.slotSame (spared i queued))
  have pops : popped p b x =
      if headPopFire b x then some (slotRows p (ramNext b x) b.headPtr) else none := by
    cases pop : headPopFire b x with
    | false => simp [popped,pop]
    | true =>
      have first := spared 0 (popFacts streams pop).1
      rw [Rings.cellZero ring.head] at first
      simp only [popped,pop,if_true]
      exact congrArg some (Rings.slotSame first).symm
  have later : held p (next p b x) = Rings.queue p.cells
      (if headPopFire b x then (b.headPtr + 1) % p.cells else b.headPtr) (slotCountNext p b x)
      (slotRows p (ramNext b x)) := by
    rw [held,next,if_neg alive]
  rw [pops,later,Rings.queueStep ring.head (slotCountStep ring streams)]
  cases push : tailCommitFire p b x with
  | false => simpa [entered,push] using same
  | true =>
    have tail : slotRows p (ramNext b x) b.tailPtr = slotRows p b.ram b.tailPtr :=
      Rings.slotSame (kept push)
    rw [if_pos rfl,Rings.queueSnoc,same,← ring.tail,tail,entered,if_pos push]
    rfl

end Ring

section Streaming

variable {p : CommitBuffer.Parameters w} {b : ProposalBuffer w} {x : Inputs w}

structure Stays (p : CommitBuffer.Parameters w) (b : ProposalBuffer w) (x : Inputs w) : Prop where
  head : (next p b x).headPtr = b.headPtr
  queued : b.slotCount ≤ (next p b x).slotCount
  spared : Spared p b x b.headPtr

theorem current_of (stays : Stays p b x) (quiet : x.rst = false) (inside : b.txBeatIndex < p.beatCount)
    (index : (next p b x).txBeatIndex = b.txBeatIndex) : current p (next p b x) = current p b := by
  have ram : (next p b x).ram = ramNext b x := by simp [next,quiet]
  rw [current,stays.head,index,ram]
  exact stays.spared b.txBeatIndex inside

theorem staysNext (ring : Ring p b) (streams : Streams p b) (quiet : x.rst = false)
    (unpopped : headPopFire b x = false) (queued : 0 < b.slotCount)
    (spared : ∀ i < b.slotCount, Spared p b x (Rings.cell p.cells b.headPtr i)) : Stays p b x := by
  have count := slotCountStep (x := x) ring streams
  have first := spared 0 queued
  rw [Rings.cellZero ring.head] at first
  rw [unpopped] at count
  simp only [Bool.false_eq_true,if_false,Nat.add_zero] at count
  refine ⟨by simp [next,quiet,unpopped],?_,first⟩
  have later : (next p b x).slotCount = slotCountNext p b x := by simp [next,quiet]
  omega

theorem indexWide (p : CommitBuffer.Parameters w) : p.beatCount ≤ 2 ^ p.beatIndexWidth := by
  unfold CommitBuffer.Parameters.beatIndexWidth
  split
  · exact Nat.le_pow_clog (by omega) _
  · omega

theorem headRow (i : Nat) : (txHeadSlotRamAddr p b + i) % 2 ^ p.rowAddrWidth =
    Rings.row p.beatCount (2 ^ p.rowAddrWidth) b.headPtr i := by
  rw [txHeadSlotRamAddr,Nat.mod_add_mod,Rings.row]

theorem idleStreams (stays : 0 < b.slotCount → Stays p b x) (quiet : x.rst = false)
    (state : b.txState = .idle) (index : b.txBeatIndex = 0) (command : b.ramRdCmdValid = false)
    (reads : b.reads = []) : Streams p (next p b x) := by
  cases empty : b.bufferEmpty with
  | true =>
    apply Streams.idle
    all_goals simp [next,quiet,txNext,state,empty,command,reads,readsNext,ramRdRespFire,ramRdCmdFire]
  | false =>
    have queued : 0 < b.slotCount := by
      simp only [bufferEmpty,decide_eq_false_iff_not] at empty
      omega
    have stays := stays queued
    have row := @headRow w p b 0
    apply Streams.asks
    · simp [next,quiet,txNext,state,empty]
    · exact Nat.lt_of_lt_of_le queued stays.queued
    · simpa [next,quiet,txNext,state,empty] using p.someBeats
    · simp [next,quiet,txNext,state,empty]
    · simp [next,quiet,txNext,state,empty]
    · simp [next,quiet,readsNext,ramRdRespFire,ramRdCmdFire,state,command,reads]
    · rw [stays.head]
      simpa [next,quiet,txNext,state,empty,txCurrentRdAddr,index] using row

theorem askedStreams (stays : Stays p b x) (quiet : x.rst = false) (state : b.txState = .readCmd)
    (queued : 0 < b.slotCount) (index : b.txBeatIndex < p.beatCount) (valid : b.rdValid = false)
    (command : b.ramRdCmdValid = true) (reads : b.reads = [])
    (addr : b.ramRdCmdAddr = Rings.row p.beatCount (2 ^ p.rowAddrWidth) b.headPtr b.txBeatIndex) :
    Streams p (next p b x) := by
  have onwards := Nat.lt_of_lt_of_le queued stays.queued
  cases ready : x.ramCmdReady with
  | true =>
    have still : (next p b x).txBeatIndex = b.txBeatIndex := by
      simp [next,quiet,txNext,state,ramRdCmdFire,command,ready]
    have same := current_of stays quiet index still
    apply Streams.fetches
    · simp [next,quiet,txNext,state,ramRdCmdFire,command,ready]
    · exact onwards
    · rwa [still]
    · simp [next,quiet,txNext,state,ramRdCmdFire,command,ready,valid]
    · simp [next,quiet,txNext,state,ramRdCmdFire,command,ready]
    · rw [same]
      simp [next,quiet,readsNext,ramRdRespFire,ramRdCmdFire,state,command,reads,ready,addr,current]
  | false =>
    have still : txNext p b x = b := by simp [txNext,state,ramRdCmdFire,ready]
    apply Streams.asks
    · simpa [next,quiet,still] using state
    · exact onwards
    · simpa [next,quiet,still] using index
    · simpa [next,quiet,still] using valid
    · simpa [next,quiet,still] using command
    · simp [next,quiet,readsNext,ramRdRespFire,ramRdCmdFire,state,reads,ready]
    · rw [stays.head]
      simpa [next,quiet,still] using addr

theorem fetchedStreams (stays : Stays p b x) (quiet : x.rst = false) (state : b.txState = .readResp)
    (queued : 0 < b.slotCount) (index : b.txBeatIndex < p.beatCount) (valid : b.rdValid = false)
    (command : b.ramRdCmdValid = false) (reads : b.reads = [current p b]) : Streams p (next p b x) := by
  have onwards := Nat.lt_of_lt_of_le queued stays.queued
  cases serves : x.ramServes with
  | true =>
    have fire : ramRdRespFire b x = true := by simp [ramRdRespFire,ramRdRespValid,state,reads,serves]
    have still : (next p b x).txBeatIndex = b.txBeatIndex := by simp [next,quiet,txNext,state,fire]
    have same := current_of stays quiet index still
    apply Streams.offers
    · simp [next,quiet,txNext,state,fire]
    · exact onwards
    · rwa [still]
    · simp [next,quiet,txNext,state,fire]
    · simpa [next,quiet,txNext,state,fire] using command
    · simp [next,quiet,readsNext,fire,reads,ramRdCmdFire,command]
    · rw [same]
      simp [next,quiet,txNext,state,fire,reads]
    · rw [still]
      simp [next,quiet,txNext,state,fire]
  | false =>
    have fire : ramRdRespFire b x = false := by simp [ramRdRespFire,ramRdRespValid,serves]
    have still : txNext p b x = b := by simp [txNext,state,fire]
    have same := current_of stays quiet index (by simp [next,quiet,still])
    apply Streams.fetches
    · simpa [next,quiet,still] using state
    · exact onwards
    · simpa [next,quiet,still] using index
    · simpa [next,quiet,still] using valid
    · simpa [next,quiet,still] using command
    · rw [same]
      simp [next,quiet,readsNext,fire,reads,ramRdCmdFire,command]

theorem offeredStreams (stays : headPopFire b x = false → Stays p b x) (quiet : x.rst = false)
    (state : b.txState = .output) (queued : 0 < b.slotCount) (index : b.txBeatIndex < p.beatCount)
    (valid : b.rdValid = true) (command : b.ramRdCmdValid = false) (reads : b.reads = [])
    (data : b.rdData = current p b) (last : b.txLast = decide (b.txBeatIndex = p.lastBeatIndex)) :
    Streams p (next p b x) := by
  have silent : readsNext b x = [] := by simp [readsNext,ramRdRespFire,ramRdCmdFire,state,reads,command]
  cases ready : x.rdReady with
  | true =>
    cases ends : b.txLast with
    | true =>
      apply Streams.idle
      all_goals simp [next,quiet,txNext,state,valid,ready,ends,command,silent]
    | false =>
      have stays := stays (by simp [headPopFire,ends])
      have more : b.txBeatIndex ≠ p.lastBeatIndex := by
        rw [ends] at last
        simpa using last.symm
      have wide := indexWide p
      rw [CommitBuffer.Parameters.lastBeatIndex] at more
      have grown : (b.txBeatIndex + 1) % 2 ^ p.beatIndexWidth = b.txBeatIndex + 1 :=
        Nat.mod_eq_of_lt (by omega)
      have row := @headRow w p b (b.txBeatIndex + 1)
      rw [← Nat.add_assoc] at row
      apply Streams.asks
      · simp [next,quiet,txNext,state,valid,ready,ends]
      · exact Nat.lt_of_lt_of_le queued stays.queued
      · simp only [next,quiet,txNext,state,valid,ready,ends,Bool.false_eq_true,if_false,if_true,
          Bool.and_self,grown]
        omega
      · simp [next,quiet,txNext,state,valid,ready,ends]
      · simp [next,quiet,txNext,state,valid,ready,ends]
      · simpa [next,quiet] using silent
      · rw [stays.head]
        simpa [next,quiet,txNext,state,valid,ready,ends,txNextRdAddr,grown] using row
  | false =>
    have stays := stays (by simp [headPopFire,ready])
    have still : txNext p b x = b := by simp [txNext,state,ready]
    have same := current_of stays quiet index (by simp [next,quiet,still])
    apply Streams.offers
    · simpa [next,quiet,still] using state
    · exact Nat.lt_of_lt_of_le queued stays.queued
    · simpa [next,quiet,still] using index
    · simpa [next,quiet,still] using valid
    · simpa [next,quiet,still] using command
    · simpa [next,quiet] using silent
    · rw [same]
      simpa [next,quiet,still] using data
    · simpa [next,quiet,still] using last

theorem streamsNext (ring : Ring p b) (streams : Streams p b) (quiet : x.rst = false)
    (spared : ∀ i < b.slotCount, Spared p b x (Rings.cell p.cells b.headPtr i)) :
    Streams p (next p b x) := by
  have stays (unpopped : headPopFire b x = false) (queued : 0 < b.slotCount) : Stays p b x :=
    staysNext ring streams quiet unpopped queued spared
  have unpopped (silent : b.rdValid = false) : headPopFire b x = false := by simp [headPopFire,silent]
  cases streams with
  | idle state index valid command reads =>
    exact idleStreams (stays (unpopped valid)) quiet state index command reads
  | asks state queued index valid command reads addr =>
    exact askedStreams (stays (unpopped valid) queued) quiet state queued index valid command reads addr
  | fetches state queued index valid command reads =>
    exact fetchedStreams (stays (unpopped valid) queued) quiet state queued index valid command reads
  | offers state queued index valid command reads data last =>
    exact offeredStreams (fun kept => stays kept queued) quiet state queued index valid command reads data
      last

theorem begunGrows {ram : Nat → BitVec (8 * w)} {c i : Nat} (inside : i < p.beatCount) :
    (slotRows p ram c).take (i + 1) =
      (slotRows p ram c).take i ++ [ram (Rings.row p.beatCount (2 ^ p.rowAddrWidth) c i)] := by
  have there : (slotRows p ram c)[i]? = some (ram (Rings.row p.beatCount (2 ^ p.rowAddrWidth) c i)) := by
    simp [slotRows,Rings.slot,inside]
  rw [List.take_add_one,there]
  rfl

theorem headRows (stays : Stays p b x) (quiet : x.rst = false) :
    slotRows p (next p b x).ram (next p b x).headPtr = slotRows p b.ram b.headPtr := by
  have ram : (next p b x).ram = ramNext b x := by simp [next,quiet]
  rw [stays.head,ram]
  exact Rings.slotSame stays.spared

theorem begunKept (stays : Stays p b x) (quiet : x.rst = false)
    (index : (next p b x).txBeatIndex = b.txBeatIndex) : begun p (next p b x) = begun p b := by
  rw [begun,headRows stays quiet,index,begun]

theorem gatheredNext (ring : Ring p b) (streams : Streams p b) (quiet : x.rst = false)
    (spared : ∀ i < b.slotCount, Spared p b x (Rings.cell p.cells b.headPtr i))
    (slots : List (List (BitVec (8 * w)))) :
    (streamed b x).toList.foldl Gathered.add ⟨slots,begun p b⟩ =
      ⟨slots ++ (popped p b x).toList,begun p (next p b x)⟩ := by
  have whole := streams
  have silently : b.rdValid = false → begun p (next p b x) = begun p b →
      (streamed b x).toList.foldl Gathered.add ⟨slots,begun p b⟩ =
        ⟨slots ++ (popped p b x).toList,begun p (next p b x)⟩ := by
    intro silent same
    simp [streamed,popped,headPopFire,silent,same]
  have unpopped : b.rdValid = false → headPopFire b x = false := by
    intro silent
    simp [headPopFire,silent]
  cases streams with
  | idle state index valid command reads =>
    refine silently valid ?_
    have later : (next p b x).txBeatIndex = 0 := by
      cases empty : b.bufferEmpty with
      | true => simp [next,quiet,txNext,state,empty]
      | false => simp [next,quiet,txNext,state,empty]
    rw [begun,begun,index,later,List.take_zero,List.take_zero]
  | asks state queued index valid command reads addr =>
    have stays := staysNext ring whole quiet (unpopped valid) queued spared
    refine silently valid (begunKept stays quiet ?_)
    cases ready : x.ramCmdReady with
    | true => simp [next,quiet,txNext,state,ramRdCmdFire,command,ready]
    | false => simp [next,quiet,txNext,state,ramRdCmdFire,ready]
  | fetches state queued index valid command reads =>
    have stays := staysNext ring whole quiet (unpopped valid) queued spared
    refine silently valid (begunKept stays quiet ?_)
    cases fire : ramRdRespFire b x with
    | true => simp [next,quiet,txNext,state,fire]
    | false => simp [next,quiet,txNext,state,fire]
  | offers state queued index valid command reads data last =>
    have grows := @begunGrows w p b.ram b.headPtr _ index
    cases ready : x.rdReady with
    | false =>
      have stays := staysNext ring whole quiet (by simp [headPopFire,ready]) queued spared
      have same := begunKept stays quiet (by simp [next,quiet,txNext,state,ready])
      simp [streamed,popped,headPopFire,ready,same]
    | true =>
      have sent : streamed b x = some (current p b,b.txLast) := by simp [streamed,valid,ready,data]
      cases ends : b.txLast with
      | true =>
        have final : b.txBeatIndex + 1 = p.beatCount := by
          rw [ends] at last
          have place : b.txBeatIndex = p.lastBeatIndex := by simpa using last.symm
          rw [CommitBuffer.Parameters.lastBeatIndex] at place
          omega
        have all : begun p b ++ [current p b] = slotRows p b.ram b.headPtr := by
          rw [begun,current,← grows,final]
          exact List.take_of_length_le (Nat.le_of_eq Rings.slotLength)
        have restarts : begun p (next p b x) = [] := by
          simp [begun,next,quiet,txNext,state,valid,ready,ends]
        rw [sent,ends,restarts]
        simp [Gathered.add,all,popped,headPopFire,valid,ready,ends]
      | false =>
        have stays := staysNext ring whole quiet (by simp [headPopFire,ends]) queued spared
        have more : b.txBeatIndex ≠ p.lastBeatIndex := by
          rw [ends] at last
          simpa using last.symm
        have wide := indexWide p
        rw [CommitBuffer.Parameters.lastBeatIndex] at more
        have grown : (next p b x).txBeatIndex = b.txBeatIndex + 1 := by
          simp only [next,quiet,txNext,state,valid,ready,ends,Bool.false_eq_true,if_false,if_true,
            Bool.and_self]
          exact Nat.mod_eq_of_lt (by omega)
        have longer : begun p (next p b x) = begun p b ++ [current p b] := by
          rw [begun,headRows stays quiet,grown,grows,begun,current]
        rw [sent,ends,longer]
        simp [Gathered.add,popped,headPopFire,ends]

end Streaming

section Writes

variable {p : Parameters w} {b : ProposalBuffer w} {x : Inputs w} {r c : Nat}

theorem writeNone {enable : BitVec w} {fresh old : BitVec (8 * w)}
    (off : ∀ i < w, enable.getLsbD i = false) : writeBytes enable fresh old = old := by
  rw [bytesEq]
  intro j bound
  rw [byteWritten bound,off j bound]
  rfl

theorem ramOther (off : ∀ c ∈ x.ramWrites, c.addr = r → ∀ i < w, c.be.getLsbD i = false) :
    ramNext b x r = b.ram r := by
  rw [ramNext]
  generalize x.ramWrites = writes at off
  generalize b.ram = ram
  induction writes generalizing ram with
  | nil => rfl
  | cons first rest ih =>
    have later := ih (fun k member => off k (List.mem_cons_of_mem _ member))
    rw [List.foldl_cons,later]
    by_cases own : r = first.addr
    · subst own
      rw [Function.update_self,writeNone (off first (List.mem_cons_self ..) rfl)]
    · exact Function.update_of_ne own _ _

theorem tailPlace (place : b.tailPtr < p.slotCount) : tailSlotAddr p b = b.tailPtr * p.slotBytes := by
  have next : (b.tailPtr + 1) * p.slotBytes ≤ p.slotCount * p.slotBytes :=
    Nat.mul_le_mul_right p.slotBytes place
  have fits := p.fits
  have some := p.sized
  rw [Nat.mul_comm] at fits
  rw [Nat.add_mul] at next
  rw [tailSlotAddr,Nat.shiftLeft_eq,Rings.clogPower p.sized p.binary]
  exact Nat.mod_eq_of_lt (by omega)

/- Writes to the bytes of slot `t` only leave every other slot alone. -/
theorem sparedOthers {t : Nat} (inside : c < p.slotCount) (apart : c ≠ t)
    (within : ∀ k ∈ x.ramWrites, ∀ i < w, k.be.getLsbD i = true →
      t * p.slotBytes ≤ k.addr * w + i ∧ k.addr * w + i < t * p.slotBytes + p.slotBytes) :
    Spared p b x c := by
  intro j beat
  have fits : p.slotCount * p.beatCount ≤ 2 ^ p.rowAddrWidth := by
    refine CommitBuffer.Parameters.fitsRows ?_
    rw [CommitBuffer.Parameters.Fits,Nat.mul_comm]
    exact p.fits
  refine ramOther ?_
  intro k member same i lane
  cases enabled : k.be.getLsbD i with
  | false => rfl
  | true =>
    obtain ⟨above,under⟩ := within k member i lane enabled
    rw [same,Rings.rowBelow fits inside beat] at above under
    have place : (c * p.beatCount + j) * w + i = c * p.slotBytes + (j * w + i) := by
      rw [← p.beatsWhole,Nat.add_mul,Nat.mul_assoc,Nat.add_assoc]
    have below : j * w + i < p.slotBytes := by
      have next : (j + 1) * w ≤ p.beatCount * w := Nat.mul_le_mul_right w beat
      rw [p.beatsWhole,Nat.add_mul] at next
      omega
    rw [place] at above under
    have low : t < c + 1 := by
      by_contra far
      have apart := Nat.mul_le_mul_right p.slotBytes (Nat.le_of_not_lt far)
      rw [Nat.add_mul] at apart
      omega
    have high : c < t + 1 := by
      by_contra far
      have apart := Nat.mul_le_mul_right p.slotBytes (Nat.le_of_not_lt far)
      rw [Nat.add_mul] at apart
      omega
    omega

end Writes

end ProposalBuffer
end Syncons
