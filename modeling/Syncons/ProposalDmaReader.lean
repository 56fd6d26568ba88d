import Syncons.CommitDmaWriter
import Syncons.ProposalBuffer

/-! The proposal DMA reader: its CSR block, the state machine that fetches a batch of host
entries into the tail slots of the proposal buffer, and its connection to that buffer and to
a DMA engine. -/
namespace Syncons
open Runs
open ConsensusCore (RegWrite)
open CommitDmaWriter (setLow setHigh)

inductive ReaderState where
  | idle | issueDma | waitDma | commitSlot | error
  deriving DecidableEq, Repr

structure ProposalDmaReader where
  wrAck : Bool := false
  state : ReaderState := .idle
  desc : Descriptor := {}
  descValid : Bool := false
  statusTag : Nat := 0
  statusError : BitVec 4 := 0
  statusValid : Bool := false
  entryCounter : BitVec 32 := 0
  run : Bool := false
  done : Bool := false
  error : Bool := false
  baseAddr : BitVec 64 := 0
  offset : BitVec 64 := 0
  stride : BitVec 64 := 0
  count : BitVec 32 := 0
  activeIndex : BitVec 32 := 0
  tailSlotCommit : Bool := false
  deriving DecidableEq, Repr

namespace ProposalDmaReader

structure Parameters where
  rbBaseAddr : BitVec 24 := 0
  dmaLenWidth : Nat := 16
  dmaTagWidth : Nat := 16
  ramSelWidth : Nat := 4
  ramSelProp : Nat := 0
  dmaTagProp : Nat := 0
  proposalSlotBytes : Nat := 1024
  limit : proposalSlotBytes ≤ 2 ^ 20
  binary : proposalSlotBytes &&& (proposalSlotBytes - 1) = 0

namespace Parameters

def ramSelPropValue (p : Parameters) : Nat := p.ramSelProp % 2 ^ p.ramSelWidth
def dmaTagPropValue (p : Parameters) : Nat := p.dmaTagProp % 2 ^ p.dmaTagWidth
def slotBytesLen (p : Parameters) : Nat := p.proposalSlotBytes % 2 ^ p.dmaLenWidth

end Parameters

structure Inputs where
  rst : Bool
  regWr : Option RegWrite
  descReady : Bool
  status : Option DmaStatus
  tailSlotValid : Bool
  tailSlotAddr : Nat

inductive Register where
  | addrLo | addrHi | strideLo | strideHi | count | control | readOnly | unmapped
  deriving DecidableEq, Repr

-- Word addresses relative to the base; only a write to a mapped one is acknowledged.
def decode (p : Parameters) (addr : BitVec 24) : Register :=
  let offset := (addr &&& 0xFFFFFC#24) - p.rbBaseAddr
  if offset = 0x100 then .addrLo
  else if offset = 0x104 then .addrHi
  else if offset = 0x10C then .strideLo
  else if offset = 0x110 then .strideHi
  else if offset = 0x114 then .count
  else if offset = 0x118 then .control
  else if offset ≤ 0x01C ∨ (0x100 ≤ offset ∧ offset ≤ 0x130) then .readOnly
  else .unmapped

variable (p : Parameters) (s : ProposalDmaReader) (x : Inputs)

def reset : ProposalDmaReader := {desc := {ramSel := p.ramSelPropValue, tag := p.dmaTagPropValue}}

def csrWrite : Option (Register × BitVec 32) :=
  if s.wrAck then none else x.regWr.map (fun w => (decode p w.addr,w.data))

def starts : Bool :=
  match s.csrWrite p x with
  | some (.control,data) => data.getLsbD 0 && !s.run && s.state = .idle
  | _ => false

def controlled (data : BitVec 32) (q : ProposalDmaReader) : ProposalDmaReader :=
  let q := if s.starts p x then
      { q with
        run := true
        done := false
        error := false
        offset := 0
        activeIndex := 0
        statusTag := 0
        statusError := 0
        statusValid := false }
    else q
  let q := if data.getLsbD 1 then {q with done := false} else q
  if data.getLsbD 2 then {q with error := false} else q

def csrNext : ProposalDmaReader :=
  match s.csrWrite p x with
  | none => {s with wrAck := false}
  | some (register,data) =>
    let q := {s with wrAck := register ≠ .unmapped}
    match register with
    | .addrLo => {q with baseAddr := setLow s.baseAddr data}
    | .addrHi => {q with baseAddr := setHigh s.baseAddr data}
    | .strideLo => {q with stride := setLow s.stride data}
    | .strideHi => {q with stride := setHigh s.stride data}
    | .count => {q with count := data}
    | .control => s.controlled p x data q
    | .readOnly | .unmapped => q

def statusMatch : Option DmaStatus := x.status.filter (fun t => t.tag = s.desc.tag)

def launched : Descriptor :=
  { dmaAddr := s.baseAddr + s.offset
    ramSel := p.ramSelPropValue
    ramAddr := x.tailSlotAddr
    len := p.slotBytesLen
    tag := (p.dmaTagPropValue + s.activeIndex.toNat % 2 ^ p.dmaTagWidth) % 2 ^ p.dmaTagWidth }

/- The state machine takes the next values gathered so far and reads the registers of `s`. -/
def idleNext (q : ProposalDmaReader) : ProposalDmaReader :=
  if s.run then
    if s.count ≠ 0 then {q with state := .issueDma} else {q with run := false, done := true}
  else q

-- The tail pointer has not moved yet in the cycle of our own commit pulse.
def issueDmaNext (q : ProposalDmaReader) : ProposalDmaReader :=
  if x.tailSlotValid && !s.tailSlotCommit && (!s.descValid || x.descReady) then
    {q with desc := s.launched p x, descValid := true, state := .waitDma}
  else {q with descValid := false}

def waitDmaNext (q : ProposalDmaReader) : ProposalDmaReader :=
  match s.statusMatch x with
  | none => q
  | some t =>
    let q := {q with statusTag := t.tag, statusError := t.error, statusValid := true}
    if t.error = 0 then {q with state := .commitSlot}
    else {q with run := false, done := true, error := true, state := .error}

def commitSlotNext (q : ProposalDmaReader) : ProposalDmaReader :=
  let q := {q with
    tailSlotCommit := true
    entryCounter := s.entryCounter + 1
    offset := s.offset + s.stride
    activeIndex := s.activeIndex + 1
    count := s.count - 1}
  if s.count = 1 then {q with run := false, done := true, state := .idle}
  else {q with state := .issueDma}

def next : ProposalDmaReader :=
  if x.rst then reset p
  else
    let q := {s.csrNext p x with descValid := s.descValid && !x.descReady, tailSlotCommit := false}
    match s.state with
    | .idle => s.idleNext q
    | .issueDma => s.issueDmaNext p x q
    | .waitDma => s.waitDmaNext x q
    | .commitSlot => s.commitSlotNext q
    | .error => {q with state := .idle}

end ProposalDmaReader

structure ProposalPath (w : Nat) where
  reader : ProposalDmaReader
  buffer : ProposalBuffer w
  outstanding : List Descriptor

namespace ProposalPath

-- Both modules have the same slots; a descriptor can express their length.
structure Parameters (w : Nat) where
  reader : ProposalDmaReader.Parameters
  buffer : ProposalBuffer.Parameters w
  sameSlots : reader.proposalSlotBytes = buffer.slotBytes
  sameLen : reader.dmaLenWidth = buffer.dmaLenWidth
  several : 2 ≤ buffer.slotCount
  short : buffer.slotBytes < 2 ^ buffer.dmaLenWidth

structure Inputs (w : Nat) where
  rst : Bool := false
  regWr : Option RegWrite := none
  descReady : Bool := false
  status : Option DmaStatus := none
  ramWrites : List (RamWrite w) := []
  rdReady : Bool := false
  ramCmdReady : Bool := true
  ramServes : Bool := true

variable {w : Nat} (p : Parameters w) (s : ProposalPath w) (x : Inputs w)

def readerInputs : ProposalDmaReader.Inputs :=
  { rst := x.rst
    regWr := x.regWr
    descReady := x.descReady
    status := x.status
    tailSlotValid := ProposalBuffer.tailSlotValid p.buffer s.buffer
    tailSlotAddr := ProposalBuffer.tailSlotAddr p.buffer s.buffer }

def bufferInputs : ProposalBuffer.Inputs w :=
  { rst := x.rst
    tailSlotCommit := s.reader.tailSlotCommit
    ramWrites := x.ramWrites
    rdReady := x.rdReady
    ramCmdReady := x.ramCmdReady
    ramServes := x.ramServes }

def accepted : List Descriptor :=
  s.outstanding ++ if s.reader.descValid && x.descReady then [s.reader.desc] else []

def outstandingNext : List Descriptor :=
  match x.status with
  | none => accepted s x
  | some t => (accepted s x).eraseP (fun d => d.tag = t.tag)

def next : ProposalPath w :=
  { reader := s.reader.next p.reader (readerInputs p s x)
    buffer := ProposalBuffer.next p.buffer s.buffer (s.bufferInputs x)
    outstanding := outstandingNext s x }

def start : ProposalPath w := ⟨ProposalDmaReader.reset p.reader,{},[]⟩

-- What the DMA engine does: it answers, and writes for, descriptors that it has accepted.
structure Engine : Prop where
  answers : ∀ t, x.status = some t → ∃ d ∈ accepted s x, d.tag = t.tag
  writes : ∀ c ∈ x.ramWrites, ∀ i < w, c.be.getLsbD i = true →
    ∃ d ∈ accepted s x, d.ramAddr ≤ c.addr * w + i ∧ c.addr * w + i < d.ramAddr + d.len

-- Cycles after a reset, whatever the host writes to the registers.
def system : System (ProposalPath w) (Inputs w) where
  start s := s = start p
  step s x s' := x.rst = false ∧ Engine s x ∧ s' = next p s x

end ProposalPath
end Syncons
