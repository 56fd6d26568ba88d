import Syncons.ConsensusCore
import Syncons.CommitBuffer

/-! The commit DMA writer: its CSR block, the state machine that writes the head slot of the
commit buffer to the active one of two host buffers, and its connection to the commit
buffer and to a DMA engine. -/
namespace Syncons
open Runs
open ConsensusCore (RegWrite)

-- A DMA write descriptor; tags, selectors and RAM addresses are numbers below their width.
structure Descriptor where
  dmaAddr : BitVec 64 := 0
  ramSel : Nat := 0
  ramAddr : Nat := 0
  len : Nat := 0
  tag : Nat := 0
  deriving DecidableEq, Repr

structure DmaStatus where
  tag : Nat
  error : BitVec 4
  deriving DecidableEq, Repr

structure HostBuffer where
  addr : BitVec 64 := 0
  slotCapacity : BitVec 32 := 0
  armPulse : Bool := false
  clearPulse : Bool := false
  armed : Bool := false
  done : Bool := false
  completedCount : BitVec 32 := 0
  errorCount : BitVec 32 := 0
  deriving DecidableEq, Repr

inductive WriterState where
  | idle | waitBuffer | waitSlot | issueDma | waitDma | popSlot | error
  deriving DecidableEq, Repr

-- The two host buffers are a function of `active_buf_reg`.
structure CommitDmaWriter where
  wrAck : Bool := false
  stride : BitVec 64 := 0
  startPulse : Bool := false
  stopPulse : Bool := false
  buf : Bool → HostBuffer := fun _ => {}
  state : WriterState := .idle
  busy : Bool := false
  activeBuf : Bool := false
  waitingSlot : Bool := false
  waitingArmedBuf : Bool := false
  stopPending : Bool := false
  desc : Descriptor := {}
  descValid : Bool := false
  popValid : Bool := false

namespace CommitDmaWriter

structure Parameters where
  rbBaseAddr : BitVec 24 := 0
  dmaLenWidth : Nat := 16
  dmaTagWidth : Nat := 16
  ramSelWidth : Nat := 4
  ramSelCommit : Nat := 1
  dmaTagCommit : Nat := 0
  commitBufferSlotBytes : Nat := 1024

namespace Parameters

def ramSelCommitValue (p : Parameters) : Nat := p.ramSelCommit % 2 ^ p.ramSelWidth
def dmaTagCommitValue (p : Parameters) : Nat := p.dmaTagCommit % 2 ^ p.dmaTagWidth

end Parameters

structure Inputs where
  rst : Bool
  regWr : Option RegWrite
  headSlotValid : Bool
  headSlotAddr : Nat
  descReady : Bool
  status : Option DmaStatus

inductive Register where
  | strideLo | strideHi | control | addrLo (b : Bool) | addrHi (b : Bool)
  | slotCapacity (b : Bool) | bufControl (b : Bool) | other
  deriving DecidableEq, Repr

-- Word addresses relative to the base; a write to any other address is ignored.
def decode (p : Parameters) (addr : BitVec 24) : Register :=
  let offset := (addr &&& 0xFFFFFC#24) - p.rbBaseAddr
  if offset = 0x00C then .control
  else if offset = 0x014 then .strideLo
  else if offset = 0x018 then .strideHi
  else if offset = 0x100 then .addrLo false
  else if offset = 0x104 then .addrHi false
  else if offset = 0x108 then .slotCapacity false
  else if offset = 0x10C then .bufControl false
  else if offset = 0x200 then .addrLo true
  else if offset = 0x204 then .addrHi true
  else if offset = 0x208 then .slotCapacity true
  else if offset = 0x20C then .bufControl true
  else .other

variable (p : Parameters) (s : CommitDmaWriter) (x : Inputs)

def csrWrite : Option (Register × BitVec 32) :=
  if s.wrAck then none else x.regWr.map (fun w => (decode p w.addr,w.data))

def setLow (v : BitVec 64) (data : BitVec 32) : BitVec 64 := v.extractLsb' 32 32 ++ data
def setHigh (v : BitVec 64) (data : BitVec 32) : BitVec 64 := data ++ v.extractLsb' 0 32

-- What a register write does to host buffer `b`; the pulses last one cycle.
def bufWritten (b : Bool) (h : HostBuffer) : HostBuffer :=
  let h := {h with armPulse := false, clearPulse := false}
  match s.csrWrite p x with
  | some (.addrLo b',data) => if b' = b then {h with addr := setLow h.addr data} else h
  | some (.addrHi b',data) => if b' = b then {h with addr := setHigh h.addr data} else h
  | some (.slotCapacity b',data) => if b' = b then {h with slotCapacity := data} else h
  | some (.bufControl b',data) =>
    if b' = b then {h with armPulse := data.getLsbD 0, clearPulse := data.getLsbD 1} else h
  | _ => h

def strideNext : BitVec 64 :=
  match s.csrWrite p x with
  | some (.strideLo,data) => setLow s.stride data
  | some (.strideHi,data) => setHigh s.stride data
  | _ => s.stride

def controlWrite : Option (BitVec 32) :=
  match s.csrWrite p x with
  | some (.control,data) => some data
  | _ => none

def csrNext : CommitDmaWriter :=
  { s with
    wrAck := (s.csrWrite p x).isSome
    stride := s.strideNext p x
    startPulse := (s.controlWrite p x).any (fun data => data.getLsbD 0)
    stopPulse := (s.controlWrite p x).any (fun data => data.getLsbD 1)
    buf := fun b => s.bufWritten p x b (s.buf b) }

def active : HostBuffer := s.buf s.activeBuf
def activeBufReady : Bool := s.active.armed && s.active.slotCapacity ≠ 0
def commitDmaDstAddr : BitVec 64 := s.active.addr + s.active.completedCount.setWidth 64 * s.stride

def descFire : Bool := s.descValid && x.descReady
def statusMatch : Bool := x.status.any (fun t => t.tag = p.dmaTagCommitValue)
def statusError : Bool := x.status.any (fun t => t.tag = p.dmaTagCommitValue && t.error ≠ 0)

/- Each block below takes the next values gathered so far and reads the registers of `s`. -/
def cleared (h : HostBuffer) : HostBuffer := {h with done := false, completedCount := 0, errorCount := 0}

def commanded (b : Bool) (h : HostBuffer) : HostBuffer :=
  let h := if (s.buf b).clearPulse then cleared h else h
  if (s.buf b).armPulse then {cleared h with armed := true} else h

def commands (q : CommitDmaWriter) : CommitDmaWriter :=
  { q with
    buf := fun b => s.commanded b (q.buf b)
    descValid := s.descValid && !s.descFire x }

def idleNext (q : CommitDmaWriter) : CommitDmaWriter :=
  let q := {q with busy := false, descValid := false, popValid := false, stopPending := false}
  if s.startPulse && !s.stopPulse then {q with busy := true, state := .waitBuffer} else q

def waitBufferNext (q : CommitDmaWriter) : CommitDmaWriter :=
  let q := {q with busy := true, waitingArmedBuf := false, descValid := false, popValid := false}
  if s.stopPending || s.stopPulse then {q with busy := false, stopPending := false, state := .idle}
  else if s.activeBufReady then {q with state := .waitSlot}
  else {q with waitingArmedBuf := true}

def launched : Descriptor :=
  { dmaAddr := s.commitDmaDstAddr
    ramSel := p.ramSelCommitValue
    ramAddr := x.headSlotAddr
    len := p.commitBufferSlotBytes % 2 ^ p.dmaLenWidth
    tag := p.dmaTagCommitValue }

def waitSlotNext (q : CommitDmaWriter) : CommitDmaWriter :=
  let q := {q with busy := true, waitingSlot := true}
  if s.stopPending || s.stopPulse then
    {q with busy := false, waitingSlot := false, stopPending := false, state := .idle}
  else if !s.activeBufReady then {q with waitingSlot := false, state := .waitBuffer}
  else if x.headSlotValid then
    {q with waitingSlot := false, desc := s.launched p x, descValid := true, state := .issueDma}
  else q

-- A descriptor that has been accepted can no longer be cancelled.
def issueDmaNext (q : CommitDmaWriter) : CommitDmaWriter :=
  let q := {q with busy := true}
  if s.descFire x then
    { q with
      descValid := false
      stopPending := if s.stopPulse then true else q.stopPending
      state := .waitDma }
  else if s.stopPulse then
    {q with descValid := false, busy := false, stopPending := false, state := .idle}
  else q

def waitDmaNext (q : CommitDmaWriter) : CommitDmaWriter :=
  let q := {q with busy := true, stopPending := if s.stopPulse then true else q.stopPending}
  if statusMatch p x then
    if statusError p x then
      { q with
        buf := Function.update q.buf s.activeBuf
          {q.buf s.activeBuf with errorCount := s.active.errorCount + 1}
        busy := false
        stopPending := false
        state := .error }
    else {q with popValid := true, state := .popSlot}
  else q

def popSlotNext (q : CommitDmaWriter) : CommitDmaWriter :=
  let q := {q with
    busy := true
    stopPending := if s.stopPulse then true else q.stopPending
    popValid := false
    buf := Function.update q.buf s.activeBuf
      {q.buf s.activeBuf with completedCount := s.active.completedCount + 1}}
  if s.active.slotCapacity ≤ s.active.completedCount + 1 then
    { q with
      buf := Function.update q.buf s.activeBuf {q.buf s.activeBuf with done := true, armed := false}
      activeBuf := !s.activeBuf
      state := .waitBuffer }
  else {q with state := .waitSlot}

def errorNext (q : CommitDmaWriter) : CommitDmaWriter :=
  { q with
    state := .idle
    busy := false
    waitingSlot := false
    waitingArmedBuf := false
    stopPending := false
    descValid := false
    popValid := false }

def next : CommitDmaWriter :=
  if x.rst then {}
  else
    let q := s.commands x (s.csrNext p x)
    match s.state with
    | .idle => s.idleNext q
    | .waitBuffer => s.waitBufferNext q
    | .waitSlot => s.waitSlotNext p x q
    | .issueDma => s.issueDmaNext x q
    | .waitDma => s.waitDmaNext p x q
    | .popSlot => s.popSlotNext q
    | .error => errorNext q

/- The host configures a buffer, and the stride, before it arms, and neither arms nor clears
the active buffer while it is armed. -/
def Respects : Prop :=
  match s.csrWrite p x with
  | some (.addrLo b,_) | some (.addrHi b,_) | some (.slotCapacity b,_) => (s.buf b).armed = false
  | some (.strideLo,_) | some (.strideHi,_) => ∀ b, (s.buf b).armed = false
  | some (.bufControl b,data) => data.getLsbD 0 = true ∨ data.getLsbD 1 = true →
      s.activeBuf = b → (s.buf b).armed = false
  | _ => True

end CommitDmaWriter

structure CommitPath (w : Nat) where
  writer : CommitDmaWriter
  buffer : CommitBuffer w
  outstanding : List Descriptor

namespace CommitPath

/- One slot size for both, within the descriptor's length. That the slots fit the RAM is
checked by the RAM instance for the address width it is given. -/
structure Parameters (w : Nat) where
  writer : CommitDmaWriter.Parameters
  buffer : CommitBuffer.Parameters w
  sameSlots : writer.commitBufferSlotBytes = buffer.slotBytes
  short : buffer.slotBytes < 2 ^ writer.dmaLenWidth
  fits : buffer.slotCount * buffer.slotBytes ≤ 2 ^ buffer.ramAddrWidth

structure Inputs (w : Nat) where
  rst : Bool := false
  regWr : Option RegWrite := none
  descReady : Bool := false
  status : Option DmaStatus := none
  inData : BitVec (8 * w) := 0
  inBe : BitVec w := BitVec.allOnes w
  inValid : Bool := false
  inLast : Bool := false
  ramReady : Bool := true

variable {w : Nat} (p : Parameters w) (s : CommitPath w) (x : Inputs w)

def writerInputs : CommitDmaWriter.Inputs :=
  { rst := x.rst
    regWr := x.regWr
    headSlotValid := s.buffer.headSlotValid
    headSlotAddr := CommitBuffer.headSlotAddr p.buffer s.buffer
    descReady := x.descReady
    status := x.status }

def bufferInputs : CommitBuffer.Inputs w :=
  { rst := x.rst
    inData := x.inData
    inBe := x.inBe
    inValid := x.inValid
    inLast := x.inLast
    popValid := s.writer.popValid
    ramReady := x.ramReady }

def statusMatch : Bool := CommitDmaWriter.statusMatch p.writer (writerInputs p s x)
def statusError : Bool := CommitDmaWriter.statusError p.writer (writerInputs p s x)

def outstandingNext : List Descriptor :=
  (if statusMatch p s x then s.outstanding.tail else s.outstanding) ++
    if s.writer.descFire (writerInputs p s x) then [s.writer.desc] else []

def next : CommitPath w :=
  { writer := s.writer.next p.writer (writerInputs p s x)
    buffer := CommitBuffer.next p.buffer s.buffer (s.bufferInputs x)
    outstanding := outstandingNext p s x }

-- Cycles after a reset, with a status under the writer's tag for an accepted descriptor only.
def system : System (CommitPath w) (Inputs w) where
  start s := s = ⟨{},{},[]⟩
  step s x s' := x.rst = false ∧ s.writer.Respects p.writer (writerInputs p s x) ∧
    (statusMatch p s x = true → s.outstanding ≠ []) ∧ s' = next p s x

end CommitPath
end Syncons
