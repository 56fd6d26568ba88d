import Syncons.ConsensusCore
import Mathlib.Logic.Function.Basic

/-! The common register block of the dataplane: its register map, the two handshakes with one
cycle of acknowledgement each, and the selection of the block that answers. -/
namespace Syncons
open ConsensusCore (RegWrite)

inductive DebugWord where
  | txFrameCount | txEmptyCount | txOverrunCount | txMissedCount
  | txCplTs0 | txCplTs1 | txCplTs2 | txCplCount | txCplOverrun
  | txMuxSsrFrames | txMuxDmaFrames | txLenMismatch
  deriving DecidableEq, Repr

structure CommonRegisters where
  control : BitVec 32 := 0
  error : BitVec 32 := 0
  scratch : BitVec 32 := 0
  replicaId : BitVec 32 := 0
  replicaNum : BitVec 32 := 0
  roundLengthNs : BitVec 32 := 0
  ethernetPort : BitVec 32 := 0
  replicaMacLo : Fin 7 → BitVec 32 := fun _ => 0
  replicaMacHi : Fin 7 → BitVec 32 := fun _ => 0

structure CommonBlock where
  regs : CommonRegisters := {}
  wrAck : Bool := false
  rdAck : Bool := false
  rdData : BitVec 32 := 0

namespace CommonBlock

def ssrRbType : BitVec 32 := 0x53535201
def ssrRbVersion : BitVec 32 := 0x00000100
def maxReplicas : BitVec 32 := 7

inductive Register where
  | type | version | nextPtr | features
  | control | status | error | scratch
  | replicaId | replicaNum | roundLengthNs | ethernetPort
  | debug (word : DebugWord)
  | replicaMacLo (i : Fin 7) | replicaMacHi (i : Fin 7)
  deriving DecidableEq, Repr

namespace Register

def offset : Register → BitVec 24
  | type => 0x000 | version => 0x004 | nextPtr => 0x008 | features => 0x00c
  | control => 0x010 | status => 0x014 | error => 0x018 | scratch => 0x01c
  | replicaId => 0x020 | replicaNum => 0x024 | roundLengthNs => 0x028 | ethernetPort => 0x02c
  | debug .txFrameCount => 0x030 | debug .txEmptyCount => 0x034
  | debug .txOverrunCount => 0x038 | debug .txMissedCount => 0x03c
  | debug .txCplTs0 => 0x040 | debug .txCplTs1 => 0x044 | debug .txCplTs2 => 0x048
  | debug .txCplCount => 0x04c | debug .txCplOverrun => 0x050
  | debug .txMuxSsrFrames => 0x054 | debug .txMuxDmaFrames => 0x058 | debug .txLenMismatch => 0x05c
  | replicaMacLo i => 0x100 + BitVec.ofNat 24 (8 * i.val)
  | replicaMacHi i => 0x100 + BitVec.ofNat 24 (8 * i.val + 4)

def all : List Register :=
  [type,version,nextPtr,features,control,status,error,scratch,
    replicaId,replicaNum,roundLengthNs,ethernetPort] ++
  [.txFrameCount,.txEmptyCount,.txOverrunCount,.txMissedCount,.txCplTs0,.txCplTs1,.txCplTs2,
    .txCplCount,.txCplOverrun,.txMuxSsrFrames,.txMuxDmaFrames,.txLenMismatch].map debug ++
  (List.finRange 7).flatMap (fun i => [replicaMacLo i,replicaMacHi i])

-- The debug words answer reads only.
def writable : Register → Bool
  | debug _ => false
  | _ => true

end Register

-- The twelve upper address bits select the block.
def rbbCommon (addr : BitVec 24) : Bool := addr.extractLsb' 12 12 = 0

def decode (addr : BitVec 24) : Option Register :=
  Register.all.find? (fun r => r.offset = addr &&& 0xFFFFFC#24)

end CommonBlock

namespace CommonRegisters
open CommonBlock

variable (q : CommonRegisters)

def configValid : Bool :=
  q.replicaNum ≠ 0 && q.replicaNum ≤ maxReplicas && q.roundLengthNs ≠ 0 && q.replicaId < q.replicaNum

def status : BitVec 32 :=
  (BitVec.ofBool (q.control.getLsbD 1) ++ BitVec.ofBool (q.control.getLsbD 0) ++
    BitVec.ofBool q.configValid).setWidth 32

-- The error register is cleared by the bits written to it.
def written (r : Register) (data : BitVec 32) : CommonRegisters :=
  match r with
  | .control => {q with control := data}
  | .error => {q with error := q.error &&& ~~~data}
  | .scratch => {q with scratch := data}
  | .replicaId => {q with replicaId := data}
  | .replicaNum => {q with replicaNum := data}
  | .roundLengthNs => {q with roundLengthNs := data}
  | .ethernetPort => {q with ethernetPort := data}
  | .replicaMacLo i => {q with replicaMacLo := Function.update q.replicaMacLo i data}
  | .replicaMacHi i => {q with replicaMacHi := Function.update q.replicaMacHi i data}
  | .type | .version | .nextPtr | .features | .status | .debug _ => q

def shown (debug : DebugWord → BitVec 32) : Register → BitVec 32
  | .type => ssrRbType
  | .version => ssrRbVersion
  | .nextPtr => 0
  | .features => 0x0000000f
  | .control => q.control
  | .status => q.status
  | .error => q.error
  | .scratch => q.scratch
  | .replicaId => q.replicaId
  | .replicaNum => q.replicaNum
  | .roundLengthNs => q.roundLengthNs
  | .ethernetPort => q.ethernetPort
  | .debug word => debug word
  | .replicaMacLo i => q.replicaMacLo i
  | .replicaMacHi i => q.replicaMacHi i

end CommonRegisters

namespace CommonBlock

structure Inputs where
  rst : Bool := false
  regWr : Option RegWrite := none
  regRd : Option (BitVec 24) := none
  debug : DebugWord → BitVec 32 := fun _ => 0

variable (s : CommonBlock) (x : Inputs)

def regWrEnCommon : Option RegWrite := x.regWr.filter (fun w => rbbCommon w.addr)
def regRdEnCommon : Option (BitVec 24) := x.regRd.filter rbbCommon

def regWritten : Option (Register × BitVec 32) :=
  if s.wrAck then none
  else (regWrEnCommon x).bind fun w =>
    ((decode w.addr).filter Register.writable).map fun r => (r,w.data)

def regRead : Option Register := if s.rdAck then none else (regRdEnCommon x).bind decode

def next : CommonBlock :=
  if x.rst then {}
  else
    { regs := match s.regWritten x with
        | some (r,data) => s.regs.written r data
        | none => s.regs
      wrAck := (s.regWritten x).isSome
      rdAck := (s.regRead x).isSome
      rdData := match s.regRead x with
        | some r => s.regs.shown x.debug r
        | none => 0 }

inductive OtherBlock where
  | proposalQueue | commitQueue | consensus
  deriving DecidableEq, Repr

structure BlockAnswer where
  wrAck : Bool := false
  rdAck : Bool := false
  rdData : BitVec 32 := 0
  deriving DecidableEq, Repr

variable (others : OtherBlock → BlockAnswer)

def regWrAck : Bool :=
  s.wrAck || (others .proposalQueue).wrAck || (others .commitQueue).wrAck || (others .consensus).wrAck

def regRdAck : Bool :=
  s.rdAck || (others .proposalQueue).rdAck || (others .commitQueue).rdAck || (others .consensus).rdAck

def regRdData : BitVec 32 :=
  if s.rdAck then s.rdData
  else if (others .proposalQueue).rdAck then (others .proposalQueue).rdData
  else if (others .commitQueue).rdAck then (others .commitQueue).rdData
  else if (others .consensus).rdAck then (others .consensus).rdData
  else 0

theorem decodeOffset (r : Register) : decode r.offset = some r := by
  cases r with
  | debug word => cases word <;> rfl
  | replicaMacLo i => revert i; decide
  | replicaMacHi i => revert i; decide
  | _ => rfl

theorem offsetCommon (r : Register) : rbbCommon r.offset = true := by
  cases r with
  | debug word => cases word <;> rfl
  | replicaMacLo i => revert i; decide
  | replicaMacHi i => revert i; decide
  | _ => rfl

end CommonBlock
end Syncons
