import Syncons.TxEngine
import Syncons.CommitBuffer
import Syncons.CoreSteps

/-! The receive path of the dataplane: the splitter, the frame parser `consensus_rx`, and
their wiring to the core and the commit buffer. -/
namespace Syncons
open Runs
open BitFields (field swapBytes)
open ConsensusCore (Core RxRow RegWrite)

structure RxBeat where
  data : BitVec 512
  last : Bool
  dest : BitVec 8
  deriving DecidableEq, Repr

section Splitter

inductive RxRoute where
  | drop | cons | dma
  deriving DecidableEq, Repr

def pConsensusEthertype : BitVec 16 := 0x88B5
def pDmaEthertype : BitVec 16 := 0x88B6

def rxRouteEff (beat : RxBeat) : RxRoute :=
  if field beat.data (12 * 8) 16 = swapBytes 2 pConsensusEthertype then .cons
  else if field beat.data (12 * 8) 16 = swapBytes 2 pDmaEthertype then .dma
  else .drop

-- The beat on the consensus output of the splitter.
def consRx (beat : Option RxBeat) : Option RxBeat := beat.filter (fun b => rxRouteEff b = .cons)

end Splitter

-- The registers of `consensus_rx`. The upper bits of the row register do not exist and read zero.
structure ConsensusRx where
  rxValid : Bool := false
  rxNodeId : BitVec 8 := 0
  rxSoundBitmap : BitVec 8 := 0
  rxRunId : BitVec 32 := 0
  rxRoundId : BitVec 32 := 0
  commitInData : BitVec 512 := 0
  commitInBe : BitVec 64 := 0
  commitInValid : Bool := false
  commitInLast : Bool := false
  prevNode : BitVec 8 := BitVec.allOnes 8
  prevRoundId : BitVec 64 := BitVec.allOnes 64
  deriving DecidableEq, Repr

namespace ConsensusRx

section Parsing
variable (beat : RxBeat)

def rxEthertype : BitVec 16 := swapBytes 2 (field beat.data 96 16)
def rxRunId64 : BitVec 64 := swapBytes 8 (field beat.data 112 64)
def rxKnowledgeVec : BitVec 8 := field beat.data 176 8
def rxNode : BitVec 8 := field beat.data 184 8
def rxRoundId64 : BitVec 64 := swapBytes 8 (field beat.data 192 64)
def rxPayload : BitVec 256 := swapBytes 32 (field beat.data 256 256)

end Parsing

def pEthernetType : BitVec 16 := 0x88B5

structure Inputs where
  rst : Bool
  rxEnabled : Bool
  currentRunId : BitVec 64
  currentRoundId : BitVec 64
  commitInReady : Bool
  beat : Option RxBeat

variable (nodeCount nodeId : Nat) (r : ConsensusRx) (x : Inputs)

def passes (beat : RxBeat) : Bool :=
  beat.last && rxEthertype beat = pEthernetType && (rxNode beat).toNat < nodeCount &&
    beat.dest.toNat = nodeId && rxRunId64 beat = x.currentRunId &&
    rxRoundId64 beat = x.currentRoundId

def packet : Option RxBeat := x.beat.filter (passes nodeCount nodeId x)

def newPacket (beat : RxBeat) : Bool := r.prevNode ≠ rxNode beat || r.prevRoundId ≠ rxRoundId64 beat

def presented : ConsensusRx → Option RxBeat → ConsensusRx
  | q,some beat =>
    { q with
      rxValid := true
      rxNodeId := rxNode beat
      rxSoundBitmap := ((rxKnowledgeVec beat).setWidth nodeCount).setWidth 8
      rxRunId := (rxRunId64 beat).setWidth 32
      rxRoundId := (rxRoundId64 beat).setWidth 32 }
  | q,none => {q with rxValid := false, rxNodeId := 0, rxSoundBitmap := 0, rxRunId := 0, rxRoundId := 0}

def takenPacket : Option RxBeat :=
  if x.commitInReady then (packet nodeCount nodeId x).filter r.newPacket else none

def committing : ConsensusRx → Option RxBeat → ConsensusRx
  | q,some beat =>
    { q with
      commitInData := (rxPayload beat).setWidth 512
      commitInBe := BitVec.allOnes 64
      commitInLast := true
      commitInValid := true
      prevNode := rxNode beat
      prevRoundId := rxRoundId64 beat }
  | q,none => {q with commitInData := 0, commitInBe := 0, commitInValid := false, commitInLast := false}

def next : ConsensusRx :=
  if x.rst || !x.rxEnabled then {}
  else committing (presented nodeCount r (packet nodeCount nodeId x)) (r.takenPacket nodeCount nodeId x)

end ConsensusRx

structure RxPath where
  core : Core
  rx : ConsensusRx
  buffer : CommitBuffer 64

namespace RxPath

/- Elaboration parameters. That the slots fit the RAM is checked by `proposal_buffer`, which
the dataplane gives the same sizes. -/
structure Parameters where
  core : ConsensusCore.Parameters
  buffer : CommitBuffer.Parameters 64
  fits : buffer.slotCount * buffer.slotBytes ≤ 2 ^ buffer.ramAddrWidth

structure Inputs where
  rst : Bool := false
  ptpTodSec : BitVec 48 := 0
  ptpTodNs : BitVec 32 := 0
  regWr : Option RegWrite := none
  beat : Option RxBeat := none
  popValid : Bool := false
  ramReady : Bool := true
  deriving DecidableEq, Repr

variable (p : Parameters) (s : RxPath) (x : Inputs)

-- What the parser presents to the core; the round id is extended with zeros.
def rxRow : Option RxRow :=
  if s.rx.rxValid then
    some ⟨s.rx.rxNodeId,s.rx.rxSoundBitmap,s.rx.rxRunId,s.rx.rxRoundId.setWidth 64⟩
  else none

def coreInputs : ConsensusCore.Inputs :=
  {rst := x.rst, ptpTodSec := x.ptpTodSec, ptpTodNs := x.ptpTodNs, regWr := x.regWr, rx := s.rxRow}

def bufferInputs : CommitBuffer.Inputs 64 :=
  { rst := x.rst
    inData := s.rx.commitInData
    inBe := s.rx.commitInBe
    inValid := s.rx.commitInValid
    inLast := s.rx.commitInLast
    popValid := x.popValid
    ramReady := x.ramReady }

def rxInputs : ConsensusRx.Inputs :=
  { rst := x.rst
    rxEnabled := s.core.oRxWindow
    currentRunId := s.core.protocol.txRunId.setWidth 64
    currentRoundId := s.core.timing.roundId
    commitInReady := CommitBuffer.commitInReady p.buffer s.buffer (s.bufferInputs x)
    beat := consRx x.beat }

def next : RxPath :=
  { core := s.core.next p.core (s.coreInputs x)
    rx := s.rx.next p.core.nodeCount p.core.nodeId (rxInputs p s x)
    buffer := CommitBuffer.next p.buffer s.buffer (s.bufferInputs x) }

def powerUp : RxPath := ⟨ConsensusCore.powerUp p.core,{},{}⟩

def system : System RxPath Inputs where
  start s := s = powerUp p
  step s x s' := x.rst = false ∧ s' = next p s x

def cycle (s : RxPath) (x : Inputs) : Except Unit RxPath :=
  if x.rst then .error () else .ok (next p s x)

def play (inputs : List Inputs) : Except Unit (List (Move RxPath Inputs) × RxPath) :=
  record (cycle p) inputs (powerUp p)

theorem playRan {p : Parameters} {inputs : List Inputs} {moves : List (Move RxPath Inputs)}
    {s : RxPath} (done : play p inputs = .ok (moves,s)) : Ran (system p) moves s := by
  refine recordRan ?_ (.start rfl) done
  intro x _ s s' fits
  cases quiet : x.rst with
  | true => simp [cycle,quiet] at fits
  | false =>
    simp only [cycle,quiet,Bool.false_eq_true,if_false,Except.ok.injEq] at fits
    exact ⟨quiet,fits.symm⟩

def accepted : Option RxRow := s.core.rxAccepted p.core (s.coreInputs x)

def parsed : Option RxBeat :=
  if s.core.oRxWindow then ConsensusRx.packet p.core.nodeCount p.core.nodeId (rxInputs p s x) else none

def headerRow (beat : RxBeat) : RxRow :=
  { nodeId := ConsensusRx.rxNode beat
    row := ((ConsensusRx.rxKnowledgeVec beat).setWidth p.core.nodeCount).setWidth 8
    runId := (ConsensusRx.rxRunId64 beat).setWidth 32
    roundId := ((ConsensusRx.rxRoundId64 beat).setWidth 32).setWidth 64 }

section Presentation

variable {p : Parameters} {s : RxPath} {x : Inputs} {moves : List (Move RxPath Inputs)}

theorem presentedNext (quiet : x.rst = false) :
    (next p s x).rxRow = (parsed p s x).map (headerRow p) := by
  cases opens : s.core.oRxWindow with
  | false => simp [next,ConsensusRx.next,rxInputs,parsed,rxRow,opens]
  | true =>
    simp only [next,ConsensusRx.next,parsed,opens,if_true]
    rw [if_neg (by simp [rxInputs,quiet,opens])]
    generalize ConsensusRx.packet _ _ _ = frame
    generalize ConsensusRx.takenPacket _ _ _ _ = taken
    cases frame <;> cases taken <;> rfl

theorem ranAdvertisesRun (ran : Ran (system p) moves s) : s.core.AdvertisesRun := by
  induction ran with
  | start h =>
    intro running
    rw [h] at running
    cases running
  | move before h ih =>
    rw [h.2]
    exact ConsensusCore.advertisesRunNext ih

end Presentation

end RxPath
end Syncons
