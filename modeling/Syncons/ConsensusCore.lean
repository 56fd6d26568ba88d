import Syncons.Runs

/-! One clock of the consensus core: the CSR block, the round generator, the
two-round pipeline with its boundary evaluation, activation and reception. Registers
and ports have their Verilog widths; a step takes the registers and the inputs of one
cycle to the registers after its edge. -/
namespace Syncons.ConsensusCore

-- Elaboration parameters, with the checks of the `initial` block.
structure Parameters where
  nodeCount : Nat
  nodeId : Nat
  rbBaseAddr : BitVec 24 := 0x003000
  roundLengthNs : Nat := 4000
  guardTimeNs : Nat := 200
  txSubslotNs : Nat := 400
  txAdmitMarginNs : Nat := 100
  divides : 1000000000 % roundLengthNs = 0
  fits : guardTimeNs + nodeCount * txSubslotNs < roundLengthNs
  admits : txAdmitMarginNs < txSubslotNs
  named : nodeId < nodeCount
  narrow : nodeCount ≤ 8

namespace Parameters

def roundsPerSecond (p : Parameters) : Nat := 1000000000 / p.roundLengthNs
def txStartOffsetNs (p : Parameters) : Nat := p.guardTimeNs + p.nodeId * p.txSubslotNs
def txEndOffsetNs (p : Parameters) : Nat := p.txStartOffsetNs + p.txSubslotNs
def txAdmitOffsetNs (p : Parameters) : Nat := p.txEndOffsetNs - p.txAdmitMarginNs
def rxStartOffsetNs (p : Parameters) : Nat := p.guardTimeNs
def rxEndOffsetNs (p : Parameters) : Nat := p.roundLengthNs - p.guardTimeNs
def memberMask (p : Parameters) : BitVec 8 := 1#8 <<< p.nodeCount - 1#8
def quorum (p : Parameters) : Nat := p.nodeCount / 2 + 1
def selfBit (p : Parameters) : BitVec 8 := 1#8 <<< p.nodeId

end Parameters

structure RegWrite where
  addr : BitVec 24
  data : BitVec 32
  deriving DecidableEq, Repr

-- The row evidence of one received frame, as the receive path presents it.
structure RxRow where
  nodeId : BitVec 8
  row : BitVec 8
  runId : BitVec 32
  roundId : BitVec 64
  deriving DecidableEq, Repr

structure Inputs where
  rst : Bool := false
  enable : Bool := true
  ptpTodSec : BitVec 48
  ptpTodNs : BitVec 32
  ptpTimeValid : Bool := true
  ptpStep : Bool := false
  regWr : Option RegWrite := none
  rx : Option RxRow := none
  deriving DecidableEq, Repr

inductive FsmState where
  | idle | waitActivate | run | halt
  deriving DecidableEq, Repr

inductive HaltReason where
  | none | noAgreedRow | commitSetInvalid | noSoundSet | selfExcluded | soundSetGrew | timeFault
  deriving DecidableEq, Repr

structure Csr where
  wrAck : Bool := false
  controlEnable : Bool := false
  configRunId : BitVec 32 := 0
  configMembership : BitVec 32 := 0
  configEffectiveRound : BitVec 64 := 0
  activatePending : Bool := false
  deriving DecidableEq, Repr

structure Timing where
  previousSecond : BitVec 48 := 0
  secondValid : Bool := false
  timingArmed : Bool := false
  roundId : BitVec 64 := 0
  nextBoundaryNs : BitVec 32
  roundBaseNs : BitVec 32 := 0
  roundStartPulse : Bool := false
  timeFaultCount : BitVec 32 := 0
  timeFaultPrevious : Bool := false
  roundCount : BitVec 64 := 0
  currentSecondBase : BitVec 64 := 0
  nextSecondBase : BitVec 64 := 0
  deriving DecidableEq, Repr

structure Windows where
  txWindowPrevious : Bool := false
  txAdmitPrevious : Bool := false
  rxWindowPrevious : Bool := false
  txStartPulse : Bool := false
  txEndPulse : Bool := false
  rxStartPulse : Bool := false
  rxEndPulse : Bool := false
  deriving DecidableEq, Repr

structure HaltRecord where
  reason : HaltReason := .none
  roundId : BitVec 64 := 0
  selfRow : BitVec 8 := 0
  membership : BitVec 8 := 0
  soundSet : BitVec 8 := 0
  previousSoundSet : BitVec 8 := 0
  rows : Nat → BitVec 8 := fun _ => 0

-- The eight row registers are a function of the node id.
structure Protocol where
  state : FsmState := .idle
  currentStageRoundId : BitVec 64 := 0
  previousStageRoundId : BitVec 64 := 0
  currentStageValid : Bool := false
  previousStageValid : Bool := false
  currentStageProposals : BitVec 8 := 0
  previousStageProposals : BitVec 8 := 0
  previousStageRows : Nat → BitVec 8 := fun _ => 0
  currentRunId : BitVec 32 := 0
  currentSoundSet : BitVec 8 := 0
  installedMembership : BitVec 8 := 0
  txRoundId : BitVec 64 := 0
  txRunId : BitVec 32 := 0
  txRow : BitVec 8 := 0
  commitValid : Bool := false
  commitRoundId : BitVec 64 := 0
  commitSet : BitVec 8 := 0
  haltRecord : HaltRecord := {}
  commitCount : BitVec 64 := 0
  haltCount : BitVec 32 := 0
  configExcludesSelf : Bool := false

structure Core where
  csr : Csr
  timing : Timing
  windows : Windows
  protocol : Protocol

def powerUp (p : Parameters) : Core :=
  ⟨{},{nextBoundaryNs := BitVec.ofNat 32 p.roundLengthNs},{},{}⟩

inductive Register where
  | readOnly | control | configRunId | configMembership
  | configEffectiveRoundLow | configEffectiveRoundHigh
  deriving DecidableEq, Repr

-- Word addresses relative to the base; the others are not acknowledged.
def decode (p : Parameters) (addr : BitVec 24) : Option Register :=
  let offset := (addr &&& 0xFFFFFC#24) - p.rbBaseAddr
  if offset = 0x00C then some .control
  else if offset = 0x100 then some .configRunId
  else if offset = 0x104 then some .configMembership
  else if offset = 0x108 then some .configEffectiveRoundLow
  else if offset = 0x10C then some .configEffectiveRoundHigh
  else if offset ∈ [0x000#24,0x004#24,0x008#24,0x010#24,0x014#24,0x018#24,0x01C#24] then
    some .readOnly
  else none

namespace Core
variable (p : Parameters) (s : Core) (x : Inputs)

def regWrite : Option (Register × BitVec 32) :=
  if s.csr.wrAck then none
  else x.regWr.bind (fun w => (decode p w.addr).map (fun r => (r,w.data)))

def controlWrite : Option (BitVec 32) :=
  match s.regWrite p x with
  | some (.control,data) => some data
  | _ => none

def controlRebootPulse : Bool := (s.controlWrite p x).any (fun data => data.getLsbD 2)

/- Activation is looked at on the boundary pulse only. A membership without this node
consumes the request as well. -/
def activationDue : Bool :=
  (s.protocol.state = .waitActivate || s.protocol.state = .run) && s.csr.activatePending &&
    s.csr.configEffectiveRound ≤ s.timing.roundId

def activationIncludesSelf : Bool := s.csr.configMembership.getLsbD p.nodeId

def activationFires : Bool := s.activationDue && s.activationIncludesSelf p

def protocolActivateConsumed : Bool := s.timing.roundStartPulse && s.activationDue

def csrNext : Csr :=
  if x.rst then {}
  else
    let pending := s.csr.activatePending && !s.protocolActivateConsumed
    let c := {s.csr with wrAck := (s.regWrite p x).isSome, activatePending := pending}
    match s.regWrite p x with
    | some (.control,data) =>
      { c with
        controlEnable := data.getLsbD 0
        activatePending :=
          if data.getLsbD 2 then false else if data.getLsbD 1 then true else pending }
    | some (.configRunId,data) => if s.csr.activatePending then c else {c with configRunId := data}
    | some (.configMembership,data) =>
      if s.csr.activatePending then c else {c with configMembership := data}
    | some (.configEffectiveRoundLow,data) =>
      if s.csr.activatePending then c
      else {c with configEffectiveRound := s.csr.configEffectiveRound.extractLsb' 32 32 ++ data}
    | some (.configEffectiveRoundHigh,data) =>
      if s.csr.activatePending then c
      else {c with configEffectiveRound := data ++ s.csr.configEffectiveRound.extractLsb' 0 32}
    | _ => c

def timingRunning : Bool := x.enable && s.csr.controlEnable && x.ptpTimeValid

def secondChanged : Bool := s.timing.secondValid && x.ptpTodSec != s.timing.previousSecond

def secondAdvanced : Bool :=
  s.timingRunning x && s.secondChanged x && x.ptpTodSec == s.timing.previousSecond + 1

def secondJumped : Bool :=
  s.timingRunning x && s.secondChanged x && x.ptpTodSec != s.timing.previousSecond + 1

def roundBoundaryHit : Bool :=
  s.timingRunning x && s.timing.timingArmed && s.timing.nextBoundaryNs ≤ x.ptpTodNs

def timeMovedBackward : Bool :=
  s.timingRunning x && s.timing.timingArmed && x.ptpTodNs < s.timing.roundBaseNs &&
    !s.secondChanged x

def timeFault : Bool :=
  s.timingRunning x && (x.ptpStep || s.secondJumped x || s.timeMovedBackward x)

def roundIndexInSecondAtArm : BitVec 32 := x.ptpTodNs / BitVec.ofNat 32 p.roundLengthNs

def secondBase : BitVec 64 := x.ptpTodSec.setWidth 64 * BitVec.ofNat 64 p.roundsPerSecond

def timingLatch : Timing :=
  { s.timing with
    previousSecond := x.ptpTodSec
    secondValid := true
    roundStartPulse := false
    timeFaultPrevious := s.timeFault x
    currentSecondBase := secondBase p x
    nextSecondBase := secondBase p x + BitVec.ofNat 64 p.roundsPerSecond }

def timingReset : Timing :=
  { s.timingLatch p x with
    previousSecond := 0
    secondValid := false
    timingArmed := false
    roundId := 0
    nextBoundaryNs := BitVec.ofNat 32 p.roundLengthNs
    roundBaseNs := 0
    timeFaultCount := 0
    roundCount := 0
    timeFaultPrevious := false }

def timingDown : Timing :=
  { s.timingLatch p x with
    timingArmed := false
    roundId := 0
    nextBoundaryNs := BitVec.ofNat 32 p.roundLengthNs
    roundBaseNs := 0 }

def timingFaulted : Timing :=
  { s.timingLatch p x with
    timingArmed := false
    timeFaultCount :=
      if s.timing.timeFaultPrevious then s.timing.timeFaultCount else s.timing.timeFaultCount + 1 }

-- The round it lands in is a partial one, so arming gives no start pulse.
def timingArm : Timing :=
  { s.timingLatch p x with
    timingArmed := true
    roundId := s.timing.currentSecondBase + (roundIndexInSecondAtArm p x).setWidth 64
    roundBaseNs := roundIndexInSecondAtArm p x * BitVec.ofNat 32 p.roundLengthNs
    nextBoundaryNs := (roundIndexInSecondAtArm p x + 1) * BitVec.ofNat 32 p.roundLengthNs }

def timingRollover : Timing :=
  { s.timingLatch p x with
    roundId := s.timing.nextSecondBase
    roundBaseNs := 0
    nextBoundaryNs := BitVec.ofNat 32 p.roundLengthNs
    roundStartPulse := true
    roundCount := s.timing.roundCount + 1 }

def timingBoundary : Timing :=
  { s.timingLatch p x with
    roundId := s.timing.roundId + 1
    roundBaseNs := s.timing.nextBoundaryNs
    nextBoundaryNs := s.timing.nextBoundaryNs + BitVec.ofNat 32 p.roundLengthNs
    roundStartPulse := true
    roundCount := s.timing.roundCount + 1 }

def timingNext : Timing :=
  if x.rst then s.timingReset p x
  else if !s.timingRunning x then s.timingDown p x
  else if s.timeFault x then s.timingFaulted p x
  else if !s.timing.timingArmed && !s.secondChanged x then s.timingArm p x
  else if s.secondAdvanced x then s.timingRollover p x
  else if s.roundBoundaryHit x then s.timingBoundary p x
  else s.timingLatch p x

def roundOffsetNs : BitVec 32 := x.ptpTodNs - s.timing.roundBaseNs

def windowActive (opens closes : Nat) : Bool :=
  s.timing.timingArmed && BitVec.ofNat 32 opens ≤ s.roundOffsetNs x &&
    s.roundOffsetNs x < BitVec.ofNat 32 closes

def txWindowActive : Bool := s.windowActive x p.txStartOffsetNs p.txEndOffsetNs
def txAdmitActive : Bool := s.windowActive x p.txStartOffsetNs p.txAdmitOffsetNs
def rxWindowActive : Bool := s.windowActive x p.rxStartOffsetNs p.rxEndOffsetNs

def windowsNext : Windows :=
  if x.rst || !s.timingRunning x then {}
  else
    { txWindowPrevious := s.txWindowActive p x
      txAdmitPrevious := s.txAdmitActive p x
      rxWindowPrevious := s.rxWindowActive p x
      txStartPulse := s.txWindowActive p x && !s.windows.txWindowPrevious
      txEndPulse := !s.txWindowActive p x && s.windows.txWindowPrevious
      rxStartPulse := s.rxWindowActive p x && !s.windows.rxWindowPrevious
      rxEndPulse := !s.rxWindowActive p x && s.windows.rxWindowPrevious }

def protocolActive : Bool := s.protocol.state = .run
def oTxStartPulse : Bool := s.windows.txStartPulse && s.protocolActive
def oTxWindow : Bool := s.windows.txAdmitPrevious && s.protocolActive
def oRxWindow : Bool := s.windows.rxWindowPrevious && s.protocolActive
def oHalt : Bool := s.protocol.state = .halt

end Core

structure Scan where
  rowSelfMissing : Bool := false
  witnessMask : BitVec 8 := 0
  witnessCount : BitVec 4 := 0
  deriving DecidableEq, Repr

namespace Protocol
variable (p : Parameters) (q : Protocol)

def evalLocalRow : BitVec 8 :=
  if q.currentSoundSet.getLsbD p.nodeId then q.previousStageRows p.nodeId else 0

def evalMember (scan : Scan) (i : Nat) : Scan :=
  if q.currentSoundSet.getLsbD i then
    let row := q.previousStageRows i
    let scan :=
      if row ≠ 0 && !row.getLsbD i then {scan with rowSelfMissing := true} else scan
    if row = q.evalLocalRow p then
      { scan with
        witnessMask := scan.witnessMask ||| 1#8 <<< i
        witnessCount := scan.witnessCount + 1 }
    else scan
  else scan

def evalScan : Scan := (List.range p.nodeCount).foldl (q.evalMember p) {}

def evalAgreedRowValid : Bool :=
  !(q.evalScan p).rowSelfMissing && q.evalLocalRow p ≠ 0 &&
    BitVec.ofNat 4 p.quorum ≤ (q.evalScan p).witnessCount

def evalSoundSet : BitVec 8 := (q.evalScan p).witnessMask

def evalCommitSetValid : Bool :=
  q.evalAgreedRowValid p && q.evalLocalRow p &&& ~~~q.previousStageProposals = 0

def evalSoundSetShrinks : Bool := q.evalSoundSet p &&& q.currentSoundSet = q.evalSoundSet p

def evalHaltReason : HaltReason :=
  if !q.evalAgreedRowValid p then .noAgreedRow
  else if !q.evalCommitSetValid p then .commitSetInvalid
  else if q.evalSoundSet p = 0 then .noSoundSet
  else if !(q.evalSoundSet p).getLsbD p.nodeId then .selfExcluded
  else if !q.evalSoundSetShrinks p then .soundSetGrew
  else .none

def evalHalts : Bool := q.previousStageValid && q.evalHaltReason p ≠ .none
def evalCommits : Bool := q.previousStageValid && q.evalHaltReason p = .none

end Protocol

namespace Core
variable (p : Parameters) (s : Core) (x : Inputs)

def rxAccept (r : RxRow) : Bool :=
  s.protocol.state = .run && r.nodeId.toNat < p.nodeCount && r.nodeId.toNat ≠ p.nodeId &&
    s.protocol.currentSoundSet.getLsbD (r.nodeId.extractLsb' 0 3).toNat &&
    r.runId = s.protocol.currentRunId && r.roundId = s.timing.roundId

-- `o_rx_accepted`, with the frame it is about.
def rxAccepted : Option RxRow := x.rx.filter (s.rxAccept p)

/- Each block below takes the next values gathered so far and, like a non-blocking
assignment, reads the registers of `s`. -/
def packetArrival (q : Protocol) : Protocol :=
  match s.rxAccepted p x with
  | none => q
  | some r =>
    { q with
      currentStageProposals :=
        s.protocol.currentStageProposals ||| 1#8 <<< (r.nodeId.extractLsb' 0 3).toNat
      previousStageRows :=
        Function.update q.previousStageRows (r.nodeId.extractLsb' 0 3).toNat
          (r.row &&& p.memberMask) }

def openCurrentStage (q : Protocol) : Protocol :=
  { q with
    currentStageValid := true
    currentStageRoundId := s.timing.roundId
    currentStageProposals := p.selfBit }

def install (q : Protocol) : Protocol :=
  let members := s.csr.configMembership.setWidth 8 &&& p.memberMask
  { s.openCurrentStage p q with
    state := .run
    currentRunId := s.csr.configRunId
    installedMembership := members
    currentSoundSet := members
    previousStageValid := false
    previousStageRows := fun _ => 0
    txRoundId := s.timing.roundId
    txRunId := s.csr.configRunId
    txRow := p.selfBit
    configExcludesSelf := false }

def shift (q : Protocol) : Protocol :=
  { q with
    previousStageValid := s.protocol.currentStageValid
    previousStageRoundId := s.protocol.currentStageRoundId
    previousStageProposals := s.protocol.currentStageProposals
    previousStageRows := fun _ => 0 }

def haltAtBoundary (q : Protocol) : Protocol :=
  { q with
    state := .halt
    haltCount := s.protocol.haltCount + 1
    haltRecord :=
      { reason := s.protocol.evalHaltReason p
        roundId := s.protocol.previousStageRoundId
        selfRow := s.protocol.evalLocalRow p
        membership := s.protocol.installedMembership
        soundSet := s.protocol.evalSoundSet p
        previousSoundSet := s.protocol.currentSoundSet
        rows := s.protocol.previousStageRows } }

def commit (q : Protocol) : Protocol :=
  { q with
    currentSoundSet := s.protocol.evalSoundSet p
    commitCount := s.protocol.commitCount + 1
    commitValid := true
    commitRoundId := s.protocol.previousStageRoundId
    commitSet := s.protocol.evalLocalRow p }

def advertise (q : Protocol) : Protocol :=
  { s.openCurrentStage p q with
    previousStageRows :=
      Function.update q.previousStageRows p.nodeId s.protocol.currentStageProposals
    txRoundId := s.timing.roundId
    txRunId := s.protocol.currentRunId
    txRow := s.protocol.currentStageProposals }

def runBoundary (q : Protocol) : Protocol :=
  let q := s.shift q
  if s.protocol.evalHalts p then s.haltAtBoundary p q
  else s.advertise p (if s.protocol.evalCommits p then s.commit p q else q)

def stateBoundary (q : Protocol) : Protocol :=
  match s.protocol.state with
  | .idle => if s.csr.activatePending then {q with state := .waitActivate} else q
  | .waitActivate => q
  | .run => s.runBoundary p q
  | .halt => q

def roundBoundary (q : Protocol) : Protocol :=
  if !s.timing.roundStartPulse then q
  else if s.activationFires p then s.install p q
  else if s.activationDue then {q with configExcludesSelf := true, state := .idle}
  else s.stateBoundary p q

def timingLost : Bool := s.timeFault x || !x.ptpTimeValid

def protocolStop : Bool := s.controlRebootPulse p x || !x.enable || !s.csr.controlEnable

def haltOnTiming (q : Protocol) : Protocol :=
  if s.timingLost x && s.protocol.state = .run then
    { q with
      state := .halt
      haltCount := s.protocol.haltCount + 1
      haltRecord :=
        { q.haltRecord with
          reason := .timeFault
          roundId := s.timing.roundId
          selfRow := 0
          membership := s.protocol.installedMembership
          soundSet := s.protocol.currentSoundSet
          previousSoundSet := s.protocol.currentSoundSet } }
  else q

def stop (q : Protocol) : Protocol :=
  if s.protocolStop p x then
    { q with
      state := .idle
      currentStageValid := false
      previousStageValid := false
      txRow := 0
      commitValid := false }
  else q

def reboot (q : Protocol) : Protocol :=
  if s.controlRebootPulse p x then
    { q with
      haltRecord := {q.haltRecord with reason := .none}
      configExcludesSelf := false
      currentRunId := 0
      currentSoundSet := 0
      installedMembership := 0 }
  else q

def reset (q : Protocol) : Protocol :=
  if x.rst then
    { q with
      state := .idle
      txRoundId := 0
      txRunId := 0
      txRow := 0
      commitValid := false
      commitRoundId := 0
      commitSet := 0
      currentRunId := 0
      currentSoundSet := 0
      installedMembership := 0
      currentStageValid := false
      previousStageValid := false
      currentStageProposals := 0
      previousStageProposals := 0
      haltRecord := {}
      commitCount := 0
      haltCount := 0
      configExcludesSelf := false }
  else q

def protocolNext : Protocol :=
  let q := s.packetArrival p x {s.protocol with commitValid := false}
  let q := s.roundBoundary p q
  let q := s.haltOnTiming x q
  let q := s.stop p x q
  let q := s.reboot p x q
  reset x q

def next : Core := ⟨s.csrNext p x,s.timingNext p x,s.windowsNext p x,s.protocolNext p x⟩

end Core
end Syncons.ConsensusCore
