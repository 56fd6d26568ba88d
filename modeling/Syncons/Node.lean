import Syncons.Types

/-! One node of the protocol: agreed rows, sound and commit sets, the two-stage
pipeline, the control-plane mailbox and the round boundary. -/
namespace Syncons
open Dict (Map)

/- SHA-256 of an encoded text and the canonical JSON of a log step
`{previous_digest, entry}` are uninterpreted functions. -/
structure LogHash where
  sha256 : String → String
  dumps : String → CommittedRound → String

structure NodeParams where
  nodeId : Nat
  nodeCount : Nat
  payloadFactory : PayloadFactory
  hash : LogHash

inductive StatusReason where
  | rebootedUnderControlPlane | crashFault | halt (reason : HaltReason)
  deriving DecidableEq, Repr

structure Node where
  status : NodeStatus := .running
  currentRound : Int := 0
  statusReason : Option StatusReason := none
  committedFrontier : Int := -1
  lastCommittedSoundSet : Option Nat := none
  commitDigest : String
  haltedRound : Option Int := none
  haltDetails : Option HaltRecord := none
  membershipState : MembershipState := .active
  installedMembershipEpoch : Int := 0
  installedMembership : Nat
  currentSoundSet : Nat
  runId : Int := 0
  pendingConfig : Option PendingConfig := none
  currentStage : RoundStage
  previousStage : RoundStage
  commitStage : RoundStage
  controlPlaneEventOutbox : List NodeEvent := []
  pendingControlPlaneUpdate : Option ControlPlaneUpdate := none
  controlPlaneIrqPending : Bool := false

def emptyDigest (hash : LogHash) : String := hash.sha256 "syncons-log-empty"

namespace Node

def init (p : NodeParams) : Node :=
  { commitDigest := emptyDigest p.hash
    installedMembership := bit p.nodeCount - 1
    currentSoundSet := bit p.nodeCount - 1
    currentStage := {roundId := -1}
    previousStage := {roundId := -1}
    commitStage := {roundId := -2} }

-- The quorum universe is the physical cluster, never the installed membership.
def quorum (p : NodeParams) : Nat := max 1 (p.nodeCount / 2 + 1)

def observationRows (p : NodeParams) (stage : RoundStage) : List (Nat × Nat) :=
  (bitmapMembers stage.installedMembership p.nodeCount).map
    (fun member => (member,Dict.getD stage.rows member 0))

def rowIsValid (src row : Nat) : Bool := row == 0 || row.testBit src

def agreedRow (p : NodeParams) (stage : RoundStage) : Option Nat :=
  let rows := observationRows p stage
  if rows.all (fun entry => rowIsValid entry.1 entry.2) then
    let localRow := (rows.lookup p.nodeId).getD 0
    if localRow = 0 then none
    else if (rows.filter (fun entry => entry.2 == localRow)).length < quorum p then none
    else some localRow
  else none

def soundSet (p : NodeParams) (stage : RoundStage) : Option Nat := do
  let agreed ← agreedRow p stage
  some ((observationRows p stage).foldl
    (fun core entry => if entry.2 = agreed then core ||| bit entry.1 else core) 0)

def commitSet (p : NodeParams) (stage : RoundStage) : Option Nat := do
  let agreed ← agreedRow p stage
  if (bitmapMembers agreed p.nodeCount).any (fun member => (stage.proposals.lookup member).isNone)
  then none
  else some agreed

def resetPipeline (n : Node) : Node :=
  { n with
    currentSoundSet := n.installedMembership
    currentStage := ⟨-1,n.installedMembershipEpoch,n.installedMembership,0,∅,∅⟩
    previousStage := ⟨-1,n.installedMembershipEpoch,n.installedMembership,0,∅,∅⟩
    commitStage := ⟨-2,n.installedMembershipEpoch,n.installedMembership,0,∅,∅⟩ }

def pendingDue (n : Node) (roundId : Int) : Option PendingConfig :=
  match n.pendingConfig with
  | none => none
  | some pending =>
    if pending.status ≠ .committed then none
    else if roundId < pending.effectiveRound then none
    else some pending

def activatePendingConfigIfDue (n : Node) (roundId : Int) : Node :=
  match n.pendingDue roundId with
  | none => n
  | some pending =>
    resetPipeline
      { n with
        installedMembershipEpoch := pending.membershipEpoch
        installedMembership := pending.membersBitmap
        currentSoundSet := pending.membersBitmap
        runId := pending.runId
        pendingConfig := none
        membershipState := .active }

def emitControlPlaneEvent (n : Node) (event : NodeEvent) : Node :=
  {n with controlPlaneEventOutbox := n.controlPlaneEventOutbox ++ [event]}

def pullControlPlaneEvents (n : Node) : List NodeEvent × Node :=
  (n.controlPlaneEventOutbox,{n with controlPlaneEventOutbox := []})

def pushControlPlaneUpdate (n : Node) (update : ControlPlaneUpdate) : Node :=
  {n with pendingControlPlaneUpdate := some update, controlPlaneIrqPending := true}

def extendLogDigest (hash : LogHash) (previousDigest : String) (entry : CommittedRound) : String :=
  hash.sha256 (hash.dumps previousDigest entry)

def digestForCommittedRounds (hash : LogHash) (rounds : List CommittedRoundRecord) : String :=
  rounds.foldl (fun digest entry => extendLogDigest hash digest entry.toCommittedRound)
    (emptyDigest hash)

def shouldInstallRepairLog (p : NodeParams) (n : Node) (log : RepairLog) : Bool :=
  let repairFrontier := (log.entries.getLast?.map (fun entry => entry.round)).getD (-1)
  if repairFrontier ≠ n.committedFrontier then true
  else digestForCommittedRounds p.hash log.entries != n.commitDigest

-- A log without entries is falsy, so it returns before anything is written.
def installRepairLog (p : NodeParams) (n : Node) (log : RepairLog) : Node :=
  match log.entries.getLast? with
  | none => n
  | some last =>
    { n with
      committedFrontier := last.round
      lastCommittedSoundSet := none
      commitDigest := digestForCommittedRounds p.hash log.entries }

-- The two conditions under which an update ends in `_reset_pipeline`.
def updateResets (n : Node) (update : ControlPlaneUpdate) : Bool :=
  (n.membershipState != .active && update.membershipState == .active) ||
  n.installedMembershipEpoch != update.installedConfig.membershipEpoch ||
  n.installedMembership != update.installedConfig.membersBitmap ||
  n.runId != update.installedConfig.runId

def rebootIfAuthorized (n : Node) (membershipState : MembershipState) : Node :=
  if (n.status = .crashed ∨ n.status = .halted) ∧
      (membershipState = .recovering ∨ membershipState = .rejoinPending ∨ membershipState = .active)
  then
    { n with
      status := .running
      statusReason := some .rebootedUnderControlPlane
      haltedRound := none
      haltDetails := none }
  else n

def installRepairLogIfNew (p : NodeParams) (n : Node) : Option RepairLog → Node
  | none => n
  | some log => if n.shouldInstallRepairLog p log then n.installRepairLog p log else n

def applyControlPlaneUpdate (p : NodeParams) (previous : Node) (update : ControlPlaneUpdate) : Node :=
  let n :=
    { previous with
      installedMembershipEpoch := update.installedConfig.membershipEpoch
      installedMembership := update.installedConfig.membersBitmap
      currentSoundSet := update.installedConfig.membersBitmap
      runId := update.installedConfig.runId
      pendingConfig := update.pendingConfig
      membershipState := update.membershipState }
  let n := n.rebootIfAuthorized update.membershipState
  let n := n.installRepairLogIfNew p update.repairLog
  if previous.updateResets update then n.resetPipeline else n

def prepareAckEvent (p : NodeParams) (pending : PendingConfig) : NodeEvent :=
  { kind := .prepareAck
    nodeId := p.nodeId
    config := some
      ⟨some pending.membershipEpoch,some pending.membersBitmap,some pending.effectiveRound,
        some pending.runId,some pending.status⟩ }

-- A PREPARED config is acknowledged when it differs from the one held before.
def acknowledge (p : NodeParams) (n : Node) (previousPending : Option PendingConfig) : Node :=
  match n.pendingConfig with
  | none => n
  | some pending =>
    if pending.status = .prepared ∧ some pending ≠ previousPending then
      n.emitControlPlaneEvent (prepareAckEvent p pending)
    else n

def pullControlPlaneUpdate (p : NodeParams) (n : Node) : Node :=
  match n.controlPlaneIrqPending,n.pendingControlPlaneUpdate with
  | true,some update =>
    let cleared := {n with pendingControlPlaneUpdate := none, controlPlaneIrqPending := false}
    (cleared.applyControlPlaneUpdate p update).acknowledge p n.pendingConfig
  | _,_ => n

def newCurrentStage (p : NodeParams) (n : Node) (roundId : Int) : RoundStage :=
  { roundId := roundId
    membershipEpoch := n.installedMembershipEpoch
    installedMembership := n.installedMembership
    row := bit p.nodeId
    proposals := Finmap.singleton p.nodeId (p.payloadFactory p.nodeId roundId)
    rows := ∅ }

def defaultDestinations (p : NodeParams) (n : Node) : List Nat :=
  (bitmapMembers n.installedMembership p.nodeCount).filter (fun member => member ≠ p.nodeId)

def committedFrontier? (n : Node) : Option Int :=
  if n.committedFrontier < 0 then none else some n.committedFrontier

inductive Decision where
  | halt | skip | continue
  deriving DecidableEq, Repr

structure Evaluation where
  node : Node
  decision : Decision
  soundSet : Option Nat
  newCommits : List CommittedRound

def buildHaltRecord (p : NodeParams) (n : Node) (stage : RoundStage) (rows : List (Nat × Nat))
    (localRow : Nat) (haltReason : HaltReason) : HaltRecord :=
  { failedRound := stage.roundId
    membershipEpoch := stage.membershipEpoch
    installedMembershipEpoch := stage.membershipEpoch
    runId := n.runId
    installedMembership := stage.installedMembership
    quorum := quorum p
    observationRows := rows
    selfRow := localRow
    committedFrontier := n.committedFrontier?
    soundSetLineage := n.lastCommittedSoundSet
    logDigest := n.commitDigest
    haltReason := haltReason }

def enterHaltState (p : NodeParams) (n : Node) (stage : RoundStage) (rows : List (Nat × Nat))
    (localRow : Nat) (haltReason : HaltReason) : Evaluation :=
  let record := n.buildHaltRecord p stage rows localRow haltReason
  let halted :=
    { n with
      status := .halted
      haltedRound := some n.currentRound
      statusReason := some (.halt haltReason)
      haltDetails := some record }
  ⟨halted.emitControlPlaneEvent ⟨.nodeHalted,p.nodeId,none,some record⟩,.halt,none,[]⟩

/- The commit set names only members whose proposals are held, so the restriction
below drops nothing. -/
def committedRound (p : NodeParams) (stage : RoundStage) (commitSet : Nat) : CommittedRound :=
  ⟨stage.roundId,stage.membershipEpoch,commitSet,
    Dict.restrict stage.proposals (bitmapMembers commitSet p.nodeCount)⟩

def evaluateRoundBoundary (p : NodeParams) (n : Node) (stage? : Option RoundStage := none) : Evaluation :=
  let stage := stage?.getD n.commitStage
  if stage.roundId < 0 then ⟨n,.skip,none,[]⟩
  else
    let rows := observationRows p stage
    let localRow := Dict.getD stage.rows p.nodeId 0
    match agreedRow p stage,commitSet p stage,soundSet p stage with
    | none,_,_ => n.enterHaltState p stage rows localRow .noAgreedRow
    | some _,none,_ => n.enterHaltState p stage rows localRow .commitSetNotValid
    | some _,some _,none => n.enterHaltState p stage rows localRow .noSoundSet
    | some _,some commitSet,some soundSet =>
      if soundSet.testBit p.nodeId = false then
        n.enterHaltState p stage rows localRow .localNodeExcludedFromSoundSet
      else if soundSet &&& n.currentSoundSet ≠ soundSet then
        n.enterHaltState p stage rows localRow .soundSetNotSubsetOfPreviousSet
      else
        let committed := committedRound p stage commitSet
        ⟨{ n with
            committedFrontier := committed.round
            lastCommittedSoundSet := some soundSet
            commitDigest := extendLogDigest p.hash n.commitDigest committed },
          .continue,some soundSet,[committed]⟩

/- The critical section of a round: judge the previous stage, shift the pipeline,
file the own row and, unless halted, broadcast it. -/
def crossBoundary (p : NodeParams) (n : Node) (newRound : Int) : Node × NodeRoundResult :=
  let judgedStage := n.previousStage
  let n := {n with previousStage := n.currentStage}
  let result := n.evaluateRoundBoundary p (some judgedStage)
  let n := result.node
  let n := {n with currentSoundSet := result.soundSet.getD n.currentSoundSet}
  let filed :=
    {n.previousStage with rows := n.previousStage.rows.insert p.nodeId n.previousStage.row}
  let n := {n with previousStage := filed}
  let n := {n with currentStage := n.newCurrentStage p newRound}
  if result.decision = .halt then (n,⟨none,result.newCommits⟩)
  else
    let packet : Packet :=
      { roundId := newRound
        srcId := p.nodeId
        runId := n.runId
        row := n.previousStage.row
        payload := Dict.getD n.currentStage.proposals p.nodeId "" }
    (n,⟨some ⟨packet,n.defaultDestinations p⟩,result.newCommits⟩)

def masked (n : Node) (newRound : Int) : Prop :=
  n.status = .crashed ∧ n.haltedRound = some newRound
instance (n : Node) (newRound : Int) : Decidable (n.masked newRound) := by
  unfold masked; infer_instance

def participates (p : NodeParams) (n : Node) : Prop :=
  n.status = .running ∧ n.membershipState = .active ∧ n.currentSoundSet.testBit p.nodeId
instance (p : NodeParams) (n : Node) : Decidable (n.participates p) := by
  unfold participates; infer_instance

def configure (p : NodeParams) (n : Node) (newRound : Int) : Node :=
  (n.activatePendingConfigIfDue newRound).pullControlPlaneUpdate p

def advanceRound (p : NodeParams) (n : Node) (newRound : Int) : Node × NodeRoundResult :=
  let n := {n with currentRound := newRound}
  if n.masked newRound then (n,⟨none,[]⟩)
  else
    let n := n.configure p newRound
    if n.participates p then n.crossBoundary p newRound
    else (n,⟨none,[]⟩)

def receive (n : Node) (packet : Packet) : Node :=
  if n.status ≠ .running then n
  else if n.membershipState ≠ .active then n
  else if n.currentSoundSet.testBit packet.srcId = false then n
  else if packet.runId ≠ n.runId then n
  else if packet.roundId = n.currentRound then
    { n with
      currentStage :=
        { n.currentStage with
          row := n.currentStage.row ||| bit packet.srcId
          proposals := n.currentStage.proposals.insert packet.srcId packet.payload }
      previousStage :=
        {n.previousStage with rows := n.previousStage.rows.insert packet.srcId packet.row} }
  else n

def crash (p : NodeParams) (n : Node) (roundId : Int) : Node :=
  if n.status = .running then
    { n with
      status := .crashed
      statusReason := some .crashFault
      haltedRound := some roundId }.emitControlPlaneEvent ⟨.nodeCrashed,p.nodeId,none,none⟩
  else n

end Node
end Syncons
