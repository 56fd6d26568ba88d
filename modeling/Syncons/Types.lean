import Syncons.Dict
import Syncons.Outcome

/-! Data model of the protocol: bitmaps, node and membership states, packets,
round stages, committed rounds and control-plane records. Rounds, run ids,
epochs and times are unbounded integers; bitmaps and node ids are naturals. -/
namespace Syncons
open Dict (Map)
open Outcome (Py)

def bit (i : Nat) : Nat := 1 <<< i

def bitmapSet (nodeCount : Nat) : List Nat → Py Nat
  | [] => .ok 0
  | member :: rest => do
    if member < nodeCount then
      let value ← bitmapSet nodeCount rest
      .ok (bit member ||| value)
    else .error .valueError

def bitmapMembers (bitmap nodeCount : Nat) : List Nat :=
  (List.range nodeCount).filter (fun idx => bitmap.testBit idx)

inductive NodeStatus where
  | running | halted | crashed
  deriving DecidableEq, Repr

inductive MembershipState where
  | active | failed | recovering | rejoinPending
  deriving DecidableEq, Repr

inductive PendingConfigStatus where
  | prepared | committed
  deriving DecidableEq, Repr

structure SimulationTiming where
  roundLengthNs : Int := 4000
  haltReportDelayNs : Int := 10000
  cpCollectionDelayNs : Int := 20000
  cpDecisionDelayNs : Int := 15000
  repairDelayNs : Int := 50000
  installDelayNs : Int := 20000
  reentryDelayNs : Int := 10000
  appDeliveryDelayNs : Int := 5000
  deriving DecidableEq, Repr

structure Packet where
  roundId : Int
  srcId : Nat
  runId : Int
  row : Nat
  payload : String
  deriving DecidableEq, Repr

structure OutboundPacket where
  packet : Packet
  destinations : List Nat
  deriving DecidableEq, Repr

structure RoundStage where
  roundId : Int
  membershipEpoch : Int := 0
  installedMembership : Nat := 0
  row : Nat := 0
  proposals : Map Nat String := ∅
  rows : Map Nat Nat := ∅

structure CommittedRound where
  round : Int
  membershipEpoch : Int
  commitSet : Nat
  proposals : Map Nat String
  deriving DecidableEq

structure CommittedRoundRecord extends CommittedRound where
  commitTimeNs : Option Int := none
  appDeliveryTimeNs : Option Int := none
  deriving DecidableEq

-- An absent argument keeps the recorded time.
def CommittedRoundRecord.withTiming (record : CommittedRoundRecord)
    (commitTimeNs appDeliveryTimeNs : Option Int := none) : CommittedRoundRecord :=
  {record with
    commitTimeNs := commitTimeNs.or record.commitTimeNs
    appDeliveryTimeNs := appDeliveryTimeNs.or record.appDeliveryTimeNs}

def CommittedRoundRecord.fromCommittedRound (committed : CommittedRound)
    (commitTimeNs appDeliveryTimeNs : Option Int := none) : CommittedRoundRecord :=
  {committed with commitTimeNs := commitTimeNs, appDeliveryTimeNs := appDeliveryTimeNs}

structure NodeRoundResult where
  outbound : Option OutboundPacket
  newCommits : List CommittedRound
  deriving DecidableEq

structure RepairLog where
  entries : List CommittedRoundRecord := []
  deriving DecidableEq

structure RepairSnapshot where
  nodeId : Nat
  committedRounds : List CommittedRoundRecord
  deriving DecidableEq

inductive HaltReason where
  | noAgreedRow | commitSetNotValid | noSoundSet
  | localNodeExcludedFromSoundSet | soundSetNotSubsetOfPreviousSet
  deriving DecidableEq, Repr

structure HaltRecord where
  failedRound : Int
  membershipEpoch : Int
  installedMembershipEpoch : Int
  runId : Int
  installedMembership : Nat
  quorum : Nat
  observationRows : List (Nat × Nat)
  selfRow : Nat
  committedFrontier : Option Int
  soundSetLineage : Option Nat
  logDigest : String
  haltReason : HaltReason
  deriving DecidableEq, Repr

-- The override fields a delivery and an extra copy share.
structure PacketOverrides where
  packetRoundOverride : Option Int := none
  runIdOverride : Option Int := none
  rowOverride : Option Nat := none
  payloadOverride : Option String := none
  deriving DecidableEq, Repr

structure DeliveryCopy extends PacketOverrides where
  deliverRound : Int
  deriving DecidableEq, Repr

structure Delivery extends PacketOverrides where
  deliverRound : Option Int
  extraDeliverRounds : List Int := []
  extraCopies : List DeliveryCopy := []
  deriving DecidableEq, Repr

abbrev NetworkFaultModel := Packet → Nat → Delivery
abbrev PayloadFactory := Nat → Int → String
abbrev NodeFaultModel := Nat → Int → Bool

structure InstalledConfig where
  membershipEpoch : Int
  membersBitmap : Nat
  runId : Int := 0
  deriving DecidableEq, Repr

structure PendingConfig where
  membershipEpoch : Int
  membersBitmap : Nat
  effectiveRound : Int
  runId : Int := 0
  status : PendingConfigStatus := .prepared
  deriving DecidableEq, Repr

structure ControlPlaneState where
  installedConfig : InstalledConfig
  nodeStates : Map Nat MembershipState
  pendingConfig : Option PendingConfig := none
  repairLogs : Map Nat RepairLog := ∅

structure ControlPlaneUpdate where
  installedConfig : InstalledConfig
  membershipState : MembershipState
  pendingConfig : Option PendingConfig := none
  repairLog : Option RepairLog := none
  deriving DecidableEq

/- Events are dictionaries in the source. The control plane reads only the keys
below, with the defaults its lookups give to absent ones. -/
inductive EventKind where
  | nodeCrashed | nodeHalted | prepareAck | other (kind : String)
  deriving DecidableEq, Repr

structure EventConfig where
  membershipEpoch : Option Int := none
  membersBitmap : Option Nat := none
  effectiveRound : Option Int := none
  runId : Option Int := none
  status : Option PendingConfigStatus := none
  deriving DecidableEq, Repr

structure NodeEvent where
  kind : EventKind
  nodeId : Nat
  config : Option EventConfig := none
  haltRecord : Option HaltRecord := none
  deriving DecidableEq, Repr

structure ControlPlaneEvent extends NodeEvent where
  round : Option Int := none
  availableAtNs : Int
  deriving DecidableEq, Repr

end Syncons
