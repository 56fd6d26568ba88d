import Syncons.Node
import Syncons.ControlPlane

/-! The cluster: one control plane, the nodes, the packets in flight and the
stored commit histories, advanced round by round. -/
namespace Syncons
open Dict (Map)
open Outcome (Py)

/- Parameters of a run. A fault model is consulted once for each packet and
destination, so a function of the two covers a model with private state. -/
structure ClusterRun where
  nodeCount : Nat
  rounds : Nat
  timing : SimulationTiming := {}
  payloadFactory : PayloadFactory
  networkFaultModel : NetworkFaultModel
  nodeFaultModel : NodeFaultModel
  hash : LogHash

structure ScheduledDelivery where
  dst : Nat
  packet : Packet
  faultApplied : Bool
  deriving DecidableEq, Repr

structure Cluster where
  controlPlane : OnlineRejoinControlPlane
  nodes : Nat → Node
  scheduledDeliveries : Map Int (List ScheduledDelivery)
  controlPlaneEvents : List ControlPlaneEvent
  commitHistoryByNode : Nat → List CommittedRoundRecord
  lastControlPlaneUpdates : Nat → Option ControlPlaneUpdate

namespace Cluster

def init (run : ClusterRun) : Cluster :=
  { controlPlane := {timing := run.timing}
    nodes := fun i => Node.init ⟨i,run.nodeCount,run.payloadFactory,run.hash⟩
    scheduledDeliveries := ∅
    controlPlaneEvents := []
    commitHistoryByNode := fun _ => []
    lastControlPlaneUpdates := fun _ => none }

end Cluster

namespace ClusterRun

def params (run : ClusterRun) (i : Nat) : NodeParams :=
  ⟨i,run.nodeCount,run.payloadFactory,run.hash⟩

def roundStartNs (run : ClusterRun) (roundId : Int) : Int := roundId * run.timing.roundLengthNs

def repairLogSnapshots (run : ClusterRun) (s : Cluster) : List RepairSnapshot :=
  (List.range run.nodeCount).map
    (fun i => ⟨i,(s.commitHistoryByNode i).map (fun entry => entry.withTiming)⟩)

def submitControlPlaneEvent (s : Cluster) (event : ControlPlaneEvent) : Py Cluster := do
  let cp ← s.controlPlane.observeEvent event
  .ok {s with controlPlaneEvents := s.controlPlaneEvents ++ [event], controlPlane := cp}

def forwarded (run : ClusterRun) (roundId : Int) (event : NodeEvent) : ControlPlaneEvent :=
  { event with
    round := some roundId
    availableAtNs :=
      if event.kind = .nodeHalted ∨ event.kind = .nodeCrashed then
        run.roundStartNs roundId + run.timing.haltReportDelayNs
      else run.roundStartNs roundId }

def buildControlPlaneUpdate (nodeId : Nat) (state : ControlPlaneState) : ControlPlaneUpdate :=
  { installedConfig := state.installedConfig
    membershipState := Dict.getD state.nodeStates nodeId .failed
    pendingConfig := state.pendingConfig
    repairLog := state.repairLogs.lookup nodeId }

def pushControlPlaneUpdate (state : ControlPlaneState) (s : Cluster) (i : Nat) : Cluster :=
  let update := buildControlPlaneUpdate i state
  if s.lastControlPlaneUpdates i = some update then s
  else
    { s with
      commitHistoryByNode :=
        match update.repairLog with
        | none => s.commitHistoryByNode
        | some log => Function.update s.commitHistoryByNode i log.entries
      nodes := Function.update s.nodes i ((s.nodes i).pushControlPlaneUpdate update)
      lastControlPlaneUpdates := Function.update s.lastControlPlaneUpdates i (some update) }

def pushControlPlaneUpdates (run : ClusterRun) (state : ControlPlaneState) (s : Cluster) : Cluster :=
  (List.range run.nodeCount).foldl (pushControlPlaneUpdate state) s

def schedulePacketDelivery (scheduled : Map Int (List ScheduledDelivery)) (deliverRound : Int)
    (item : ScheduledDelivery) : Map Int (List ScheduledDelivery) :=
  scheduled.insert deliverRound (Dict.getD scheduled deliverRound [] ++ [item])

def materializePacket (packet : Packet) (overrides : PacketOverrides) : Packet :=
  { roundId := overrides.packetRoundOverride.getD packet.roundId
    srcId := packet.srcId
    runId := overrides.runIdOverride.getD packet.runId
    row := overrides.rowOverride.getD packet.row
    payload := overrides.payloadOverride.getD packet.payload }

def scheduleOutboundPacket (scheduled : Map Int (List ScheduledDelivery)) (outbound : OutboundPacket) :
    Map Int (List ScheduledDelivery) :=
  outbound.destinations.foldl
    (fun scheduled dst =>
      schedulePacketDelivery scheduled outbound.packet.roundId ⟨dst,outbound.packet,false⟩)
    scheduled

structure NetworkPass where
  nodes : Nat → Node
  scheduled : Map Int (List ScheduledDelivery)
  appended : List ScheduledDelivery

def deliver (pass : NetworkPass) (item : ScheduledDelivery) : NetworkPass :=
  {pass with nodes := Function.update pass.nodes item.dst ((pass.nodes item.dst).receive item.packet)}

def place (roundId : Int) (pass : NetworkPass) (targetRound : Int) (item : ScheduledDelivery) :
    NetworkPass :=
  if targetRound > roundId then
    {pass with scheduled := schedulePacketDelivery pass.scheduled targetRound item}
  else {pass with appended := pass.appended ++ [item]}

def consult (run : ClusterRun) (roundId : Int) (pass : NetworkPass) (item : ScheduledDelivery) :
    NetworkPass :=
  if item.faultApplied then deliver pass item
  else
    let delivery := run.networkFaultModel item.packet item.dst
    match delivery.deliverRound with
    | none => pass
    | some targetRound =>
      let materialized := materializePacket item.packet delivery.toPacketOverrides
      let copy : ScheduledDelivery := ⟨item.dst,materialized,true⟩
      let pass := place roundId pass targetRound copy
      let pass :=
        {pass with
          scheduled := delivery.extraDeliverRounds.foldl
            (fun scheduled extraRound => schedulePacketDelivery scheduled extraRound copy)
            pass.scheduled}
      delivery.extraCopies.foldl
        (fun pass extra =>
          place roundId pass extra.deliverRound
            ⟨item.dst,materializePacket item.packet extra.toPacketOverrides,true⟩)
        pass

/- The loop walks the popped list while appending to it. Appended entries have
their fault applied, so a second pass over them ends it. -/
def advanceNetwork (run : ClusterRun) (roundId : Int) (s : Cluster) : Cluster :=
  let deliveries := Dict.getD s.scheduledDeliveries roundId []
  let pass := deliveries.foldl (consult run roundId)
    ⟨s.nodes,s.scheduledDeliveries.erase roundId,[]⟩
  let pass := pass.appended.foldl deliver pass
  {s with nodes := pass.nodes, scheduledDeliveries := pass.scheduled}

def controlPhase (run : ClusterRun) (roundId : Int) (s : Cluster) : Py Cluster := do
  let cp ← s.controlPlane.advanceToTime (run.repairLogSnapshots s) (run.roundStartNs roundId)
    run.nodeCount
  let cp ← cp.call (run.repairLogSnapshots s) roundId run.nodeCount
  let state ← Outcome.require cp.currentState
  .ok (run.pushControlPlaneUpdates state {s with controlPlane := cp})

def faulted (run : ClusterRun) (roundId : Int) (i : Nat) (n : Node) : Node :=
  if run.nodeFaultModel i roundId then n else n.crash (run.params i) roundId

def advanced (run : ClusterRun) (roundId : Int) (i : Nat) (n : Node) : Node × NodeRoundResult :=
  (run.faulted roundId i n).advanceRound (run.params i) roundId

def timedEntries (run : ClusterRun) (roundId : Int) (commits : List CommittedRound) :
    List CommittedRoundRecord :=
  commits.map (fun entry => .fromCommittedRound entry (some (run.roundStartNs roundId))
    (some (run.roundStartNs roundId + run.timing.appDeliveryDelayNs)))

def nodeTurn (run : ClusterRun) (roundId : Int) (s : Cluster) (i : Nat) : Py Cluster := do
  let (node,result) := run.advanced roundId i (s.nodes i)
  let (events,node) := node.pullControlPlaneEvents
  let s :=
    { s with
      nodes := Function.update s.nodes i node
      commitHistoryByNode := Function.update s.commitHistoryByNode i
        (s.commitHistoryByNode i ++ run.timedEntries roundId result.newCommits) }
  let s ← (events.map (run.forwarded roundId)).foldlM submitControlPlaneEvent s
  match result.outbound with
  | none => .ok s
  | some outbound =>
    .ok {s with scheduledDeliveries := scheduleOutboundPacket s.scheduledDeliveries outbound}

def runRound (run : ClusterRun) (s : Cluster) (roundId : Nat) : Py Cluster := do
  let s ← run.controlPhase roundId s
  let s ← (List.range run.nodeCount).foldlM (run.nodeTurn roundId) s
  .ok (run.advanceNetwork roundId s)

def simulate (run : ClusterRun) : Py Cluster :=
  (List.range run.rounds).foldlM run.runRound (Cluster.init run)

end ClusterRun
end Syncons
