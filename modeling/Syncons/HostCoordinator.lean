import Syncons.HostAgent
import Syncons.Runs

/-! The coordinator over its agents. An operation is sent to every agent at once; when an
agent's answer is not the expected one the coordinator goes back to Idle, and nothing undoes
what the other agents have done. -/
namespace Syncons.Ssr
open Runs (System Move Ran)
open Methods

inductive CoordinatorState where
  | idle | ready | running | stopped
  deriving DecidableEq, Repr

def CoordinatorState.value : CoordinatorState → Nat
  | idle => 0
  | ready => 1
  | running => 2
  | stopped => 3

structure AgentRPCResult where
  nodeId : NodeId
  status : Status
  reply : AgentReply
  deriving DecidableEq, Repr

def AgentRPCResult.ok (result : AgentRPCResult) : Bool := result.status.code = .ok

def setLocalError (result : AgentRPCResult) (code : StatusCode) (message : String) :
    AgentRPCResult := {result with status := ⟨code,message⟩}

def validateReply (expectedAgent : ProtoAgentState) (expectedDataplane : ProtoDataplaneState)
    (result : AgentRPCResult) : AgentRPCResult :=
  if !result.ok then result
  else if result.reply.nodeId ≠ result.nodeId then
    setLocalError result .dataLoss "Node ID mismatch in reply"
  else if result.reply.state ≠ expectedAgent then
    setLocalError result .failedPrecondition "Unexpected agent state in reply"
  else
    match result.reply.dataplaneStatus with
    | some status =>
      if status.state ≠ expectedDataplane then
        setLocalError result .failedPrecondition "Unexpected dataplane state in reply"
      else result
    | none => setLocalError result .dataLoss "Missing dataplane status in reply"

structure ClusterOptResult where
  finalState : CoordinatorState
  results : List AgentRPCResult
  deriving DecidableEq, Repr

abbrev Agent := SSRAgent MockDataplaneBackend

-- The coordinator with the agents behind its clients, one for each client.
structure Cluster where
  state : CoordinatorState := .idle
  sessionId : SessionId := {}
  agents : List Agent
  deriving DecidableEq, Repr

namespace Cluster

def requireState (expected : CoordinatorState) (operation : String) : Method Cluster Unit := do
  let actual := (← get).state
  if actual ≠ expected then
    throw (.runtimeError ("Operation '" ++ operation ++ "' requires state " ++
      toString expected.value ++ ", but current state is " ++ toString actual.value))

abbrev Rpc := Agent → (Status × AgentReply) × Agent

def call (rpc : Rpc) (expectedAgent : ProtoAgentState) (expectedDataplane : ProtoDataplaneState)
    (agent : Agent) : AgentRPCResult :=
  validateReply expectedAgent expectedDataplane ⟨agent.nodeId,(rpc agent).1.1,(rpc agent).1.2⟩

/- Sends one request to every agent; the agents do not see each other, so the order in
which they are served does not matter. -/
def runParallel (rpc : Rpc) (expectedAgent : ProtoAgentState)
    (expectedDataplane : ProtoDataplaneState) : Method Cluster (List AgentRPCResult) := do
  let cluster ← get
  set {cluster with agents := cluster.agents.map (fun agent => (rpc agent).2)}
  pure (cluster.agents.map (call rpc expectedAgent expectedDataplane))

def finish (target : CoordinatorState) (results : List AgentRPCResult) :
    Method Cluster ClusterOptResult := do
  let finalState := if results.all AgentRPCResult.ok then target else .idle
  modify (fun cluster => {cluster with state := finalState})
  pure ⟨finalState,results⟩

def prepareRpc (sessionId : SessionId) (runConfig : RunConfig) : Rpc := fun agent =>
  AgentRPCService.prepare ⟨agent.nodeId,some sessionId,some runConfig⟩ agent

def startRpc (sessionId : SessionId) : Rpc := fun agent =>
  AgentRPCService.start ⟨agent.nodeId,some sessionId⟩ agent

def stopRpc (sessionId : SessionId) : Rpc := fun agent =>
  AgentRPCService.stop ⟨agent.nodeId,some sessionId⟩ agent

def agentsPrepare (sessionId : SessionId) (runConfig : RunConfig) :
    Method Cluster ClusterOptResult := do
  requireState .idle "Prepare"
  modify (fun cluster => {cluster with sessionId := sessionId})
  finish .ready (← runParallel (prepareRpc sessionId runConfig) .configured .configured)

def agentsStart : Method Cluster ClusterOptResult := do
  requireState .ready "Start"
  let sessionId := (← get).sessionId
  finish .running (← runParallel (startRpc sessionId) .running .running)

def agentsStop : Method Cluster ClusterOptResult := do
  requireState .running "Stop"
  let sessionId := (← get).sessionId
  finish .stopped (← runParallel (stopRpc sessionId) .stopped .closed)

end Cluster

end Syncons.Ssr
