import Syncons.Methods

/-! The host agent: its state machine over a dataplane backend, the mock backend with its
one-shot failures, and the service that puts requests to the agent. A method that throws
keeps what it had already written, so methods are computations with a state that errors keep. -/
namespace Syncons.Ssr

inductive Exception where
  | invalidArgument (what : String)
  | runtimeError (what : String)
  | dataplaneError (what : String)
  | other (what : String)
  deriving DecidableEq, Repr

namespace Exception

def what : Exception → String
  | invalidArgument what | runtimeError what | dataplaneError what | other what => what

end Exception

abbrev Method (σ α : Type) := EStateM Exception σ α

abbrev NodeId := UInt32

structure RunConfig where
  runId : UInt64 := 0
  startTimeNs : UInt64 := 0
  replicaNum : UInt32 := 0
  roundLengthNs : UInt32 := 0
  deriving DecidableEq, Repr

def RunConfig.validate (c : RunConfig) : Except Exception Unit :=
  if c.replicaNum = 0 then .error (.invalidArgument "replica_num must be greater than 0")
  else if c.roundLengthNs = 0 then .error (.invalidArgument "round_length_ns must be greater than 0")
  else if c.startTimeNs = 0 then .error (.invalidArgument "start_time_ns must be greater than 0")
  else .ok ()

structure SessionId where
  high : UInt64 := 0
  low : UInt64 := 0
  deriving DecidableEq, Repr

inductive AgentState where
  | idle | configured | running | stopped
  deriving DecidableEq, Repr

def AgentState.value : AgentState → Nat
  | idle => 0
  | configured => 1
  | running => 2
  | stopped => 3

inductive DataplaneState where
  | closed | opened | configured | running | halted
  deriving DecidableEq, Repr

structure DataplaneStatus where
  state : DataplaneState
  configValid : Bool
  running : Bool
  deriving DecidableEq, Repr

class DataplaneBackend (β : Type) where
  openBackend : Method β Unit
  configure : RunConfig → Method β Unit
  start : Method β Unit
  stop : Method β Unit
  status : β → Except Exception DataplaneStatus

structure SSRAgent (β : Type) where
  nodeId : NodeId
  backend : β
  state : AgentState := .idle
  sessionId : SessionId := {}
  deriving DecidableEq, Repr

namespace SSRAgent
variable {β : Type} [DataplaneBackend β] {α : Type}

def onBackend (call : Method β α) : Method (SSRAgent β) α := fun agent =>
  match call agent.backend with
  | .ok a b => .ok a {agent with backend := b}
  | .error e b => .error e {agent with backend := b}

def backendStatus : Method (SSRAgent β) DataplaneStatus := fun agent =>
  match DataplaneBackend.status agent.backend with
  | .ok status => .ok status agent
  | .error e => .error e agent

def setState (state : AgentState) : Method (SSRAgent β) Unit :=
  modify (fun agent => {agent with state := state})

-- Runs `body`; when it throws, the agent falls back to Idle and the exception goes on.
def orIdle (body : Method (SSRAgent β) Unit) : Method (SSRAgent β) Unit :=
  tryCatch body (fun e => do
    setState .idle
    throw e)

def refuse (verb : String) : Method (SSRAgent β) Unit := do
  throw (.runtimeError (verb ++ " while in state " ++ toString (← get).state.value))

/- `prepare`, `start` and `stop` are given the session id and do not look at it. -/
def prepare (_sessionId : SessionId) (runConfig : RunConfig) : Method (SSRAgent β) Unit := do
  let agent ← get
  if agent.state ≠ .idle ∧ agent.state ≠ .stopped then refuse "Cannot prepare a new session"
  else
    orIdle (do
      if (← backendStatus).state = .closed then onBackend DataplaneBackend.openBackend
      onBackend (DataplaneBackend.configure runConfig)
      setState .configured)

def stepFrom (expected : AgentState) (verb : String) (step : Method β Unit) (target : AgentState) :
    Method (SSRAgent β) Unit := do
  if (← get).state ≠ expected then refuse verb
  else
    orIdle (do
      onBackend step
      setState target)

def start (_sessionId : SessionId) : Method (SSRAgent β) Unit :=
  stepFrom .configured "Cannot start a session" DataplaneBackend.start .running

def stop (_sessionId : SessionId) : Method (SSRAgent β) Unit :=
  stepFrom .running "Cannot stop a session" DataplaneBackend.stop .stopped

end SSRAgent

inductive MockFailurePoint where
  | opening | reset | configure | synchronize | start | stop
  deriving DecidableEq, Repr

def failurePointName : MockFailurePoint → String
  | .opening => "Open"
  | .reset => "Reset"
  | .configure => "Configure"
  | .synchronize => "Synchronize"
  | .start => "Start"
  | .stop => "Stop"

structure MockDataplaneBackend where
  state : DataplaneState := .closed
  config : Option RunConfig := none
  failurePoint : Option MockFailurePoint := none
  deriving DecidableEq, Repr

namespace MockDataplaneBackend

def demand (p : Prop) [Decidable p] (what : String) : Method MockDataplaneBackend Unit :=
  if p then pure () else throw (.dataplaneError what)

def requireOpen : Method MockDataplaneBackend Unit := do
  demand ((← get).state ≠ .closed) "Dataplane is closed"

-- The injected failure is consumed before it is thrown.
def maybeFail (point : MockFailurePoint) : Method MockDataplaneBackend Unit := do
  let backend ← get
  if backend.failurePoint = some point then
    set {backend with failurePoint := none}
    throw (.dataplaneError ("Injected failure at point: " ++ failurePointName point))

def openBackend : Method MockDataplaneBackend Unit := do
  demand ((← get).state = .closed) "Dataplane is already open"
  maybeFail .opening
  modify (fun backend => {backend with state := .opened})

def configure (config : RunConfig) : Method MockDataplaneBackend Unit := do
  requireOpen
  demand ((← get).state = .opened) "Dataplane must be in Open state to configure"
  match config.validate with
  | .error e => throw e
  | .ok () =>
    maybeFail .configure
    modify (fun backend => {backend with config := some config, state := .configured})

def start : Method MockDataplaneBackend Unit := do
  requireOpen
  demand ((← get).state = .configured) "Dataplane must be in Configured state to start"
  demand ((← get).config.isSome) "Dataplane must be configured before starting"
  maybeFail .start
  modify (fun backend => {backend with state := .running})

-- Stopping keeps the configuration.
def stop : Method MockDataplaneBackend Unit := do
  requireOpen
  demand ((← get).state = .running) "Dataplane must be in Running state to stop"
  maybeFail .stop
  modify (fun backend => {backend with state := .closed})

def status (backend : MockDataplaneBackend) : DataplaneStatus :=
  ⟨backend.state,backend.config.isSome,backend.state = .running⟩

def failNext (point : MockFailurePoint) (backend : MockDataplaneBackend) : MockDataplaneBackend :=
  {backend with failurePoint := some point}

def clearFailures (backend : MockDataplaneBackend) : MockDataplaneBackend :=
  {backend with failurePoint := none}

instance : DataplaneBackend MockDataplaneBackend where
  openBackend := openBackend
  configure := configure
  start := start
  stop := stop
  status backend := .ok backend.status

end MockDataplaneBackend

inductive StatusCode where
  | ok | invalidArgument | failedPrecondition | internal | dataLoss
  deriving DecidableEq, Repr

structure Status where
  code : StatusCode := .ok
  message : String := ""
  deriving DecidableEq, Repr

/- A dataplane error is a runtime error, and that is what is asked first. -/
def exceptionToGrpcStatus : Exception → Status
  | .invalidArgument what => ⟨.invalidArgument,what⟩
  | .runtimeError what => ⟨.failedPrecondition,what⟩
  | .dataplaneError what => ⟨.failedPrecondition,what⟩
  | .other what => ⟨.internal,what⟩

inductive ProtoAgentState where
  | unspecified | idle | configured | running | stopped
  deriving DecidableEq, Repr

inductive ProtoDataplaneState where
  | unspecified | closed | opened | configured | running | halted
  deriving DecidableEq, Repr

def agentStateToProto : AgentState → ProtoAgentState
  | .idle => .idle
  | .configured => .configured
  | .running => .running
  | .stopped => .stopped

def dataplaneStateToProto : DataplaneState → ProtoDataplaneState
  | .closed => .closed
  | .opened => .opened
  | .configured => .configured
  | .running => .running
  | .halted => .halted

structure ProtoDataplaneStatus where
  state : ProtoDataplaneState := .unspecified
  configValid : Bool := false
  running : Bool := false
  deriving DecidableEq, Repr

def dataplaneStatusToProto (status : DataplaneStatus) : ProtoDataplaneStatus :=
  ⟨dataplaneStateToProto status.state,status.configValid,status.running⟩

-- Session ids and run configs have the same fields on both sides of the wire.
structure PrepareRequest where
  targetNodeId : UInt32
  sessionId : Option SessionId
  runConfig : Option RunConfig
  deriving DecidableEq, Repr

structure SessionRequest where
  targetNodeId : UInt32
  sessionId : Option SessionId
  deriving DecidableEq, Repr

structure AgentReply where
  nodeId : UInt32 := 0
  state : ProtoAgentState := .unspecified
  dataplaneStatus : Option ProtoDataplaneStatus := none
  sessionId : Option SessionId := none
  deriving DecidableEq, Repr

namespace AgentRPCService
variable {β : Type} [DataplaneBackend β]

abbrev Answer (β : Type) := (Status × AgentReply) × SSRAgent β

def fillReply : Method (SSRAgent β) AgentReply := do
  let agent ← get
  let status ← SSRAgent.backendStatus
  pure ⟨agent.nodeId,agentStateToProto agent.state,some (dataplaneStatusToProto status),
    some agent.sessionId⟩

def answer (call : Method (SSRAgent β) Unit) (agent : SSRAgent β) : Answer β :=
  match (do call; fillReply) agent with
  | .ok reply agent => (({},reply),agent)
  | .error e agent => ((exceptionToGrpcStatus e,{}),agent)

def wrongTarget : Status := ⟨.failedPrecondition,"Target node ID does not match this node's ID"⟩

def missingFields : Status := ⟨.invalidArgument,"Missing required fields in request"⟩

def prepare (request : PrepareRequest) (agent : SSRAgent β) : Answer β :=
  if request.targetNodeId ≠ agent.nodeId then ((wrongTarget,{}),agent)
  else
    match request.sessionId,request.runConfig with
    | some sessionId,some runConfig => answer (SSRAgent.prepare sessionId runConfig) agent
    | _,_ => ((missingFields,{}),agent)

def withSession (call : SessionId → Method (SSRAgent β) Unit) (request : SessionRequest)
    (agent : SSRAgent β) : Answer β :=
  if request.targetNodeId ≠ agent.nodeId then ((wrongTarget,{}),agent)
  else
    match request.sessionId with
    | some sessionId => answer (call sessionId) agent
    | none => ((missingFields,{}),agent)

def start (request : SessionRequest) (agent : SSRAgent β) : Answer β :=
  withSession SSRAgent.start request agent

def stop (request : SessionRequest) (agent : SSRAgent β) : Answer β :=
  withSession SSRAgent.stop request agent

end AgentRPCService

end Syncons.Ssr
