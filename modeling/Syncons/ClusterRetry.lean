import Syncons.HostCoordinator
import Syncons.HostSessions

/-! Trying again after a failed operation. Over every sequence of cluster operations and
injected one-shot failures, a cluster that came back to Idle can be prepared again exactly
when the operation that failed was a prepare in which no agent succeeded. -/
namespace Syncons.Ssr
open Runs (System Move Ran)
open Methods

variable {agent : Agent} {session : SessionId} {config : RunConfig}

namespace SSRAgent

def Fresh (agent : Agent) : Prop :=
  agent.state = .idle ∧ (agent.backend.state = .closed ∨ agent.backend.state = .opened)

def Prepared (agent : Agent) : Prop :=
  agent.state = .configured ∧ agent.backend.state = .configured ∧ agent.backend.config.isSome = true

def Started (agent : Agent) : Prop := agent.state = .running ∧ agent.backend.state = .running

-- An agent that no prepare gets through: it is configured, or its backend is not to be opened.
def Stuck (agent : Agent) : Prop :=
  agent.state = .configured ∨ agent.state = .running ∨
    agent.backend.state = .configured ∨ agent.backend.state = .running

def failsPrepare (agent : Agent) : Bool :=
  agent.backend.failurePoint = some .configure ||
    (agent.backend.failurePoint = some .opening && agent.backend.state = .closed)

def failsStart (agent : Agent) : Bool := agent.backend.failurePoint = some .start

def failsStop (agent : Agent) : Bool := agent.backend.failurePoint = some .stop

end SSRAgent

def injected (point : MockFailurePoint) : Exception :=
  .dataplaneError ("Injected failure at point: " ++ failurePointName point)

namespace MockDataplaneBackend
variable {b : MockDataplaneBackend}

theorem openRun (state : b.state = .closed) : openBackend b =
    if b.failurePoint = some .opening then
      .error (injected .opening) {b with failurePoint := none}
    else .ok () {b with state := .opened} := by
  by_cases hit : b.failurePoint = some .opening <;>
    simp [openBackend,demand,maybeFail,state,hit,injected]

theorem configureRun (state : b.state = .opened) (valid : config.validate = .ok ()) :
    configure config b =
      if b.failurePoint = some .configure then
        .error (injected .configure) {b with failurePoint := none}
      else .ok () {b with config := some config, state := .configured} := by
  by_cases hit : b.failurePoint = some .configure <;>
    simp [configure,requireOpen,demand,maybeFail,state,valid,hit,injected]

theorem configureInvalid {e : Exception} (state : b.state = .opened)
    (invalid : config.validate = .error e) : configure config b = .error e b := by
  simp [configure,requireOpen,demand,state,invalid]

theorem configureThrows (state : b.state = .opened)
    (fails : b.failurePoint = some .configure ∨ config.validate ≠ .ok ()) :
    ∃ e b', configure config b = .error e b' ∧ b'.state = .opened := by
  cases checked : config.validate with
  | error e => exact ⟨e,b,configureInvalid state checked,state⟩
  | ok _ =>
    have hit : b.failurePoint = some .configure := by simpa [checked] using fails
    exact ⟨_,_,(configureRun state checked).trans (if_pos hit),state⟩

theorem configureRefused (state : b.state ≠ .opened) :
    ∃ e, configure config b = .error e b := by
  by_cases closed : b.state = .closed
  · simp [configure,requireOpen,demand,closed]
  · simp [configure,requireOpen,demand,closed,state]

theorem startRun (state : b.state = .configured) (held : b.config.isSome = true) : start b =
    if b.failurePoint = some .start then
      .error (injected .start) {b with failurePoint := none}
    else .ok () {b with state := .running} := by
  by_cases hit : b.failurePoint = some .start <;>
    simp [start,requireOpen,demand,maybeFail,state,held,hit,injected]

theorem stopRun (state : b.state = .running) : stop b =
    if b.failurePoint = some .stop then
      .error (injected .stop) {b with failurePoint := none}
    else .ok () {b with state := .closed} := by
  by_cases hit : b.failurePoint = some .stop <;>
    simp [stop,requireOpen,demand,maybeFail,state,hit,injected]

end MockDataplaneBackend

namespace SSRAgent

theorem prepareOpened (state : agent.state = .idle) (opened : agent.backend.state = .opened) :
    prepare session config agent =
      match MockDataplaneBackend.configure config agent.backend with
      | .ok _ b => .ok () {agent with state := .configured, backend := b}
      | .error e b => .error e {agent with state := .idle, backend := b} := by
  cases done : MockDataplaneBackend.configure config agent.backend <;>
    simp [prepare,orIdle,backendStatus,DataplaneBackend.status,MockDataplaneBackend.status,onBackend,
      DataplaneBackend.configure,setState,state,opened,done]

theorem prepareClosed (state : agent.state = .idle) (closed : agent.backend.state = .closed) :
    prepare session config agent =
      if agent.backend.failurePoint = some .opening then
        .error (injected .opening)
          {agent with state := .idle, backend := {agent.backend with failurePoint := none}}
      else prepare session config {agent with backend := {agent.backend with state := .opened}} := by
  by_cases hit : agent.backend.failurePoint = some .opening
  · simp [prepare,orIdle,backendStatus,DataplaneBackend.status,MockDataplaneBackend.status,onBackend,
      DataplaneBackend.openBackend,MockDataplaneBackend.openRun,setState,state,closed,hit]
  · simp [prepare,orIdle,backendStatus,DataplaneBackend.status,MockDataplaneBackend.status,onBackend,
      DataplaneBackend.openBackend,MockDataplaneBackend.openRun,setState,state,closed,hit]

theorem openedPasses (state : agent.state = .idle) (opened : agent.backend.state = .opened)
    (valid : config.validate = .ok ()) (clear : agent.backend.failurePoint ≠ some .configure) :
    prepare session config agent = .ok ()
      { agent with
        state := .configured
        backend := {agent.backend with config := some config, state := .configured} } := by
  rw [prepareOpened state opened,MockDataplaneBackend.configureRun opened valid,if_neg clear]

theorem preparePasses (fresh : agent.Fresh) (valid : config.validate = .ok ())
    (clear : agent.failsPrepare = false) : prepare session config agent = .ok ()
      { agent with
        state := .configured
        backend := {agent.backend with config := some config, state := .configured} } := by
  simp only [failsPrepare,Bool.or_eq_false_iff,decide_eq_false_iff_not] at clear
  obtain ⟨state,closed | opened⟩ := fresh
  · have missed : agent.backend.failurePoint ≠ some .opening := by simpa [closed] using clear.2
    rw [prepareClosed state closed,if_neg missed]
    exact openedPasses state rfl valid clear.1
  · exact openedPasses state opened valid clear.1

theorem openedFails (state : agent.state = .idle) (opened : agent.backend.state = .opened)
    (fails : agent.backend.failurePoint = some .configure ∨ config.validate ≠ .ok ()) :
    ∃ e agent', prepare session config agent = .error e agent' ∧ agent'.Fresh := by
  obtain ⟨e,b,threw,after⟩ := MockDataplaneBackend.configureThrows opened fails
  refine ⟨e,{agent with state := .idle, backend := b},?_,rfl,Or.inr after⟩
  rw [prepareOpened state opened,threw]

theorem prepareFails (fresh : agent.Fresh)
    (fails : agent.failsPrepare = true ∨ config.validate ≠ .ok ()) :
    ∃ e agent', prepare session config agent = .error e agent' ∧ agent'.Fresh := by
  simp only [failsPrepare,Bool.or_eq_true,Bool.and_eq_true,decide_eq_true_eq] at fails
  obtain ⟨state,closed | opened⟩ := fresh
  · rw [prepareClosed state closed]
    split
    · exact ⟨_,_,rfl,rfl,Or.inl closed⟩
    · rename_i missed
      have later : agent.backend.failurePoint = some .configure ∨ config.validate ≠ .ok () := by
        simpa [missed] using fails
      exact openedFails state rfl later
  · exact openedFails state opened (by simpa [opened] using fails)

theorem prepareStuck (stuck : agent.Stuck) :
    ∃ e agent', prepare session config agent = .error e agent' := by
  by_cases held : agent.state ≠ .idle ∧ agent.state ≠ .stopped
  · simp [prepare,refuse,held]
  · have backend : agent.backend.state = .configured ∨ agent.backend.state = .running := by
      rcases stuck with state | state | state
      · simp [state] at held
      · simp [state] at held
      · exact state
    have notClosed : agent.backend.state ≠ .closed := by
      rcases backend with state | state <;> simp [state]
    have notOpened : agent.backend.state ≠ .opened := by
      rcases backend with state | state <;> simp [state]
    obtain ⟨e,refused⟩ := @MockDataplaneBackend.configureRefused config agent.backend notOpened
    simp [prepare,held,orIdle,backendStatus,DataplaneBackend.status,MockDataplaneBackend.status,
      onBackend,DataplaneBackend.configure,notClosed,refused,setState]

theorem startRuns (prepared : agent.Prepared) : start session agent =
    if agent.failsStart then
      .error (injected .start)
        {agent with state := .idle, backend := {agent.backend with failurePoint := none}}
    else .ok () {agent with state := .running, backend := {agent.backend with state := .running}} := by
  obtain ⟨state,configured,held⟩ := prepared
  rw [start,stepRuns state]
  cases hit : agent.failsStart with
  | true =>
    have point : agent.backend.failurePoint = some .start := by simpa [failsStart] using hit
    simp [DataplaneBackend.start,MockDataplaneBackend.startRun,configured,held,point]
  | false =>
    have point : agent.backend.failurePoint ≠ some .start := by simpa [failsStart] using hit
    simp [DataplaneBackend.start,MockDataplaneBackend.startRun,configured,held,point]

theorem stopRuns (started : agent.Started) : stop session agent =
    if agent.failsStop then
      .error (injected .stop)
        {agent with state := .idle, backend := {agent.backend with failurePoint := none}}
    else .ok () {agent with state := .stopped, backend := {agent.backend with state := .closed}} := by
  obtain ⟨state,running⟩ := started
  rw [stop,stepRuns state]
  cases hit : agent.failsStop with
  | true =>
    have point : agent.backend.failurePoint = some .stop := by simpa [failsStop] using hit
    simp [DataplaneBackend.stop,MockDataplaneBackend.stopRun,running,point]
  | false =>
    have point : agent.backend.failurePoint ≠ some .stop := by simpa [failsStop] using hit
    simp [DataplaneBackend.stop,MockDataplaneBackend.stopRun,running,point]

end SSRAgent

namespace Cluster
variable {s : Cluster} {rpc : Rpc} {method : Method Agent Unit} {agent' : Agent} {e : Exception}
  {expectedAgent : ProtoAgentState} {expectedDataplane : ProtoDataplaneState}

theorem callThrew (is : rpc agent = AgentRPCService.answer method agent)
    (ran : method agent = .error e agent') :
    (call rpc expectedAgent expectedDataplane agent).ok = false ∧ (rpc agent).2 = agent' := by
  have answered := is.trans (AgentRPCService.answerThrew ran)
  have failed := AgentRPCService.statusNotOk e
  refine ⟨?_,by rw [answered]⟩
  simp [call,answered,validateReply,AgentRPCResult.ok,failed]

theorem callReturned (is : rpc agent = AgentRPCService.answer method agent)
    (ran : method agent = .ok () agent') (named : agent'.nodeId = agent.nodeId)
    (state : agentStateToProto agent'.state = expectedAgent)
    (dataplane : dataplaneStateToProto agent'.backend.state = expectedDataplane) :
    (call rpc expectedAgent expectedDataplane agent).ok = true ∧ (rpc agent).2 = agent' := by
  have answered : rpc agent =
      (({},⟨agent'.nodeId,agentStateToProto agent'.state,
        some (dataplaneStatusToProto agent'.backend.status),some agent'.sessionId⟩),agent') := by
    rw [is]
    simp [AgentRPCService.answer,ran,AgentRPCService.fillReply,SSRAgent.backendStatus,
      DataplaneBackend.status]
  refine ⟨?_,by rw [answered]⟩
  simp [call,answered,validateReply,AgentRPCResult.ok,named,state,dataplaneStatusToProto,
    MockDataplaneBackend.status,dataplane]

theorem prepareAnswers : prepareRpc session config agent =
    AgentRPCService.answer (SSRAgent.prepare session config) agent := by
  simp [prepareRpc,AgentRPCService.prepare]

theorem startAnswers : startRpc session agent =
    AgentRPCService.answer (SSRAgent.start session) agent := by
  simp [startRpc,AgentRPCService.start,AgentRPCService.withSession]

theorem stopAnswers : stopRpc session agent =
    AgentRPCService.answer (SSRAgent.stop session) agent := by
  simp [stopRpc,AgentRPCService.stop,AgentRPCService.withSession]

theorem preparePassed (fresh : agent.Fresh) (valid : config.validate = .ok ())
    (clear : agent.failsPrepare = false) :
    (call (prepareRpc session config) .configured .configured agent).ok = true ∧
      (prepareRpc session config agent).2.Prepared := by
  have ran := @SSRAgent.preparePasses agent session config fresh valid clear
  obtain ⟨passed,after⟩ :=
    @callReturned agent _ _ _ .configured .configured prepareAnswers ran rfl rfl rfl
  rw [after]
  exact ⟨passed,rfl,rfl,rfl⟩

theorem prepareFailed (fresh : agent.Fresh)
    (fails : agent.failsPrepare = true ∨ config.validate ≠ .ok ()) :
    (call (prepareRpc session config) .configured .configured agent).ok = false ∧
      (prepareRpc session config agent).2.Fresh := by
  obtain ⟨e,agent',ran,left⟩ := @SSRAgent.prepareFails agent session config fresh fails
  obtain ⟨failed,after⟩ := @callThrew agent _ _ _ _ .configured .configured prepareAnswers ran
  rw [after]
  exact ⟨failed,left⟩

theorem stuckFailed (stuck : agent.Stuck) :
    (call (prepareRpc session config) .configured .configured agent).ok = false := by
  obtain ⟨e,agent',ran⟩ := @SSRAgent.prepareStuck agent session config stuck
  exact (callThrew prepareAnswers ran).1

theorem startPassed (prepared : agent.Prepared) (clear : agent.failsStart = false) :
    (call (startRpc session) .running .running agent).ok = true ∧
      (startRpc session agent).2.Started := by
  have ran := @SSRAgent.startRuns agent session prepared
  rw [clear] at ran
  obtain ⟨passed,after⟩ := @callReturned agent _ _ _ .running .running startAnswers ran rfl rfl rfl
  rw [after]
  exact ⟨passed,rfl,rfl⟩

theorem startFailed (prepared : agent.Prepared) (fails : agent.failsStart = true) :
    (call (startRpc session) .running .running agent).ok = false ∧
      (startRpc session agent).2.Stuck := by
  have ran := @SSRAgent.startRuns agent session prepared
  rw [fails] at ran
  obtain ⟨failed,after⟩ := @callThrew agent _ _ _ _ .running .running startAnswers ran
  rw [after]
  exact ⟨failed,Or.inr (Or.inr (Or.inl prepared.2.1))⟩

theorem stopPassed (started : agent.Started) (clear : agent.failsStop = false) :
    (call (stopRpc session) .stopped .closed agent).ok = true := by
  have ran := @SSRAgent.stopRuns agent session started
  rw [clear] at ran
  exact (callReturned stopAnswers ran rfl rfl rfl).1

theorem stopFailed (started : agent.Started) (fails : agent.failsStop = true) :
    (call (stopRpc session) .stopped .closed agent).ok = false ∧
      (stopRpc session agent).2.Stuck := by
  have ran := @SSRAgent.stopRuns agent session started
  rw [fails] at ran
  obtain ⟨failed,after⟩ := @callThrew agent _ _ _ _ .stopped .closed stopAnswers ran
  rw [after]
  exact ⟨failed,Or.inr (Or.inr (Or.inr started.2))⟩

def clearFailures (s : Cluster) : Cluster :=
  {s with agents := s.agents.map (fun agent => {agent with backend := agent.backend.clearFailures})}

/- When nothing fails, the next prepare succeeds on every agent, the coordinator gets to
Ready, and no agent is in a state that its own prepare refuses. -/
def Retries (s : Cluster) : Prop :=
  ∀ session config, config.validate = .ok () →
    ∃ result s', agentsPrepare session config s.clearFailures = .ok result s' ∧
      (∀ r ∈ result.results, r.ok = true) ∧ result.finalState = .ready ∧ s'.state = .ready ∧
      ∀ agent ∈ s.clearFailures.agents, returned (SSRAgent.prepare session config agent) = true

def results (rpc : Rpc) (expectedAgent : ProtoAgentState) (expectedDataplane : ProtoDataplaneState)
    (s : Cluster) : List AgentRPCResult := s.agents.map (call rpc expectedAgent expectedDataplane)

def finalState (target : CoordinatorState) (rs : List AgentRPCResult) : CoordinatorState :=
  if rs.all AgentRPCResult.ok then target else .idle

theorem prepareRun (state : s.state = .idle) : agentsPrepare session config s =
    let rs := results (prepareRpc session config) .configured .configured s
    .ok ⟨finalState .ready rs,rs⟩
      ⟨finalState .ready rs,session,s.agents.map (fun agent => (prepareRpc session config agent).2)⟩ := by
  simp [agentsPrepare,requireState,state,finish,runParallel,results,finalState]

theorem startRun (state : s.state = .ready) : agentsStart s =
    let rs := results (startRpc s.sessionId) .running .running s
    .ok ⟨finalState .running rs,rs⟩
      ⟨finalState .running rs,s.sessionId,s.agents.map (fun agent => (startRpc s.sessionId agent).2)⟩ := by
  simp [agentsStart,requireState,state,finish,runParallel,results,finalState]

theorem stopRun (state : s.state = .running) : agentsStop s =
    let rs := results (stopRpc s.sessionId) .stopped .closed s
    .ok ⟨finalState .stopped rs,rs⟩
      ⟨finalState .stopped rs,s.sessionId,s.agents.map (fun agent => (stopRpc s.sessionId agent).2)⟩ := by
  simp [agentsStop,requireState,state,finish,runParallel,results,finalState]

theorem retriesFresh (state : s.state = .idle) (fresh : ∀ agent ∈ s.agents, agent.Fresh) :
    s.Retries := by
  intro session config valid
  have ready : ∀ agent ∈ s.clearFailures.agents, agent.Fresh ∧ agent.failsPrepare = false := by
    intro agent member
    obtain ⟨before,held,rfl⟩ := List.mem_map.mp member
    exact ⟨fresh before held,rfl⟩
  have all : ∀ agent ∈ s.clearFailures.agents,
      (call (prepareRpc session config) .configured .configured agent).ok = true := by
    intro agent member
    exact (preparePassed (ready agent member).1 valid (ready agent member).2).1
  have passed : finalState .ready
      (results (prepareRpc session config) .configured .configured s.clearFailures) = .ready := by
    simp only [finalState,results,List.all_map]
    exact if_pos (List.all_eq_true.mpr all)
  refine ⟨_,_,prepareRun state,?_,passed,passed,?_⟩
  · intro r member
    obtain ⟨agent,held,rfl⟩ := List.mem_map.mp member
    exact all agent held
  · intro agent member
    rw [SSRAgent.preparePasses (ready agent member).1 valid (ready agent member).2]
    rfl

theorem stuckCluster (state : s.state = .idle) (member : agent ∈ s.agents) (stuck : agent.Stuck) :
    ¬ s.Retries := by
  intro retries
  obtain ⟨result,s',ran,all,_⟩ := retries {} ⟨0,1,1,1⟩ rfl
  have cleared : s.clearFailures.state = .idle := state
  rw [prepareRun cleared] at ran
  cases ran
  have held : {agent with backend := agent.backend.clearFailures} ∈ s.clearFailures.agents :=
    List.mem_map_of_mem member
  have passed := all _ (List.mem_map_of_mem held)
  have still : SSRAgent.Stuck {agent with backend := agent.backend.clearFailures} := stuck
  cases passed.symm.trans (stuckFailed still)

end Cluster

inductive Operation where
  | failNext (agent : Nat) (point : MockFailurePoint)
  | prepare (sessionId : SessionId) (runConfig : RunConfig)
  | start
  | stop
  deriving DecidableEq, Repr

namespace Operation

def perform : Operation → Method Cluster (Option ClusterOptResult)
  | failNext i point => do
    modify (fun cluster => { cluster with
      agents := cluster.agents.modify i (fun agent =>
        {agent with backend := agent.backend.failNext point}) })
    pure none
  | prepare sessionId runConfig => some <$> Cluster.agentsPrepare sessionId runConfig
  | start => some <$> Cluster.agentsStart
  | stop => some <$> Cluster.agentsStop

def failed (op : Operation) (s : Cluster) : Bool :=
  match op.perform s with
  | .ok (some result) _ => result.finalState = .idle
  | _ => false

/- The failures that an operation runs into: a prepare none or every agent's, a start and a
stop none. -/
def covered : Operation → Cluster → Prop
  | failNext _ _,_ => True
  | prepare _ config,s => s.state = .idle → config.validate = .ok () →
      (∀ agent ∈ s.agents, agent.failsPrepare = true) ∨
        ∀ agent ∈ s.agents, agent.failsPrepare = false
  | start,s => s.state = .ready → ∀ agent ∈ s.agents, agent.failsStart = false
  | stop,s => s.state = .running → ∀ agent ∈ s.agents, agent.failsStop = false

end Operation

def operated : System Cluster Operation where
  start s := s.state = .idle ∧ ∀ agent ∈ s.agents, agent.state = .idle ∧ agent.backend = {}
  step s op s' := s' = left (op.perform s)

namespace Cluster
variable {s : Cluster} {op : Operation} {expectedAgent : ProtoAgentState}
  {expectedDataplane : ProtoDataplaneState}

def InStep (s : Cluster) : Prop :=
  match s.state with
  | .idle => ∀ agent ∈ s.agents, agent.Fresh
  | .ready => ∀ agent ∈ s.agents, agent.Prepared
  | .running => ∀ agent ∈ s.agents, agent.Started
  | .stopped => True

theorem modifiedAll {α : Type} {good : α → Prop} {f : α → α} {l : List α} {i : Nat}
    (all : ∀ a ∈ l, good a) (keeps : ∀ a, good a → good (f a)) : ∀ a ∈ l.modify i f, good a := by
  induction l generalizing i with
  | nil => simp
  | cons head tail ih =>
    obtain ⟨first,rest⟩ := List.forall_mem_cons.mp all
    cases i with
    | zero => simpa using ⟨keeps head first,rest⟩
    | succ i => simpa using ⟨first,ih rest⟩

theorem failNextKeeps {i : Nat} {point : MockFailurePoint} (steady : s.InStep) :
    (left ((Operation.failNext i point).perform s)).InStep := by
  have moved : left ((Operation.failNext i point).perform s) = { s with
      agents := s.agents.modify i (fun agent =>
        {agent with backend := agent.backend.failNext point}) } := by simp [Operation.perform]
  rw [moved]
  cases state : s.state with
  | idle =>
    simp only [InStep,state] at steady ⊢
    exact modifiedAll steady (fun _ fresh => fresh)
  | ready =>
    simp only [InStep,state] at steady ⊢
    exact modifiedAll steady (fun _ prepared => prepared)
  | running =>
    simp only [InStep,state] at steady ⊢
    exact modifiedAll steady (fun _ started => started)
  | stopped => simp only [InStep]

theorem allPassed {target : CoordinatorState} {rpc : Rpc}
    (all : ∀ agent ∈ s.agents, (call rpc expectedAgent expectedDataplane agent).ok = true) :
    finalState target (results rpc expectedAgent expectedDataplane s) = target := by
  simp only [finalState,results,List.all_map]
  exact if_pos (List.all_eq_true.mpr all)

theorem someFailed {target : CoordinatorState} {rpc : Rpc} (member : agent ∈ s.agents)
    (failed : (call rpc expectedAgent expectedDataplane agent).ok = false) :
    finalState target (results rpc expectedAgent expectedDataplane s) = .idle := by
  simp only [finalState,results,List.all_map]
  refine if_neg ?_
  intro all
  cases (List.all_eq_true.mp all agent member).symm.trans failed

theorem prepareThrows (state : s.state ≠ .idle) :
    ∃ e, (Operation.prepare session config).perform s = .error e s := by
  simp [Operation.perform,agentsPrepare,requireState,state]

theorem startThrows (state : s.state ≠ .ready) : ∃ e, Operation.start.perform s = .error e s := by
  simp [Operation.perform,agentsStart,requireState,state]

theorem stopThrows (state : s.state ≠ .running) : ∃ e, Operation.stop.perform s = .error e s := by
  simp [Operation.perform,agentsStop,requireState,state]

theorem thrown {e : Exception} (threw : op.perform s = .error e s) (steady : s.InStep) :
    (left (op.perform s)).InStep ∧ (op.failed s = true → (left (op.perform s)).Retries) := by
  rw [Operation.failed,threw]
  exact ⟨steady,nofun⟩

structure Returned (op : Operation) (s : Cluster) (target : CoordinatorState) (rpc : Rpc)
    (expectedAgent : ProtoAgentState) (expectedDataplane : ProtoDataplaneState) : Prop where
  state : (left (op.perform s)).state =
    finalState target (results rpc expectedAgent expectedDataplane s)
  agents : (left (op.perform s)).agents = s.agents.map (fun agent => (rpc agent).2)
  failed : op.failed s = true ↔
    finalState target (results rpc expectedAgent expectedDataplane s) = .idle

theorem prepareReturned (state : s.state = .idle) :
    Returned (.prepare session config) s .ready (prepareRpc session config) .configured
      .configured := by
  have run := @prepareRun session config s state
  constructor <;> simp [Operation.perform,Operation.failed,run]

theorem startReturned (state : s.state = .ready) :
    Returned .start s .running (startRpc s.sessionId) .running .running := by
  have run := @startRun s state
  constructor <;> simp [Operation.perform,Operation.failed,run]

theorem stopReturned (state : s.state = .running) :
    Returned .stop s .stopped (stopRpc s.sessionId) .stopped .closed := by
  have run := @stopRun s state
  constructor <;> simp [Operation.perform,Operation.failed,run]

theorem Returned.each {target : CoordinatorState} {rpc : Rpc} {good : Agent → Prop}
    (returned : Returned op s target rpc expectedAgent expectedDataplane)
    (all : ∀ agent ∈ s.agents, good (rpc agent).2) :
    ∀ agent ∈ (left (op.perform s)).agents, good agent := by
  rw [returned.agents]
  intro agent member
  obtain ⟨before,held,rfl⟩ := List.mem_map.mp member
  exact all before held

theorem Returned.passed {target : CoordinatorState} {rpc : Rpc}
    (returned : Returned op s target rpc expectedAgent expectedDataplane) (onward : target ≠ .idle)
    (all : ∀ agent ∈ s.agents, (call rpc expectedAgent expectedDataplane agent).ok = true) :
    (left (op.perform s)).state = target ∧ op.failed s ≠ true := by
  have reached := @allPassed s expectedAgent expectedDataplane target rpc all
  refine ⟨returned.state.trans reached,?_⟩
  intro failed
  exact onward (reached.symm.trans (returned.failed.mp failed))

theorem Returned.stuck {target : CoordinatorState} {rpc : Rpc} {other : Agent}
    (returned : Returned op s target rpc expectedAgent expectedDataplane)
    (member : agent ∈ s.agents)
    (failed : (call rpc expectedAgent expectedDataplane agent).ok = false)
    (held : other ∈ s.agents) (stuck : (rpc other).2.Stuck) :
    op.failed s = true ∧ ¬ (left (op.perform s)).Retries := by
  have idle := @someFailed _ s _ _ target rpc member failed
  refine ⟨returned.failed.mpr idle,stuckCluster (returned.state.trans idle) ?_ stuck⟩
  rw [returned.agents]
  exact List.mem_map_of_mem held

theorem prepareCovered (steady : s.InStep) (covers : (Operation.prepare session config).covered s) :
    (left ((Operation.prepare session config).perform s)).InStep ∧
      ((Operation.prepare session config).failed s = true →
        (left ((Operation.prepare session config).perform s)).Retries) := by
  by_cases state : s.state = .idle
  · have fresh : ∀ agent ∈ s.agents, agent.Fresh := by simpa only [InStep,state] using steady
    have returned := @prepareReturned session config s state
    have passes (each : ∀ agent ∈ s.agents,
        (call (prepareRpc session config) .configured .configured agent).ok = true ∧
          (prepareRpc session config agent).2.Prepared) :
        (left ((Operation.prepare session config).perform s)).InStep ∧
          ((Operation.prepare session config).failed s = true →
            (left ((Operation.prepare session config).perform s)).Retries) := by
      obtain ⟨ready,fine⟩ := returned.passed nofun (fun agent member => (each agent member).1)
      simp only [InStep,ready]
      exact ⟨returned.each (fun agent member => (each agent member).2),fun failed => absurd failed fine⟩
    have fails {first : Agent} (member : first ∈ s.agents) (each : ∀ agent ∈ s.agents,
        agent.failsPrepare = true ∨ config.validate ≠ .ok ()) :
        (left ((Operation.prepare session config).perform s)).InStep ∧
          ((Operation.prepare session config).failed s = true →
            (left ((Operation.prepare session config).perform s)).Retries) := by
      have idle := returned.state.trans (someFailed member
        (@prepareFailed first session config (fresh first member) (each first member)).1)
      have after := returned.each (fun agent member =>
        (@prepareFailed agent session config (fresh agent member) (each agent member)).2)
      simp only [InStep,idle]
      exact ⟨after,fun _ => retriesFresh idle after⟩
    cases whole : s.agents with
    | nil => exact passes (by simp [whole])
    | cons first rest =>
      have member : first ∈ s.agents := by simp [whole]
      by_cases valid : config.validate = .ok ()
      · rcases covers state valid with all | clear
        · exact fails member (fun agent held => Or.inl (all agent held))
        · exact passes (fun agent held => preparePassed (fresh agent held) valid (clear agent held))
      · exact fails member (fun _ _ => Or.inr valid)
  · obtain ⟨e,threw⟩ := @prepareThrows session config s state
    exact thrown threw steady

theorem startCovered (steady : s.InStep) (covers : Operation.start.covered s) :
    (left (Operation.start.perform s)).InStep ∧
      (Operation.start.failed s = true → (left (Operation.start.perform s)).Retries) := by
  by_cases state : s.state = .ready
  · have prepared : ∀ agent ∈ s.agents, agent.Prepared := by simpa only [InStep,state] using steady
    have returned := @startReturned s state
    have each (agent : Agent) (member : agent ∈ s.agents) :=
      @startPassed agent s.sessionId (prepared agent member) (covers state agent member)
    obtain ⟨running,fine⟩ := returned.passed nofun (fun agent member => (each agent member).1)
    simp only [InStep,running]
    exact ⟨returned.each (fun agent member => (each agent member).2),fun failed => absurd failed fine⟩
  · obtain ⟨e,threw⟩ := @startThrows s state
    exact thrown threw steady

theorem stopCovered (steady : s.InStep) (covers : Operation.stop.covered s) :
    (left (Operation.stop.perform s)).InStep ∧
      (Operation.stop.failed s = true → (left (Operation.stop.perform s)).Retries) := by
  by_cases state : s.state = .running
  · have started : ∀ agent ∈ s.agents, agent.Started := by simpa only [InStep,state] using steady
    have returned := @stopReturned s state
    obtain ⟨stopped,fine⟩ := returned.passed nofun (fun agent member =>
      @stopPassed agent s.sessionId (started agent member) (covers state agent member))
    simp only [InStep,stopped]
    exact ⟨trivial,fun failed => absurd failed fine⟩
  · obtain ⟨e,threw⟩ := @stopThrows s state
    exact thrown threw steady

theorem coveredStep (steady : s.InStep) (covers : op.covered s) :
    (left (op.perform s)).InStep ∧ (op.failed s = true → (left (op.perform s)).Retries) := by
  cases op with
  | failNext i point =>
    refine ⟨failNextKeeps steady,?_⟩
    intro failed
    simp [Operation.failed,Operation.perform] at failed
  | prepare sessionId runConfig => exact prepareCovered steady covers
  | start => exact startCovered steady covers
  | stop => exact stopCovered steady covers

-- A failure that is not covered leaves the coordinator idle and some agent stuck.
theorem uncoveredStep (steady : s.InStep) (uncovered : ¬ op.covered s) :
    op.failed s = true ∧ ¬ (left (op.perform s)).Retries := by
  cases op with
  | failNext i point => exact absurd trivial uncovered
  | prepare sessionId runConfig =>
    simp only [Operation.covered,not_forall,not_or] at uncovered
    obtain ⟨state,valid,⟨other,held,clear⟩,⟨agent,member,fails⟩⟩ := uncovered
    have fresh : ∀ agent ∈ s.agents, agent.Fresh := by simpa only [InStep,state] using steady
    have passed := @preparePassed other sessionId runConfig (fresh other held) valid
      (by simpa using clear)
    have failed := @prepareFailed agent sessionId runConfig (fresh agent member)
      (Or.inl (by simpa using fails))
    exact (prepareReturned state).stuck member failed.1 held (Or.inl passed.2.1)
  | start =>
    simp only [Operation.covered,not_forall] at uncovered
    obtain ⟨state,agent,member,fails⟩ := uncovered
    have prepared : ∀ agent ∈ s.agents, agent.Prepared := by simpa only [InStep,state] using steady
    have failed := @startFailed agent s.sessionId (prepared agent member) (by simpa using fails)
    exact (startReturned state).stuck member failed.1 member failed.2
  | stop =>
    simp only [Operation.covered,not_forall] at uncovered
    obtain ⟨state,agent,member,fails⟩ := uncovered
    have started : ∀ agent ∈ s.agents, agent.Started := by simpa only [InStep,state] using steady
    have failed := @stopFailed agent s.sessionId (started agent member) (by simpa using fails)
    exact (stopReturned state).stuck member failed.1 member failed.2

end Cluster

variable {moves : List (Move Cluster Operation)} {s : Cluster}

theorem ranInStep (ran : Ran operated moves s)
    (covers : ∀ m ∈ moves, m.op.covered m.before) : s.InStep := by
  induction ran with
  | start start =>
    obtain ⟨state,agents⟩ := start
    simp only [Cluster.InStep,state]
    intro agent member
    obtain ⟨idle,backend⟩ := agents agent member
    exact ⟨idle,Or.inl (by rw [backend])⟩
  | @move moves s op s' before step ih =>
    have steady := ih (fun m member => covers m (List.mem_append_left _ member))
    have after : s' = left (op.perform s) := step
    rw [after]
    exact (Cluster.coveredStep steady (covers ⟨s,op,s'⟩ (by simp))).1

/- After every operation that came back with the coordinator in Idle, the cluster can be
prepared again. -/
def Retriable (moves : List (Move Cluster Operation)) : Prop :=
  ∀ m ∈ moves, m.op.failed m.before = true → m.after.Retries

theorem retriableIff (ran : Ran operated moves s) :
    Retriable moves ↔ ∀ m ∈ moves, m.op.covered m.before := by
  constructor
  · intro retriable
    induction ran with
    | start start => simp
    | @move moves s op s' before step ih =>
      have covers := ih (fun m member => retriable m (List.mem_append_left _ member))
      have after : s' = left (op.perform s) := step
      intro m member
      rcases List.mem_append.mp member with earlier | last
      · exact covers m earlier
      · cases List.mem_singleton.mp last
        by_contra uncovered
        obtain ⟨failed,lost⟩ := Cluster.uncoveredStep (ranInStep before covers) uncovered
        have retries := retriable ⟨s,op,s'⟩ (by simp) failed
        exact lost (after ▸ retries)
  · intro covers m member failed
    obtain ⟨pre,post,rfl⟩ := List.append_of_mem member
    obtain ⟨before,step,_⟩ := Runs.ranAt ran
    have steady := ranInStep before (fun x held => covers x (List.mem_append_left _ held))
    have after : m.after = left (m.op.perform m.before) := step
    rw [after]
    exact (Cluster.coveredStep steady (covers m member)).2 failed

def pair : Cluster := {agents := [{nodeId := 0, backend := {}},{nodeId := 1, backend := {}}]}

def operate (ops : List Operation) : Except Empty (List (Move Cluster Operation) × Cluster) :=
  Runs.record (fun s op => .ok (left (op.perform s))) ops pair

theorem operateFound {ops : List Operation} {good : List (Move Cluster Operation) → Bool}
    (value : (operate ops).toOption.map (fun result => good result.1) = some true) :
    ∃ moves s, operate ops = .ok (moves,s) ∧ Ran operated moves s ∧ good moves = true := by
  obtain ⟨⟨moves,s⟩,done,found⟩ := Runs.okFound value
  exact ⟨moves,s,done,Runs.recordTotal (fun _ _ => rfl) ⟨rfl,by decide⟩ done,found⟩

instance (op : Operation) (s : Cluster) : Decidable (op.covered s) := by
  cases op <;> unfold Operation.covered <;> infer_instance

-- Both backends fail in the first prepare; the second gets through.
def bothFail : List Operation :=
  [.failNext 0 .opening,.failNext 1 .configure,.prepare {} ⟨0,1,1,1⟩,.prepare {} ⟨0,1,1,1⟩]

theorem retriableOnce : ∃ moves s, operate bothFail = .ok (moves,s) ∧
    moves.map (fun m => m.op.failed m.before) = [false,false,true,false] ∧ Retriable moves := by
  obtain ⟨moves,s,done,ran,good⟩ := @operateFound bothFail
    (fun moves => moves.map (fun m => m.op.failed m.before) = [false,false,true,false] &&
      moves.all (fun m => m.op.covered m.before)) (by decide +kernel)
  simp only [Bool.and_eq_true,decide_eq_true_eq,List.all_eq_true] at good
  exact ⟨moves,s,done,good.1,(retriableIff ran).mpr good.2⟩

-- Only agent 1 fails; agent 0 stays configured and no prepare gets through to it any more.
theorem retryRefused : ∃ moves s,
    operate [.failNext 1 .configure,.prepare {} ⟨0,1,1,1⟩] = .ok (moves,s) ∧
      Ran operated moves s ∧ ¬ Retriable moves := by
  obtain ⟨moves,s,done,ran,good⟩ := @operateFound [.failNext 1 .configure,.prepare {} ⟨0,1,1,1⟩]
    (fun moves => moves.any (fun m => m.op.failed m.before && m.after.state = .idle &&
      m.after.agents.any (fun agent => agent.state = .configured))) (by decide +kernel)
  refine ⟨moves,s,done,ran,?_⟩
  intro retriable
  obtain ⟨m,member,held⟩ := List.any_eq_true.mp good
  simp only [Bool.and_eq_true,decide_eq_true_eq,List.any_eq_true] at held
  obtain ⟨⟨failed,idle⟩,agent,inside,configured⟩ := held
  exact Cluster.stuckCluster idle inside (Or.inl configured) (retriable m member failed)

end Syncons.Ssr
