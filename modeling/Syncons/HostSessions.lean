import Syncons.HostAgent
import Syncons.Runs

/-! Which session a request belongs to, over every history of requests to one agent, called
directly or through its service. The agent keeps no session id to compare with: a request of
another session is refused without effect exactly when the agent's state refuses it. -/
namespace Syncons.Ssr
open Runs (System Move Ran)
open Methods

variable {β : Type} [DataplaneBackend β] {agent : SSRAgent β} {session : SessionId}
  {call : Method (SSRAgent β) Unit} {moves pre post : List (Move (SSRAgent β) Request)}

inductive Call where
  | prepare (sessionId : SessionId) (runConfig : RunConfig)
  | start (sessionId : SessionId)
  | stop (sessionId : SessionId)
  deriving DecidableEq, Repr

def Call.run : Call → Method (SSRAgent β) Unit
  | prepare sessionId runConfig => SSRAgent.prepare sessionId runConfig
  | start sessionId => SSRAgent.start sessionId
  | stop sessionId => SSRAgent.stop sessionId

inductive Request where
  | direct (call : Call)
  | prepareRpc (request : PrepareRequest)
  | startRpc (request : SessionRequest)
  | stopRpc (request : SessionRequest)
  deriving DecidableEq, Repr

namespace Request

def serve : Request → SSRAgent β → Bool × SSRAgent β
  | direct call,agent => (returned (call.run agent),left (call.run agent))
  | prepareRpc request,agent =>
    let answer := AgentRPCService.prepare request agent
    (answer.1.1.code = .ok,answer.2)
  | startRpc request,agent =>
    let answer := AgentRPCService.start request agent
    (answer.1.1.code = .ok,answer.2)
  | stopRpc request,agent =>
    let answer := AgentRPCService.stop request agent
    (answer.1.1.code = .ok,answer.2)

def prepares : Request → Option SessionId
  | direct (.prepare sessionId _) => some sessionId
  | prepareRpc request => request.sessionId
  | _ => none

def names : Request → Option SessionId
  | direct (.start sessionId) => some sessionId
  | direct (.stop sessionId) => some sessionId
  | startRpc request => request.sessionId
  | stopRpc request => request.sessionId
  | _ => none

/- A Start that gets to an agent in Configured, or a Stop that gets to one in Running. -/
def finds : Request → SSRAgent β → Bool
  | direct (.start _),agent => agent.state = .configured
  | direct (.stop _),agent => agent.state = .running
  | startRpc request,agent => request.targetNodeId = agent.nodeId && agent.state = .configured
  | stopRpc request,agent => request.targetNodeId = agent.nodeId && agent.state = .running
  | _,_ => false

end Request

def requested : System (SSRAgent β) Request where
  start agent := agent.state = .idle ∧ agent.sessionId = {}
  step agent request agent' := agent' = (request.serve agent).2

namespace SSRAgent

omit [DataplaneBackend β] in
theorem orIdleOnBackend (step : Method β Unit) (target : AgentState) :
    orIdle (do onBackend step; setState target) agent =
      match step agent.backend with
      | .ok _ b => .ok () {agent with backend := b, state := target}
      | .error e b => .error e {agent with backend := b, state := .idle} := by
  cases done : step agent.backend <;> simp [orIdle,onBackend,setState,done]

variable {expected target : AgentState} {verb : String} {step : Method β Unit}

omit [DataplaneBackend β] in
theorem stepRefused (state : agent.state ≠ expected) :
    ∃ e, stepFrom expected verb step target agent = .error e agent := by
  simp [stepFrom,refuse,state]

omit [DataplaneBackend β] in
theorem stepRuns (state : agent.state = expected) : stepFrom expected verb step target agent =
    match step agent.backend with
    | .ok _ b => .ok () {agent with backend := b, state := target}
    | .error e b => .error e {agent with backend := b, state := .idle} := by
  have taken : stepFrom expected verb step target agent =
      orIdle (do onBackend step; setState target) agent := by simp [stepFrom,state]
  rw [taken,orIdleOnBackend]

omit [DataplaneBackend β] in
theorem stepMoves (state : agent.state = expected) (onward : target ≠ expected)
    (back : .idle ≠ expected) : (left (stepFrom expected verb step target agent)).state ≠ expected := by
  rw [stepRuns state]
  cases step agent.backend with
  | ok _ b => exact onward
  | error e b => exact back

theorem startRefused (state : agent.state ≠ .configured) :
    ∃ e, start session agent = .error e agent := stepRefused state

theorem stopRefused (state : agent.state ≠ .running) :
    ∃ e, stop session agent = .error e agent := stepRefused state

theorem startMoves (state : agent.state = .configured) :
    (left (start session agent)).state ≠ .configured := stepMoves state nofun nofun

theorem stopMoves (state : agent.state = .running) :
    (left (stop session agent)).state ≠ .running := stepMoves state nofun nofun

end SSRAgent

namespace AgentRPCService

theorem fillReplyKeeps : left (fillReply agent) = agent := by
  cases status : DataplaneBackend.status agent.backend <;>
    simp [fillReply,SSRAgent.backendStatus,status]

theorem answerAgent : (answer call agent).2 = left (call agent) := by
  cases done : call agent with
  | error e a => simp [answer,done]
  | ok _ a =>
    have keeps := @fillReplyKeeps _ _ a
    cases filled : fillReply a <;> simp_all [answer]

theorem statusNotOk (e : Exception) : (exceptionToGrpcStatus e).code ≠ .ok := by
  cases e <;> exact nofun

theorem answerThrew {e : Exception} {agent' : SSRAgent β} (threw : call agent = .error e agent') :
    answer call agent = ((exceptionToGrpcStatus e,{}),agent') := by simp [answer,threw]

theorem answerRefused {e : Exception} (refused : call agent = .error e agent) :
    (answer call agent).1.1.code ≠ .ok ∧ (answer call agent).2 = agent := by
  rw [answerThrew refused]
  exact ⟨statusNotOk e,rfl⟩

variable {method : SessionId → Method (SSRAgent β) Unit} {request : SessionRequest}

theorem withSessionRefused (named : request.sessionId = some session)
    (refused : request.targetNodeId = agent.nodeId → ∃ e, method session agent = .error e agent) :
    (withSession method request agent).1.1.code ≠ .ok ∧
      (withSession method request agent).2 = agent := by
  simp only [withSession,named]
  split
  · exact ⟨nofun,rfl⟩
  · rename_i target
    obtain ⟨e,threw⟩ := refused (not_not.mp target)
    exact answerRefused threw

theorem withSessionAgent (named : request.sessionId = some session)
    (target : request.targetNodeId = agent.nodeId) :
    (withSession method request agent).2 = left (method session agent) := by
  simp only [withSession,named,target,ne_eq,not_true_eq_false,if_false]
  exact answerAgent

end AgentRPCService

namespace Request
variable {request : Request}

theorem unfoundRefused (named : request.names = some session) (unfound : request.finds agent = false) :
    request.serve agent = (false,agent) := by
  cases request with
  | direct call =>
    cases call with
    | prepare sessionId runConfig => cases named
    | start sessionId =>
      have state : agent.state ≠ .configured := by simpa [finds] using unfound
      obtain ⟨e,refused⟩ := @SSRAgent.startRefused _ _ _ sessionId state
      simp [serve,Call.run,refused]
    | stop sessionId =>
      have state : agent.state ≠ .running := by simpa [finds] using unfound
      obtain ⟨e,refused⟩ := @SSRAgent.stopRefused _ _ _ sessionId state
      simp [serve,Call.run,refused]
  | prepareRpc request => cases named
  | startRpc request =>
    have refused : (AgentRPCService.start request agent).1.1.code ≠ .ok ∧
        (AgentRPCService.start request agent).2 = agent := by
      refine AgentRPCService.withSessionRefused named ?_
      intro target
      exact SSRAgent.startRefused (by simpa [finds,target] using unfound)
    simp [serve,refused]
  | stopRpc request =>
    have refused : (AgentRPCService.stop request agent).1.1.code ≠ .ok ∧
        (AgentRPCService.stop request agent).2 = agent := by
      refine AgentRPCService.withSessionRefused named ?_
      intro target
      exact SSRAgent.stopRefused (by simpa [finds,target] using unfound)
    simp [serve,refused]

theorem foundMoves (named : request.names = some session) (found : request.finds agent = true) :
    (request.serve agent).2 ≠ agent := by
  intro same
  cases request with
  | direct call =>
    cases call with
    | prepare sessionId runConfig => cases named
    | start sessionId =>
      have state : agent.state = .configured := by simpa [finds] using found
      have moves := @SSRAgent.startMoves _ _ _ sessionId state
      have stays : left (SSRAgent.start sessionId agent) = agent := same
      rw [stays] at moves
      exact moves state
    | stop sessionId =>
      have state : agent.state = .running := by simpa [finds] using found
      have moves := @SSRAgent.stopMoves _ _ _ sessionId state
      have stays : left (SSRAgent.stop sessionId agent) = agent := same
      rw [stays] at moves
      exact moves state
  | prepareRpc request => cases named
  | startRpc request =>
    simp only [finds,Bool.and_eq_true,decide_eq_true_eq] at found
    have answered : (AgentRPCService.start request agent).2 = left (SSRAgent.start session agent) :=
      AgentRPCService.withSessionAgent named found.1
    have moves := @SSRAgent.startMoves _ _ _ session found.2
    rw [← answered] at moves
    exact moves (same.symm ▸ found.2)
  | stopRpc request =>
    simp only [finds,Bool.and_eq_true,decide_eq_true_eq] at found
    have answered : (AgentRPCService.stop request agent).2 = left (SSRAgent.stop session agent) :=
      AgentRPCService.withSessionAgent named found.1
    have moves := @SSRAgent.stopMoves _ _ _ session found.2
    rw [← answered] at moves
    exact moves (same.symm ▸ found.2)

end Request

def accepted (m : Move (SSRAgent β) Request) : Bool := (m.op.serve m.before).1

def lastPrepared (moves : List (Move (SSRAgent β) Request)) : Option SessionId :=
  moves.foldl (fun last m => if accepted m then m.op.prepares <|> last else last) none

/- A Start or Stop succeeds only for the session of the last successful Prepare, and for any
other session it is rejected with the agent and its backend as they were. -/
def SessionsKept (moves : List (Move (SSRAgent β) Request)) : Prop :=
  ∀ pre m post, moves = pre ++ m :: post → ∀ session, m.op.names = some session →
    (accepted m = true → lastPrepared pre = some session) ∧
    (lastPrepared pre ≠ some session → accepted m = false ∧ m.after = m.before)

theorem sessionsKeptIff (ran : Ran requested moves agent) : SessionsKept moves ↔
    ∀ pre m post, moves = pre ++ m :: post → ∀ session, m.op.names = some session →
      lastPrepared pre ≠ some session → m.op.finds m.before = false := by
  constructor
  · intro kept pre m post split session named other
    have after : m.after = (m.op.serve m.before).2 :=
      Runs.ranStep ran (by simp [split])
    obtain ⟨_,stays⟩ := (kept pre m post split session named).2 other
    cases found : m.op.finds m.before with
    | false => rfl
    | true => exact absurd (after.symm.trans stays) (Request.foundMoves named found)
  · intro unfound pre m post split session named
    have after : m.after = (m.op.serve m.before).2 :=
      Runs.ranStep ran (by simp [split])
    have rejects (other : lastPrepared pre ≠ some session) :
        accepted m = false ∧ m.after = m.before := by
      have refused := Request.unfoundRefused named (unfound pre m post split session named other)
      rw [after,accepted,refused]
      exact ⟨rfl,rfl⟩
    refine ⟨?_,rejects⟩
    intro succeeded
    by_contra other
    cases succeeded.symm.trans (rejects other).1

def request (agent : SSRAgent MockDataplaneBackend) (request : Request) :
    Except Empty (SSRAgent MockDataplaneBackend) := .ok (request.serve agent).2

def requests (ops : List Request) : Except Empty
    (List (Move (SSRAgent MockDataplaneBackend) Request) × SSRAgent MockDataplaneBackend) :=
  Runs.record request ops {nodeId := 0, backend := {}}

theorem requestsFound {ops : List Request}
    {good : List (Move (SSRAgent MockDataplaneBackend) Request) → Bool}
    (value : (requests ops).toOption.map (fun result => good result.1) = some true) :
    ∃ moves agent, requests ops = .ok (moves,agent) ∧ Ran requested moves agent ∧
      good moves = true := by
  obtain ⟨⟨moves,agent⟩,done,found⟩ := Runs.okFound value
  exact ⟨moves,agent,done,Runs.recordTotal (fun _ _ => rfl) ⟨rfl,rfl⟩ done,found⟩

def aRun : RunConfig := ⟨1,1,1,1⟩

-- Two sessions: the second may not start while the agent runs the first.
def twoSessions : List Request :=
  [.prepareRpc ⟨0,some ⟨0,1⟩,some aRun⟩,.startRpc ⟨0,some ⟨0,1⟩⟩,.startRpc ⟨0,some ⟨0,2⟩⟩,
    .direct (.stop ⟨0,1⟩)]

theorem sessionsKeptOnce : ∃ moves agent, requests twoSessions = .ok (moves,agent) ∧
    moves.map accepted = [true,true,false,true] ∧ SessionsKept moves := by
  obtain ⟨moves,agent,done,ran,good⟩ := @requestsFound twoSessions
    (fun moves => moves.map accepted = [true,true,false,true] &&
      (List.range moves.length).all (fun i => (Runs.cut i moves).all (fun w =>
        w.2.1.op.names.all (fun session => lastPrepared w.1 = some session ||
          !w.2.1.op.finds w.2.1.before)))) (by decide +kernel)
  simp only [Bool.and_eq_true,decide_eq_true_eq,List.all_eq_true,List.mem_range] at good
  refine ⟨moves,agent,done,good.1,(sessionsKeptIff ran).mpr ?_⟩
  intro pre m post split session named other
  have inside := good.2 pre.length (by simp [split])
  simpa [split,Runs.cutAt,named,other] using inside

-- The second session starts what was prepared for the first.
theorem sessionsMixed : ∃ moves agent,
    requests [.prepareRpc ⟨0,some ⟨0,1⟩,some aRun⟩,.startRpc ⟨0,some ⟨0,2⟩⟩] = .ok (moves,agent) ∧
      Ran requested moves agent ∧ ¬ SessionsKept moves := by
  obtain ⟨moves,agent,done,ran,good⟩ :=
    @requestsFound [.prepareRpc ⟨0,some ⟨0,1⟩,some aRun⟩,.startRpc ⟨0,some ⟨0,2⟩⟩]
      (fun moves => (Runs.cut 1 moves).any (fun w => accepted w.2.1 &&
        w.2.1.op.names = some ⟨0,2⟩ && lastPrepared w.1 = some ⟨0,1⟩)) (by decide +kernel)
  refine ⟨moves,agent,done,ran,?_⟩
  intro kept
  obtain ⟨⟨pre,m,post⟩,found,good⟩ := (Option.any_eq_true _ _).mp good
  simp only [Bool.and_eq_true,decide_eq_true_eq] at good
  have last := (kept pre m post (Runs.cutIs found) ⟨0,2⟩ good.1.2).1 good.1.1
  exact absurd (good.2.symm.trans last) (by decide)

end Syncons.Ssr
