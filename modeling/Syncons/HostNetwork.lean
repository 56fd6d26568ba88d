import Mathlib.Logic.Function.Basic
import Syncons.AgentStates

/-! The coordinator and its agents over a network. Every operation is one call to each agent; a
request may be served after the caller has given it up, an answer may come too late or never,
and the coordinator may be replaced at any time. A start still finds only agents that have all
been prepared with one configuration. -/
namespace Syncons.Ssr
open Runs (System Move Ran ranAt ranSnoc)
open Methods

namespace AgentRPCService

def getStatus (targetNodeId : UInt32) (agent : Agent) : Answer MockDataplaneBackend :=
  if targetNodeId ≠ agent.nodeId then ((wrongTarget,{}),agent) else answer (pure ()) agent

end AgentRPCService

inductive Message where
  | prepare (request : PrepareRequest)
  | start (request : SessionRequest)
  | stop (request : SessionRequest)
  | getStatus (targetNodeId : UInt32)
  deriving DecidableEq, Repr

namespace Message

def serve : Message → Agent → AgentRPCService.Answer MockDataplaneBackend
  | prepare request => AgentRPCService.prepare request
  | start request => AgentRPCService.start request
  | stop request => AgentRPCService.stop request
  | getStatus target => AgentRPCService.getStatus target

def drives : Message → Bool
  | prepare _ | getStatus _ => false
  | start _ | stop _ => true

end Message

inductive Command where
  | prepare (sessionId : SessionId) (runConfig : RunConfig)
  | start
  | stop
  | getStatus
  deriving DecidableEq, Repr

namespace Command

def requires : Command → Option CoordinatorState
  | prepare _ _ => some .idle
  | start => some .ready
  | stop => some .running
  | getStatus => none

def message (sessionId : SessionId) (target : NodeId) : Command → Message
  | prepare sessionId runConfig => .prepare ⟨target,some sessionId,some runConfig⟩
  | start => .start ⟨target,some sessionId⟩
  | stop => .stop ⟨target,some sessionId⟩
  | getStatus => .getStatus target

def sends (held : SessionId) : Command → SessionId
  | prepare sessionId _ => sessionId
  | _ => held

def expects : Command → Option (ProtoAgentState × ProtoDataplaneState)
  | prepare _ _ => some (.configured,.configured)
  | start => some (.running,.running)
  | stop => some (.stopped,.closed)
  | getStatus => none

def target (state : CoordinatorState) : Command → CoordinatorState
  | prepare _ _ => .ready
  | start => .running
  | stop => .stopped
  | getStatus => state

def failed (state : CoordinatorState) : Command → CoordinatorState
  | getStatus => state
  | _ => .idle

def judge (c : Command) (result : AgentRPCResult) : AgentRPCResult :=
  match c.expects with
  | some (agent,dataplane) => validateReply agent dataplane result
  | none => result

end Command

structure Envelope where
  client : Nat
  call : Nat
  message : Message
  deriving DecidableEq, Repr

structure Returning where
  client : Nat
  call : Nat
  status : Status
  reply : AgentReply
  deriving DecidableEq, Repr

-- How a call ended: with an answer, or in the network, as when its deadline passes.
inductive Outcome where
  | answered (result : AgentRPCResult)
  | unanswered
  deriving DecidableEq, Repr

def Outcome.ok : Outcome → Bool
  | answered result => result.ok
  | unanswered => false

structure Pending where
  command : Command
  outcomes : Nat → Option Outcome := fun _ => none

structure HostNet where
  state : CoordinatorState := .idle
  sessionId : SessionId := {}
  call : Nat := 0
  pending : Option Pending := none
  agents : Nat → Agent
  requests : List Envelope := []
  replies : List Returning := []

inductive HostOp where
  | command (c : Command)
  | serve (k : Nat)
  | deliver (k : Nat)
  | expire (client : Nat)
  | finish
  | restart
  | failNext (client : Nat) (point : MockFailurePoint)
  deriving DecidableEq, Repr

structure HostPlant where
  clientCount : Nat
  nodeId : Nat → NodeId

namespace HostNet

variable (d : HostPlant) (h : HostNet)

def admits (c : Command) : Bool := c.requires.all (fun expected => h.state = expected)

def issue (c : Command) : HostNet :=
  let session := c.sends h.sessionId
  { h with
    sessionId := session
    call := h.call + 1
    pending := some {command := c}
    requests := h.requests ++
      (List.range d.clientCount).map (fun i => ⟨i,h.call + 1,c.message session (d.nodeId i)⟩) }

-- One operation at a time; one that finds the wrong state throws and changes nothing.
def command (c : Command) : HostNet :=
  if h.pending.isSome then h else if h.admits c then h.issue d c else h

def serve (k : Nat) : HostNet :=
  match h.requests[k]? with
  | none => h
  | some e =>
    let answer := e.message.serve (h.agents e.client)
    { h with
      requests := h.requests.eraseIdx k
      agents := Function.update h.agents e.client answer.2
      replies := h.replies ++ [⟨e.client,e.call,answer.1.1,answer.1.2⟩] }

def settle (client : Nat) (o : Command → Outcome) : HostNet :=
  match h.pending with
  | some p =>
    if (p.outcomes client).isSome then h
    else {h with pending := some {p with outcomes := Function.update p.outcomes client (some (o p.command))}}
  | none => h

def deliver (k : Nat) : HostNet :=
  match h.replies[k]? with
  | none => h
  | some r =>
    let h := {h with replies := h.replies.eraseIdx k}
    if r.call = h.call then
      h.settle r.client (fun c => .answered (c.judge ⟨d.nodeId r.client,r.status,r.reply⟩))
    else h

def settled (p : Pending) : Bool := (List.range d.clientCount).all (fun i => (p.outcomes i).isSome)
def succeeded (p : Pending) : Bool :=
  (List.range d.clientCount).all (fun i => (p.outcomes i).any Outcome.ok)

def finish : HostNet :=
  match h.pending with
  | some p =>
    if settled d p then
      { h with
        state := if succeeded d p then p.command.target h.state else p.command.failed h.state
        pending := none }
    else h
  | none => h

def restart : HostNet := {h with state := .idle, sessionId := {}, pending := none}

def failNext (client : Nat) (point : MockFailurePoint) : HostNet :=
  let agent := h.agents client
  {h with agents := Function.update h.agents client {agent with backend := agent.backend.failNext point}}

def next : HostOp → HostNet
  | .command c => h.command d c
  | .serve k => h.serve k
  | .deliver k => h.deliver d k
  | .expire client => h.settle client (fun _ => .unanswered)
  | .finish => h.finish d
  | .restart => h.restart
  | .failNext client point => h.failNext client point

def system : System HostNet HostOp where
  start h := (∀ i, (h.agents i).state = .idle ∧ (h.agents i).backend = {}) ∧ h = {agents := h.agents}
  step h op h' := h' = h.next d op

end HostNet

section Agents

variable {agent agent' : Agent} {session : SessionId} {config : RunConfig}

theorem configureOk {b b' : MockDataplaneBackend} (ok : MockDataplaneBackend.configure config b = .ok () b') :
    b.state = .opened ∧ b'.state = .configured ∧ b'.config = some config := by
  by_cases opened : b.state = .opened
  · cases valid : config.validate with
    | error e =>
      rw [MockDataplaneBackend.configureInvalid opened valid] at ok
      cases ok
    | ok u =>
      rw [MockDataplaneBackend.configureRun opened valid] at ok
      split at ok
      · cases ok
      · cases ok
        exact ⟨opened,rfl,rfl⟩
  · obtain ⟨e,refused⟩ := @MockDataplaneBackend.configureRefused config b opened
    rw [refused] at ok
    cases ok

theorem prepareRefused (state : agent.state = .configured ∨ agent.state = .running) :
    ∃ e, SSRAgent.prepare session config agent = .error e agent := by
  rcases state with state | state <;> simp [SSRAgent.prepare,SSRAgent.refuse,state]

-- A prepare from Idle or Stopped: configured as asked, or back in Idle.
theorem prepareEnds (free : agent.state = .idle ∨ agent.state = .stopped) :
    (∃ b, SSRAgent.prepare session config agent = .ok () {agent with state := .configured, backend := b} ∧
      b.state = .configured ∧ b.config = some config) ∨
    ∃ e b, SSRAgent.prepare session config agent = .error e {agent with state := .idle, backend := b} := by
  have passes : ¬ (agent.state ≠ .idle ∧ agent.state ≠ .stopped) := by
    rcases free with state | state <;> simp [state]
  have runs (b : MockDataplaneBackend) :
      (∃ b', MockDataplaneBackend.configure config b = .ok () b' ∧ b'.state = .configured ∧
        b'.config = some config) ∨ ∃ e b', MockDataplaneBackend.configure config b = .error e b' := by
    cases done : MockDataplaneBackend.configure config b with
    | ok u b' => exact .inl ⟨b',rfl,(configureOk done).2⟩
    | error e b' => exact .inr ⟨e,b',rfl⟩
  by_cases closed : agent.backend.state = .closed
  · by_cases hit : agent.backend.failurePoint = some .opening
    · right
      simp [SSRAgent.prepare,passes,SSRAgent.orIdle,SSRAgent.backendStatus,DataplaneBackend.status,
        MockDataplaneBackend.status,SSRAgent.onBackend,DataplaneBackend.openBackend,SSRAgent.setState,
        closed,MockDataplaneBackend.openRun,hit]
    · rcases runs {agent.backend with state := .opened} with ⟨b,done,facts⟩ | ⟨e,b,done⟩
      · left
        refine ⟨b,?_,facts⟩
        simp [SSRAgent.prepare,passes,SSRAgent.orIdle,SSRAgent.backendStatus,DataplaneBackend.status,
          MockDataplaneBackend.status,SSRAgent.onBackend,DataplaneBackend.openBackend,
          DataplaneBackend.configure,SSRAgent.setState,closed,MockDataplaneBackend.openRun,hit,done]
      · right
        refine ⟨e,b,?_⟩
        simp [SSRAgent.prepare,passes,SSRAgent.orIdle,SSRAgent.backendStatus,DataplaneBackend.status,
          MockDataplaneBackend.status,SSRAgent.onBackend,DataplaneBackend.openBackend,
          DataplaneBackend.configure,SSRAgent.setState,closed,MockDataplaneBackend.openRun,hit,done]
  · rcases runs agent.backend with ⟨b,done,facts⟩ | ⟨e,b,done⟩
    · left
      refine ⟨b,?_,facts⟩
      simp [SSRAgent.prepare,passes,SSRAgent.orIdle,SSRAgent.backendStatus,DataplaneBackend.status,
        MockDataplaneBackend.status,SSRAgent.onBackend,DataplaneBackend.configure,SSRAgent.setState,
        closed,done]
    · right
      refine ⟨e,b,?_⟩
      simp [SSRAgent.prepare,passes,SSRAgent.orIdle,SSRAgent.backendStatus,DataplaneBackend.status,
        MockDataplaneBackend.status,SSRAgent.onBackend,DataplaneBackend.configure,SSRAgent.setState,
        closed,done]

inductive ServedPrepare (request : PrepareRequest) (agent : Agent) (ok : Prop) : Agent → Prop where
  | refused (no : ¬ ok) : ServedPrepare request agent ok agent
  | fails (free : agent.state = .idle ∨ agent.state = .stopped) (no : ¬ ok) (b : MockDataplaneBackend) :
      ServedPrepare request agent ok {agent with state := .idle, backend := b}
  | done (free : agent.state = .idle ∨ agent.state = .stopped) (b : MockDataplaneBackend)
      (state : b.state = .configured) (config : b.config = request.runConfig)
      (given : request.runConfig.isSome = true) :
      ServedPrepare request agent ok {agent with state := .configured, backend := b}

theorem prepareServed (request : PrepareRequest) (agent : Agent) :
    ServedPrepare request agent ((AgentRPCService.prepare request agent).1.1.code = .ok)
      (AgentRPCService.prepare request agent).2 := by
  unfold AgentRPCService.prepare
  split
  · exact .refused nofun
  · split
    · rename_i session config _ given
      by_cases free : agent.state = .idle ∨ agent.state = .stopped
      · rcases @prepareEnds agent session config free with ⟨b,ran,state,held⟩ | ⟨e,b,threw⟩
        · rw [AgentRPCService.answerAgent,ran]
          exact .done free b state (held.trans given.symm) (by simp [given])
        · rw [AgentRPCService.answerThrew threw]
          exact .fails free (AgentRPCService.statusNotOk e) b
      · have held : agent.state = .configured ∨ agent.state = .running := by
          cases state : agent.state <;> simp [state] at free ⊢
        obtain ⟨e,threw⟩ := @prepareRefused agent session config held
        rw [AgentRPCService.answerThrew threw]
        exact .refused (AgentRPCService.statusNotOk e)
    · exact .refused nofun

inductive ServedStart (agent : Agent) (ok : Prop) : Agent → Prop where
  | refused (no : ¬ ok) : ServedStart agent ok agent
  | fails (no : ¬ ok) (b : MockDataplaneBackend) :
      ServedStart agent ok {agent with state := .idle, backend := b}
  | done : ServedStart agent ok
      {agent with state := .running, backend := {agent.backend with state := .running}}

theorem startServed (request : SessionRequest) (prepared : agent.Prepared) :
    ServedStart agent ((AgentRPCService.start request agent).1.1.code = .ok)
      (AgentRPCService.start request agent).2 := by
  unfold AgentRPCService.start AgentRPCService.withSession
  split
  · exact .refused nofun
  · split
    · rename_i session _
      have runs := @SSRAgent.startRuns agent session prepared
      split at runs
      · rw [AgentRPCService.answerThrew runs]
        exact .fails (AgentRPCService.statusNotOk _) _
      · rw [AgentRPCService.answerAgent,runs]
        exact .done
    · exact .refused nofun

theorem stopServed (request : SessionRequest) (started : agent.Started) :
    (AgentRPCService.stop request agent).2 = agent ∨
      (AgentRPCService.stop request agent).2.state ≠ .running := by
  unfold AgentRPCService.stop AgentRPCService.withSession
  split
  · exact .inl rfl
  · split
    · rename_i session _
      rw [AgentRPCService.answerAgent]
      exact .inr (SSRAgent.stopMoves started.1)
    · exact .inl rfl

theorem statusServed (target : UInt32) (agent : Agent) : (AgentRPCService.getStatus target agent).2 = agent := by
  unfold AgentRPCService.getStatus
  split
  · rfl
  · rw [AgentRPCService.answerAgent]
    rfl

end Agents

namespace SSRAgent

def PreparedWith (config : Option RunConfig) (agent : Agent) : Prop :=
  agent.Prepared ∧ agent.backend.config = config

def StartedWith (config : Option RunConfig) (agent : Agent) : Prop :=
  agent.Started ∧ agent.backend.config = config

end SSRAgent

namespace HostNet
open SSRAgent (PreparedWith StartedWith)

variable {d : HostPlant} {h h' : HostNet} {i k : Nat} {e : Envelope} {last : Option RunConfig}

def commands (h : HostNet) (i : Nat) : List Message :=
  (h.requests.filter (fun e => e.client = i && e.message.drives)).map Envelope.message

/- One at most, and while it is under way the agent stays where it found it when it was sent. -/
inductive Phase (agent : Agent) : List Message → Prop where
  | clean : Phase agent []
  | starting (r : SessionRequest) (prepared : agent.Prepared) : Phase agent [.start r]
  | stopping (r : SessionRequest) (started : agent.Started) : Phase agent [.stop r]

theorem Phase.free {agent : Agent} {l : List Message} (phase : Phase agent l)
    (free : agent.state = .idle ∨ agent.state = .stopped) : l = [] := by
  cases phase with
  | clean => rfl
  | starting r prepared => simp [prepared.1] at free
  | stopping r started => simp [started.1] at free

theorem Phase.short {agent : Agent} {l : List Message} (phase : Phase agent l) : l.length ≤ 1 := by
  cases phase <;> simp

inductive ServedAt (agent : Agent) (m : Message) (ok : Prop) : List Message → Agent → List Message → Prop where
  | still {l : List Message} (quiet : m.drives = false) (no : ∀ r, m = .prepare r → ¬ ok) :
      ServedAt agent m ok l agent l
  | fails (free : agent.state = .idle ∨ agent.state = .stopped) (no : ¬ ok) (b : MockDataplaneBackend) :
      ServedAt agent m ok [] {agent with state := .idle, backend := b} []
  | prepared (free : agent.state = .idle ∨ agent.state = .stopped) (r : PrepareRequest)
      (is : m = .prepare r) (b : MockDataplaneBackend) (state : b.state = .configured)
      (config : b.config = r.runConfig) (given : r.runConfig.isSome = true) :
      ServedAt agent m ok [] {agent with state := .configured, backend := b} []
  | started (r : SessionRequest) (is : m = .start r) (before : agent.Prepared) : ServedAt agent m ok [m]
      {agent with state := .running, backend := {agent.backend with state := .running}} []
  | startFails (r : SessionRequest) (is : m = .start r) (no : ¬ ok) (b : MockDataplaneBackend) :
      ServedAt agent m ok [m] {agent with state := .idle, backend := b} []
  | startRefused (r : SessionRequest) (is : m = .start r) (before : agent.Prepared) (no : ¬ ok) :
      ServedAt agent m ok [m] agent []
  | stopRefused (r : SessionRequest) (is : m = .stop r) (before : agent.Started) :
      ServedAt agent m ok [m] agent []
  | stopped (r : SessionRequest) (is : m = .stop r) (agent' : Agent) (state : agent'.state ≠ .running) :
      ServedAt agent m ok [m] agent' []

section Lists

variable {α : Type} {l : List α} {a : α} {p : α → Bool}

theorem eraseSplit (found : l[k]? = some a) :
    ∃ pre post, l = pre ++ a :: post ∧ l.eraseIdx k = pre ++ post := by
  induction l generalizing k with
  | nil => simp at found
  | cons b l ih =>
    cases k with
    | zero =>
      obtain rfl : b = a := by simpa using found
      exact ⟨[],l,rfl,rfl⟩
    | succ k =>
      obtain ⟨pre,post,rfl,erased⟩ := ih (by simpa using found)
      exact ⟨b :: pre,post,rfl,by simp [erased]⟩

theorem eraseApart (found : l[k]? = some a) (apart : p a = false) :
    (l.eraseIdx k).filter p = l.filter p := by
  obtain ⟨pre,post,rfl,erased⟩ := eraseSplit found
  simp [erased,apart]

theorem eraseOnly (found : l[k]? = some a) (inside : p a = true) (short : (l.filter p).length ≤ 1) :
    l.filter p = [a] ∧ (l.eraseIdx k).filter p = [] := by
  obtain ⟨pre,post,rfl,erased⟩ := eraseSplit found
  rw [erased,List.filter_append]
  rw [List.filter_append,List.filter_cons_of_pos inside,List.length_append,List.length_cons] at short
  have front : pre.filter p = [] := List.eq_nil_of_length_eq_zero (by omega)
  have back : post.filter p = [] := List.eq_nil_of_length_eq_zero (by omega)
  rw [List.filter_append,List.filter_cons_of_pos inside,front,back]
  exact ⟨rfl,rfl⟩

end Lists

theorem servedRequests (found : h.requests[k]? = some e) :
    (h.serve k).requests = h.requests.eraseIdx k := by simp [serve,found]

theorem servedQuiet (found : h.requests[k]? = some e) (quiet : e.message.drives = false) :
    commands (h.serve k) i = commands h i := by
  rw [commands,servedRequests found,eraseApart found (by simp [quiet]),commands]

theorem servedOther (found : h.requests[k]? = some e) (other : i ≠ e.client) :
    commands (h.serve k) i = commands h i ∧ (h.serve k).agents i = h.agents i := by
  constructor
  · rw [commands,servedRequests found,eraseApart found (by simp [Ne.symm other]),commands]
  · simp [serve,found,Function.update_of_ne other]

theorem servedOwn (found : h.requests[k]? = some e) (drives : e.message.drives = true)
    (phase : Phase (h.agents e.client) (commands h e.client)) :
    commands h e.client = [e.message] ∧ commands (h.serve k) e.client = [] := by
  have short := phase.short
  rw [commands,List.length_map] at short
  obtain ⟨before,after⟩ := eraseOnly found (by simp [drives]) short
  rw [commands,commands,servedRequests found,before,after]
  exact ⟨rfl,rfl⟩

def Done (h : HostNet) (e : Envelope) : Prop := (e.message.serve (h.agents e.client)).1.1.code = .ok

theorem serveCases (found : h.requests[k]? = some e)
    (phase : Phase (h.agents e.client) (commands h e.client)) :
    ServedAt (h.agents e.client) e.message (Done h e) (commands h e.client)
      ((h.serve k).agents e.client) (commands (h.serve k) e.client) := by
  have agent : (h.serve k).agents e.client = (e.message.serve (h.agents e.client)).2 := by
    simp [serve,found]
  rw [agent]
  have quietly (quiet : e.message.drives = false) := servedQuiet (i := e.client) found quiet
  have owned (drives : e.message.drives = true) := servedOwn found drives phase
  rw [Done]
  generalize e.message = m at quietly owned ⊢
  cases m with
  | prepare r =>
    rw [quietly rfl]
    have served := prepareServed r (h.agents e.client)
    rw [Message.serve]
    generalize (AgentRPCService.prepare r (h.agents e.client)).2 = agent' at served ⊢
    cases served with
    | refused no => exact .still rfl (fun _ _ => no)
    | fails free no b =>
      rw [phase.free free]
      exact .fails free no b
    | done free b state config given =>
      rw [phase.free free]
      exact .prepared free r rfl b state config given
  | start r =>
    obtain ⟨before,after⟩ := owned rfl
    rw [before] at phase
    rw [before,after]
    cases phase with
    | starting _ prepared =>
      have served := startServed r prepared
      rw [Message.serve]
      generalize (AgentRPCService.start r (h.agents e.client)).2 = agent' at served ⊢
      cases served with
      | refused no => exact .startRefused r rfl prepared no
      | fails no b => exact .startFails r rfl no b
      | done => exact .started r rfl prepared
  | stop r =>
    obtain ⟨before,after⟩ := owned rfl
    rw [before] at phase
    rw [before,after]
    cases phase with
    | stopping _ started =>
      have served := stopServed r started
      rw [Message.serve]
      generalize (AgentRPCService.stop r (h.agents e.client)).2 = agent' at served ⊢
      rcases served with rfl | other
      · exact .stopRefused r rfl started
      · exact .stopped r rfl agent' other
  | getStatus target =>
    rw [quietly rfl]
    have same := statusServed target (h.agents e.client)
    rw [Message.serve,same]
    exact .still rfl (by simp)

structure Rests (h : HostNet) (i : Nat) (good : Agent → Prop) : Prop where
  silent : commands h i = []
  good : good (h.agents i)

def Confirmed (h : HostNet) (i : Nat) : Prop :=
  (∃ r ∈ h.replies, r.client = i ∧ r.call = h.call ∧ r.status.code = .ok) ∨
    ∃ p ∈ h.pending, ∃ o ∈ p.outcomes i, o.ok = true

/- The coordinator's state, its operation under way, and what the agents are by then. -/
inductive Course (d : HostPlant) (h : HostNet) (last : Option RunConfig) : Prop where
  | resting (quiet : ∀ p ∈ h.pending, p.command = .getStatus)
      (ready : h.state = .ready → ∀ i < d.clientCount, Rests h i (PreparedWith last))
      (running : h.state = .running → ∀ i < d.clientCount, Rests h i (StartedWith last))
  | preparing (p : Pending) (pending : h.pending = some p) (session : SessionId) (config : RunConfig)
      (command : p.command = .prepare session config) (asked : last = some config)
      (mine : ∀ e ∈ h.requests, e.call = h.call → ∃ r, e.message = .prepare r ∧ r.runConfig = last)
      (goal : ∀ i < d.clientCount, Confirmed h i → Rests h i (PreparedWith last))
  | starting (p : Pending) (pending : h.pending = some p) (command : p.command = .start)
      (mine : ∀ e ∈ h.requests, e.call = h.call → ∃ r, e.message = .start r)
      (armed : ∀ i < d.clientCount, commands h i ≠ [] → PreparedWith last (h.agents i))
      (goal : ∀ i < d.clientCount, Confirmed h i → Rests h i (StartedWith last))
  | stopping (p : Pending) (pending : h.pending = some p) (command : p.command = .stop)

-- A start that was issued when every agent was prepared with `c`.
structure Barrier (d : HostPlant) (c : Option RunConfig) (m : Move HostNet HostOp) : Prop where
  op : m.op = .command .start
  free : m.before.pending = none
  ready : m.before.state = .ready
  prepared : ∀ i < d.clientCount, PreparedWith c (m.before.agents i)

def Active (h : HostNet) (i : Nat) : Prop := (h.agents i).state = .running ∨ commands h i ≠ []

inductive Launched (d : HostPlant) (moves : List (Move HostNet HostOp)) (h : HostNet) : Prop where
  | nobody (idle : ∀ i < d.clientCount, ¬ Active h i)
  | since (c : Option RunConfig) (m : Move HostNet HostOp) (member : m ∈ moves) (barrier : Barrier d c m)
      (all : ∀ i < d.clientCount, Active h i → (h.agents i).backend.config = c)

def asked (m : Move HostNet HostOp) : Option RunConfig :=
  match m.op with
  | .command (.prepare _ config) =>
    if m.before.pending.isNone && m.before.admits (.prepare {} config) then some config else none
  | _ => none

def lastConfig (moves : List (Move HostNet HostOp)) : Option RunConfig := (moves.filterMap asked).getLast?

structure Sound (d : HostPlant) (moves : List (Move HostNet HostOp)) (h : HostNet) : Prop where
  phase : ∀ i, Phase (h.agents i) (commands h i)
  past : (∀ e ∈ h.requests, e.call ≤ h.call) ∧ ∀ r ∈ h.replies, r.call ≤ h.call
  course : Course d h (lastConfig moves)
  launched : Launched d moves h

section Serving

variable {moves : List (Move HostNet HostOp)} {m : Move HostNet HostOp} {good : Agent → Prop}

theorem restsServed (found : h.requests[k]? = some e) (phase : ∀ i, Phase (h.agents i) (commands h i))
    (held : ∀ agent, good agent → agent.state = .configured ∨ agent.state = .running)
    (rests : Rests h i good) : Rests (h.serve k) i good := by
  by_cases own : i = e.client
  · subst own
    have served := serveCases found (phase e.client)
    have state := held _ rests.good
    have busy : ¬ ((h.agents e.client).state = .idle ∨ (h.agents e.client).state = .stopped) := by
      rcases state with state | state <;> simp [state]
    have kept : commands (h.serve k) e.client = [] ∧ good ((h.serve k).agents e.client) := by
      rw [rests.silent] at served
      generalize commands (h.serve k) e.client = after at served ⊢
      generalize (h.serve k).agents e.client = agent' at served ⊢
      cases served with
      | still quiet no => exact ⟨rfl,rests.good⟩
      | fails free no b => exact absurd free busy
      | prepared free r is b state config given => exact absurd free busy
    exact ⟨kept.1,kept.2⟩
  · obtain ⟨silent,same⟩ := servedOther found own
    exact ⟨silent.trans rests.silent,same ▸ rests.good⟩

theorem phaseServed (found : h.requests[k]? = some e) (phase : ∀ i, Phase (h.agents i) (commands h i))
    (i : Nat) : Phase ((h.serve k).agents i) (commands (h.serve k) i) := by
  by_cases own : i = e.client
  · subst own
    have served := serveCases found (phase e.client)
    have before := phase e.client
    generalize commands h e.client = cmds at served before
    generalize commands (h.serve k) e.client = after at served ⊢
    generalize (h.serve k).agents e.client = agent' at served ⊢
    cases served with
    | still quiet no => exact before
    | fails free no b => exact .clean
    | prepared free r is b state config given => exact .clean
    | started r is prepared => exact .clean
    | startFails r is no b => exact .clean
    | startRefused r is prepared no => exact .clean
    | stopRefused r is started => exact .clean
    | stopped r is agent' state => exact .clean
  · obtain ⟨silent,same⟩ := servedOther found own
    rw [silent,same]
    exact phase i

theorem activeServed (found : h.requests[k]? = some e) (phase : ∀ i, Phase (h.agents i) (commands h i))
    (active : Active (h.serve k) i) :
    Active h i ∧ ((h.serve k).agents i).backend.config = (h.agents i).backend.config := by
  by_cases own : i = e.client
  · subst own
    have served := serveCases found (phase e.client)
    rw [Active] at active ⊢
    generalize commands h e.client = cmds at served ⊢
    generalize commands (h.serve k) e.client = after at served active
    generalize (h.serve k).agents e.client = agent' at served active ⊢
    cases served with
    | still quiet no => exact ⟨active,rfl⟩
    | fails free no b => simp at active
    | prepared free r is b state config given => simp at active
    | started r is prepared => exact ⟨.inr (by simp),rfl⟩
    | startFails r is no b => simp at active
    | startRefused r is prepared no => simp [prepared.1] at active
    | stopRefused r is started => exact ⟨.inr (by simp),rfl⟩
    | stopped r is agent' state => simp [state] at active
  · obtain ⟨silent,same⟩ := servedOther found own
    rw [Active,silent,same] at active
    rw [same]
    exact ⟨active,rfl⟩

theorem confirmedServed (found : h.requests[k]? = some e) (confirmed : Confirmed (h.serve k) i) :
    Confirmed h i ∨ i = e.client ∧ e.call = h.call ∧ Done h e := by
  rcases confirmed with ⟨r,member,client,call,ok⟩ | pending
  · have replies : (h.serve k).replies = h.replies ++ [⟨e.client,e.call,
        (e.message.serve (h.agents e.client)).1.1,(e.message.serve (h.agents e.client)).1.2⟩] := by
      simp [serve,found]
    have same : (h.serve k).call = h.call := by simp [serve,found]
    rw [replies] at member
    rw [same] at call
    rcases List.mem_append.mp member with old | new
    · exact .inl (.inl ⟨r,old,client,call,ok⟩)
    · obtain rfl := List.mem_singleton.mp new
      exact .inr ⟨client.symm,call,ok⟩
  · refine .inl (.inr ?_)
    simpa [serve,found] using pending

theorem courseServed (found : h.requests[k]? = some e) (phase : ∀ i, Phase (h.agents i) (commands h i))
    (course : Course d h last) : Course d (h.serve k) last := by
  have pending : (h.serve k).pending = h.pending := by simp [serve,found]
  have state : (h.serve k).state = h.state := by simp [serve,found]
  have call : (h.serve k).call = h.call := by simp [serve,found]
  have fewer : ∀ x ∈ (h.serve k).requests, x ∈ h.requests := by
    intro x member
    simp only [serve,found] at member
    exact List.mem_of_mem_eraseIdx member
  have prepared (c : Option RunConfig) (agent : Agent) (good : PreparedWith c agent) :
      agent.state = .configured ∨ agent.state = .running := .inl good.1.1
  have started (c : Option RunConfig) (agent : Agent) (good : StartedWith c agent) :
      agent.state = .configured ∨ agent.state = .running := .inr good.1.1
  cases course with
  | resting quiet ready running =>
    refine .resting (by rwa [pending]) ?_ ?_
    · rw [state]
      intro now i inside
      exact restsServed found phase (prepared last) (ready now i inside)
    · rw [state]
      intro now i inside
      exact restsServed found phase (started last) (running now i inside)
  | preparing p is session config command asked mine goal =>
    refine .preparing p (pending.trans is) session config command asked ?_ ?_
    · intro x member now
      exact mine x (fewer x member) (call ▸ now)
    · intro i inside confirmed
      rcases confirmedServed found confirmed with old | ⟨rfl,now,done⟩
      · exact restsServed found phase (prepared last) (goal i inside old)
      · obtain ⟨r,message,same⟩ := mine e (List.mem_of_getElem? found) now
        have served := serveCases found (phase e.client)
        rw [message] at served
        have made : commands (h.serve k) e.client = [] ∧ PreparedWith last ((h.serve k).agents e.client) := by
          generalize commands h e.client = cmds at served
          generalize commands (h.serve k) e.client = after at served ⊢
          generalize (h.serve k).agents e.client = agent' at served ⊢
          cases served with
          | still quiet no => exact absurd done (no r rfl)
          | fails free no b => exact absurd done no
          | prepared free r' is b state config given =>
            cases is
            exact ⟨rfl,⟨rfl,state,config ▸ given⟩,config.trans same⟩
          | started r' is => cases is
          | startFails r' is => cases is
          | startRefused r' is => cases is
          | stopRefused r' is => cases is
          | stopped r' is => cases is
        exact ⟨made.1,made.2⟩
  | starting p is command mine armed goal =>
    refine .starting p (pending.trans is) command ?_ ?_ ?_
    · intro x member now
      exact mine x (fewer x member) (call ▸ now)
    · intro i inside busy
      by_cases own : i = e.client
      · subst own
        have served := serveCases found (phase e.client)
        have before := armed e.client inside
        generalize commands h e.client = cmds at served before
        generalize commands (h.serve k) e.client = after at served busy
        generalize (h.serve k).agents e.client = agent' at served ⊢
        cases served with
        | still quiet no => exact before busy
        | _ => exact absurd rfl busy
      · obtain ⟨silent,same⟩ := servedOther found own
        rw [silent] at busy
        rw [same]
        exact armed i inside busy
    · intro i inside confirmed
      rcases confirmedServed found confirmed with old | ⟨rfl,now,done⟩
      · exact restsServed found phase (started last) (goal i inside old)
      · obtain ⟨r,message⟩ := mine e (List.mem_of_getElem? found) now
        have served := serveCases found (phase e.client)
        rw [message] at served
        have ready := armed e.client inside
        have made : commands (h.serve k) e.client = [] ∧ StartedWith last ((h.serve k).agents e.client) := by
          generalize commands h e.client = cmds at served ready
          generalize commands (h.serve k) e.client = after at served ⊢
          generalize (h.serve k).agents e.client = agent' at served ⊢
          cases served with
          | still quiet => cases quiet
          | fails free no b => exact absurd done no
          | prepared free r' is => cases is
          | started r' is before => exact ⟨rfl,⟨rfl,rfl⟩,(ready (by simp)).2⟩
          | startFails r' is no => exact absurd done no
          | startRefused r' is before no => exact absurd done no
          | stopRefused r' is => cases is
          | stopped r' is => cases is
        exact ⟨made.1,made.2⟩
  | stopping p is command => exact .stopping p (pending.trans is) command

end Serving

section Issuing

theorem onlyOne (n i : Nat) : (List.range n).filter (fun j => decide (j = i)) = if i < n then [i] else [] := by
  induction n with
  | zero => simp
  | succ n ih =>
    rw [List.range_succ,List.filter_append,ih]
    by_cases last : n = i
    · subst last
      simp
    · by_cases inside : i < n
      · simp [last,inside,Nat.lt_succ_of_lt inside]
      · simp [last,inside,show ¬ i < n + 1 by omega]

theorem drivesIs (c : Command) (session : SessionId) (target : NodeId) :
    (c.message session target).drives = (c = .start || c = .stop) := by
  cases c <;> simp [Command.message,Message.drives]

theorem issuedRequests (c : Command) : (h.issue d c).requests = h.requests ++
    (List.range d.clientCount).map (fun i => ⟨i,h.call + 1,c.message (c.sends h.sessionId) (d.nodeId i)⟩) := by
  cases c <;> rfl

theorem issuedCommands (c : Command) : commands (h.issue d c) i = commands h i ++
    if i < d.clientCount ∧ (c = .start ∨ c = .stop) then [c.message (c.sends h.sessionId) (d.nodeId i)] else [] := by
  have fresh : ((List.range d.clientCount).map (fun j => (⟨j,h.call + 1,
        c.message (c.sends h.sessionId) (d.nodeId j)⟩ : Envelope))).filter
          (fun e => e.client = i && e.message.drives) =
      if i < d.clientCount ∧ (c = .start ∨ c = .stop) then
        [⟨i,h.call + 1,c.message (c.sends h.sessionId) (d.nodeId i)⟩] else [] := by
    rw [List.filter_map]
    by_cases drives : c = .start ∨ c = .stop
    · have own : (List.range d.clientCount).filter
          ((fun e : Envelope => decide (e.client = i) && e.message.drives) ∘ fun j =>
            ⟨j,h.call + 1,c.message (c.sends h.sessionId) (d.nodeId j)⟩) =
            (List.range d.clientCount).filter (fun j => decide (j = i)) := by
        refine List.filter_congr ?_
        intro j _
        simp [drivesIs,drives]
      rw [own,onlyOne]
      by_cases inside : i < d.clientCount <;> simp [inside,drives]
    · have none : (List.range d.clientCount).filter
          ((fun e : Envelope => decide (e.client = i) && e.message.drives) ∘ fun j =>
            ⟨j,h.call + 1,c.message (c.sends h.sessionId) (d.nodeId j)⟩) = [] := by
        refine List.filter_eq_nil_iff.mpr ?_
        intro j _
        simp [drivesIs,drives]
      simp [none,drives]
  rw [commands,issuedRequests,List.filter_append,List.map_append,fresh,commands]
  split <;> rfl

end Issuing

section Steps

variable {moves : List (Move HostNet HostOp)} {m : Move HostNet HostOp} {c : Command}

theorem lastConfigSnoc : lastConfig (moves ++ [m]) = (asked m).or (lastConfig moves) := by
  rw [lastConfig,Runs.filterMapSnoc,List.getLast?_append]
  cases asked m <;> rfl

theorem lastConfigKept (silent : asked m = none) : lastConfig (moves ++ [m]) = lastConfig moves := by
  rw [lastConfigSnoc,silent,Option.none_or]

theorem launchedKeeps (back : ∀ i < d.clientCount, Active h' i →
      Active h i ∧ (h'.agents i).backend.config = (h.agents i).backend.config)
    (launched : Launched d moves h) : Launched d (moves ++ [m]) h' := by
  cases launched with
  | nobody idle => exact .nobody (fun i inside active => idle i inside (back i inside active).1)
  | since c n member barrier all =>
    refine .since c n (List.mem_append_left _ member) barrier ?_
    intro i inside active
    obtain ⟨before,same⟩ := back i inside active
    exact same.trans (all i inside before)

structure Alike (h h' : HostNet) : Prop where
  agents : ∀ i, (h'.agents i).state = (h.agents i).state ∧
    (h'.agents i).backend.state = (h.agents i).backend.state ∧
    (h'.agents i).backend.config = (h.agents i).backend.config
  requests : h'.requests = h.requests
  replies : ∀ r ∈ h'.replies, r ∈ h.replies
  call : h'.call = h.call
  state : h'.state = h.state
  pending : h'.pending.map Pending.command = h.pending.map Pending.command
  confirmed : ∀ i, Confirmed h' i → Confirmed h i

theorem Alike.commands (alike : Alike h h') : HostNet.commands h' i = HostNet.commands h i := by
  rw [HostNet.commands,alike.requests,HostNet.commands]

theorem Alike.prepared (alike : Alike h h') (good : PreparedWith last (h.agents i)) :
    PreparedWith last (h'.agents i) := by
  obtain ⟨state,backend,config⟩ := alike.agents i
  obtain ⟨⟨is,under,held⟩,same⟩ := good
  exact ⟨⟨state.trans is,backend.trans under,config ▸ held⟩,config.trans same⟩

theorem Alike.started (alike : Alike h h') (good : StartedWith last (h.agents i)) :
    StartedWith last (h'.agents i) := by
  obtain ⟨state,backend,config⟩ := alike.agents i
  obtain ⟨⟨is,under⟩,same⟩ := good
  exact ⟨⟨state.trans is,backend.trans under⟩,config.trans same⟩

theorem Alike.phase (alike : Alike h h') (phase : Phase (h.agents i) (HostNet.commands h i)) :
    Phase (h'.agents i) (HostNet.commands h' i) := by
  rw [alike.commands]
  obtain ⟨state,backend,config⟩ := alike.agents i
  generalize HostNet.commands h i = cmds at phase
  cases phase with
  | clean => exact .clean
  | starting r prepared => exact .starting r ⟨state.trans prepared.1,backend.trans prepared.2.1,config ▸ prepared.2.2⟩
  | stopping r started => exact .stopping r ⟨state.trans started.1,backend.trans started.2⟩

theorem Alike.course (alike : Alike h h') (course : Course d h last) : Course d h' last := by
  have pending := alike.pending
  have follows {p : Pending} (is : h.pending = some p) :
      ∃ p', h'.pending = some p' ∧ p'.command = p.command := by
    rw [is] at pending
    exact Option.map_eq_some_iff.mp pending
  cases course with
  | resting quiet ready running =>
    refine .resting ?_ ?_ ?_
    · intro p' is
      rw [Option.mem_def.mp is] at pending
      obtain ⟨p,was,same⟩ := Option.map_eq_some_iff.mp pending.symm
      exact same.symm.trans (quiet p was)
    · rw [alike.state]
      intro now i inside
      have rests := ready now i inside
      exact ⟨alike.commands.trans rests.silent,alike.prepared rests.good⟩
    · rw [alike.state]
      intro now i inside
      have rests := running now i inside
      exact ⟨alike.commands.trans rests.silent,alike.started rests.good⟩
  | preparing p is session config command asked mine goal =>
    obtain ⟨p',is',same⟩ := follows is
    refine .preparing p' is' session config (same.trans command) asked ?_ ?_
    · rw [alike.requests,alike.call]
      exact mine
    · intro i inside confirmed
      have rests := goal i inside (alike.confirmed i confirmed)
      exact ⟨alike.commands.trans rests.silent,alike.prepared rests.good⟩
  | starting p is command mine armed goal =>
    obtain ⟨p',is',same⟩ := follows is
    refine .starting p' is' (same.trans command) ?_ ?_ ?_
    · rw [alike.requests,alike.call]
      exact mine
    · intro i inside busy
      rw [alike.commands] at busy
      exact alike.prepared (armed i inside busy)
    · intro i inside confirmed
      have rests := goal i inside (alike.confirmed i confirmed)
      exact ⟨alike.commands.trans rests.silent,alike.started rests.good⟩
  | stopping p is command =>
    obtain ⟨p',is',same⟩ := follows is
    exact .stopping p' is' (same.trans command)

theorem Alike.sound (alike : Alike h h') (silent : asked m = none) (sound : Sound d moves h) :
    Sound d (moves ++ [m]) h' := by
  refine ⟨fun i => alike.phase (sound.phase i),⟨?_,?_⟩,?_,?_⟩
  · rw [alike.requests,alike.call]
    exact sound.past.1
  · rw [alike.call]
    exact fun r member => sound.past.2 r (alike.replies r member)
  · rw [lastConfigKept silent]
    exact alike.course sound.course
  · refine launchedKeeps ?_ sound.launched
    intro i inside active
    obtain ⟨state,_,config⟩ := alike.agents i
    rw [Active,state,alike.commands] at active
    exact ⟨active,config⟩

theorem alikeSelf : Alike h h :=
  ⟨fun _ => ⟨rfl,rfl,rfl⟩,rfl,fun _ => id,rfl,rfl,rfl,fun _ => id⟩

theorem settleAlike {client : Nat} {o : Command → Outcome} (alike : Alike h h')
    (honest : ∀ c, (o c).ok = true → ∃ r ∈ h.replies, r.client = client ∧ r.call = h.call ∧ r.status.code = .ok) :
    Alike h (h'.settle client o) := by
  unfold settle
  split
  · rename_i p pending
    split
    · exact alike
    · refine ⟨alike.agents,alike.requests,alike.replies,alike.call,alike.state,?_,?_⟩
      · rw [← alike.pending,pending]
        rfl
      · rintro i (reply | ⟨q,is,out,shown,ok⟩)
        · exact alike.confirmed i (.inl reply)
        · cases is
          simp only [Option.mem_def] at shown
          by_cases own : i = client
          · subst own
            rw [Function.update_self] at shown
            cases shown
            exact .inl (honest _ ok)
          · rw [Function.update_of_ne own] at shown
            exact alike.confirmed i (.inr ⟨p,pending,out,shown,ok⟩)
  · exact alike

theorem expireAlike {client : Nat} : Alike h (h.settle client (fun _ => .unanswered)) :=
  settleAlike alikeSelf (fun _ ok => absurd ok (by simp [Outcome.ok]))

theorem validateOk {agent : ProtoAgentState} {dataplane : ProtoDataplaneState} {r : AgentRPCResult}
    (ok : (validateReply agent dataplane r).ok = true) : r.ok = true := by
  cases good : r.ok with
  | true => rfl
  | false => simp [validateReply,good] at ok

theorem judgeOk {r : AgentRPCResult} (ok : (c.judge r).ok = true) : r.ok = true := by
  unfold Command.judge at ok
  split at ok
  · exact validateOk ok
  · exact ok

theorem deliverAlike : Alike h (h.deliver d k) := by
  unfold deliver
  split
  · exact alikeSelf
  · rename_i r found
    have member := List.mem_of_getElem? found
    have dropped : Alike h {h with replies := h.replies.eraseIdx k} := by
      refine ⟨fun _ => ⟨rfl,rfl,rfl⟩,rfl,fun _ => List.mem_of_mem_eraseIdx,rfl,rfl,rfl,?_⟩
      rintro i (⟨reply,under,facts⟩ | pending)
      · exact .inl ⟨reply,List.mem_of_mem_eraseIdx under,facts⟩
      · exact .inr pending
    dsimp only
    split
    · rename_i current
      refine settleAlike dropped ?_
      intro c ok
      exact ⟨r,member,rfl,current,of_decide_eq_true (judgeOk ok)⟩
    · exact dropped

theorem failNextAlike {client : Nat} {point : MockFailurePoint} : Alike h (h.failNext client point) := by
  refine ⟨?_,rfl,fun _ => id,rfl,rfl,rfl,fun _ => id⟩
  intro i
  by_cases own : i = client
  · subst own
    simp [failNext,MockDataplaneBackend.failNext]
  · simp [failNext,Function.update_of_ne own]

theorem restartSound (sound : Sound d moves h) : Sound d (moves ++ [m]) h.restart :=
  ⟨sound.phase,sound.past,.resting nofun nofun nofun,launchedKeeps (h := h) (fun _ _ active => ⟨active,rfl⟩) sound.launched⟩

theorem serveSound (silent : asked m = none) (sound : Sound d moves h) : Sound d (moves ++ [m]) (h.serve k) := by
  cases found : h.requests[k]? with
  | none =>
    have same : h.serve k = h := by simp [serve,found]
    rw [same]
    exact alikeSelf.sound silent sound
  | some e =>
    have call : (h.serve k).call = h.call := by simp [serve,found]
    refine ⟨phaseServed found sound.phase,⟨?_,?_⟩,?_,?_⟩
    · rw [call]
      intro x member
      simp only [serve,found] at member
      exact sound.past.1 x (List.mem_of_mem_eraseIdx member)
    · rw [call]
      intro r member
      simp only [serve,found] at member
      rcases List.mem_append.mp member with old | new
      · exact sound.past.2 r old
      · rw [List.mem_singleton.mp new]
        exact sound.past.1 e (List.mem_of_getElem? found)
    · rw [lastConfigKept silent]
      exact courseServed found sound.phase sound.course
    · exact launchedKeeps (fun _ _ active => activeServed found sound.phase active) sound.launched

theorem finishSound (silent : asked m = none) (sound : Sound d moves h) :
    Sound d (moves ++ [m]) (h.finish d) := by
  unfold finish
  split
  · rename_i p pending
    split
    · refine ⟨sound.phase,sound.past,?_,launchedKeeps (h := h) (fun _ _ active => ⟨active,rfl⟩) sound.launched⟩
      rw [lastConfigKept silent]
      have all : succeeded d p = true → ∀ i < d.clientCount, Confirmed h i := by
        intro passed i inside
        have one := List.all_eq_true.mp passed i (List.mem_range.mpr inside)
        obtain ⟨o,shown,ok⟩ := (Option.any_eq_true _ _).mp one
        exact .inr ⟨p,pending,o,shown,ok⟩
      cases sound.course with
      | resting quiet ready running =>
        have same : (if succeeded d p then p.command.target h.state else p.command.failed h.state) = h.state := by
          simp [quiet p pending,Command.target,Command.failed]
        rw [same]
        exact .resting nofun (fun now i inside => ⟨(ready now i inside).1,(ready now i inside).2⟩)
          (fun now i inside => ⟨(running now i inside).1,(running now i inside).2⟩)
      | preparing q is session config command asked mine goal =>
        cases pending.symm.trans is
        rw [command]
        cases passed : succeeded d p with
        | true =>
          refine .resting nofun ?_ nofun
          intro _ i inside
          have rests := goal i inside (all passed i inside)
          exact ⟨rests.1,rests.2⟩
        | false => exact .resting nofun nofun nofun
      | starting q is command mine armed goal =>
        cases pending.symm.trans is
        rw [command]
        cases passed : succeeded d p with
        | true =>
          refine .resting nofun nofun ?_
          intro _ i inside
          have rests := goal i inside (all passed i inside)
          exact ⟨rests.1,rests.2⟩
        | false => exact .resting nofun nofun nofun
      | stopping q is command =>
        cases pending.symm.trans is
        rw [command]
        cases succeeded d p <;> exact .resting nofun nofun nofun
    · exact alikeSelf.sound silent sound
  · exact alikeSelf.sound silent sound

theorem issuedKeeps (d : HostPlant) (h : HostNet) (c : Command) : (h.issue d c).agents = h.agents ∧
    (h.issue d c).state = h.state ∧ (h.issue d c).call = h.call + 1 ∧
      (h.issue d c).pending = some {command := c} ∧ (h.issue d c).replies = h.replies := ⟨rfl,rfl,rfl,rfl,rfl⟩

theorem issuedMine (past : ∀ e ∈ h.requests, e.call ≤ h.call) :
    ∀ e ∈ (h.issue d c).requests, e.call = (h.issue d c).call →
      ∃ i, e.message = c.message (c.sends h.sessionId) (d.nodeId i) := by
  intro e member current
  rw [issuedRequests] at member
  rw [(issuedKeeps d h c).2.2.1] at current
  rcases List.mem_append.mp member with old | new
  · have before := past e old
    omega
  · obtain ⟨i,_,rfl⟩ := List.mem_map.mp new
    exact ⟨i,rfl⟩

theorem issuedPast (past : (∀ e ∈ h.requests, e.call ≤ h.call) ∧ ∀ r ∈ h.replies, r.call ≤ h.call) :
    (∀ e ∈ (h.issue d c).requests, e.call ≤ (h.issue d c).call) ∧
      ∀ r ∈ (h.issue d c).replies, r.call ≤ (h.issue d c).call := by
  rw [issuedRequests,(issuedKeeps d h c).2.2.1,(issuedKeeps d h c).2.2.2.2]
  refine ⟨?_,fun r member => Nat.le_succ_of_le (past.2 r member)⟩
  intro e member
  rcases List.mem_append.mp member with old | new
  · exact Nat.le_succ_of_le (past.1 e old)
  · obtain ⟨i,_,rfl⟩ := List.mem_map.mp new
    exact Nat.le_refl _

theorem issuedUnconfirmed (past : ∀ r ∈ h.replies, r.call ≤ h.call) : ¬ Confirmed (h.issue d c) i := by
  rintro (⟨r,member,_,call,_⟩ | ⟨p,is,o,shown,_⟩)
  · rw [(issuedKeeps d h c).2.2.1] at call
    have before := past r member
    omega
  · rw [(issuedKeeps d h c).2.2.2.1] at is
    cases is
    cases shown

theorem restingNow (free : h.pending = none) (course : Course d h last) :
    (h.state = .ready → ∀ i < d.clientCount, Rests h i (PreparedWith last)) ∧
      (h.state = .running → ∀ i < d.clientCount, Rests h i (StartedWith last)) := by
  cases course with
  | resting quiet ready running => exact ⟨ready,running⟩
  | preparing p is => cases free.symm.trans is
  | starting p is => cases free.symm.trans is
  | stopping p is => cases free.symm.trans is

theorem issuedQuiet (quiet : ¬ (c = .start ∨ c = .stop)) : commands (h.issue d c) i = commands h i := by
  rw [issuedCommands,if_neg (fun both => quiet both.2),List.append_nil]

theorem quietPhase (quiet : ¬ (c = .start ∨ c = .stop)) (sound : Sound d moves h) :
    (∀ i, Phase ((h.issue d c).agents i) (commands (h.issue d c) i)) ∧
      Launched d (moves ++ [m]) (h.issue d c) := by
  refine ⟨?_,launchedKeeps ?_ sound.launched⟩
  · intro i
    rw [issuedQuiet quiet]
    exact sound.phase i
  · intro i _ active
    rw [Active,issuedQuiet quiet] at active
    exact ⟨active,rfl⟩

theorem prepareSound {session : SessionId} {config : RunConfig} (taken : asked m = some config)
    (sound : Sound d moves h) : Sound d (moves ++ [m]) (h.issue d (.prepare session config)) := by
  obtain ⟨phase,launched⟩ := quietPhase (m := m) (c := .prepare session config) (by simp) sound
  refine ⟨phase,issuedPast sound.past,?_,launched⟩
  rw [lastConfigSnoc,taken]
  refine .preparing _ rfl session config rfl rfl ?_ ?_
  · intro e member current
    obtain ⟨i,message⟩ := issuedMine sound.past.1 e member current
    exact ⟨_,message,rfl⟩
  · intro i _ confirmed
    exact absurd confirmed (issuedUnconfirmed sound.past.2)

theorem statusSound (silent : asked m = none) (free : h.pending = none) (sound : Sound d moves h) :
    Sound d (moves ++ [m]) (h.issue d .getStatus) := by
  obtain ⟨phase,launched⟩ := quietPhase (m := m) (c := .getStatus) (by simp) sound
  obtain ⟨ready,running⟩ := restingNow free sound.course
  refine ⟨phase,issuedPast sound.past,?_,launched⟩
  rw [lastConfigKept silent]
  refine .resting ?_ ?_ ?_
  · rintro p is
    cases is
    rfl
  · intro now i inside
    exact ⟨(issuedQuiet (by simp)).trans (ready now i inside).1,(ready now i inside).2⟩
  · intro now i inside
    exact ⟨(issuedQuiet (by simp)).trans (running now i inside).1,(running now i inside).2⟩

theorem startSound (silent : asked m = none) (op : m.op = .command .start) (is : m.before = h)
    (free : h.pending = none) (state : h.state = .ready) (sound : Sound d moves h) :
    Sound d (moves ++ [m]) (h.issue d .start) := by
  have ready := (restingNow free sound.course).1 state
  have commanded (i : Nat) : commands (h.issue d .start) i = commands h i ++
      if i < d.clientCount then [.start ⟨d.nodeId i,some h.sessionId⟩] else [] := by
    rw [issuedCommands]
    simp [Command.message,Command.sends]
  refine ⟨?_,issuedPast sound.past,?_,?_⟩
  · intro i
    rw [commanded]
    by_cases inside : i < d.clientCount
    · rw [(ready i inside).silent,if_pos inside]
      exact .starting _ (ready i inside).good.1
    · rw [if_neg inside,List.append_nil]
      exact sound.phase i
  · rw [lastConfigKept silent]
    refine .starting _ rfl rfl ?_ ?_ ?_
    · intro e member current
      obtain ⟨i,message⟩ := issuedMine sound.past.1 e member current
      exact ⟨_,message⟩
    · exact fun i inside _ => (ready i inside).good
    · exact fun i _ confirmed => absurd confirmed (issuedUnconfirmed sound.past.2)
  · refine .since (lastConfig moves) m (by simp) ⟨op,is ▸ free,is ▸ state,?_⟩ ?_
    · rw [is]
      exact fun i inside => (ready i inside).good
    · exact fun i inside _ => (ready i inside).good.2

theorem stopSound (free : h.pending = none) (state : h.state = .running)
    (sound : Sound d moves h) : Sound d (moves ++ [m]) (h.issue d .stop) := by
  have running := (restingNow free sound.course).2 state
  have commanded (i : Nat) : commands (h.issue d .stop) i = commands h i ++
      if i < d.clientCount then [.stop ⟨d.nodeId i,some h.sessionId⟩] else [] := by
    rw [issuedCommands]
    simp [Command.message,Command.sends]
  refine ⟨?_,issuedPast sound.past,.stopping _ rfl rfl,launchedKeeps ?_ sound.launched⟩
  · intro i
    rw [commanded]
    by_cases inside : i < d.clientCount
    · rw [(running i inside).silent,if_pos inside]
      exact .stopping _ (running i inside).good.1
    · rw [if_neg inside,List.append_nil]
      exact sound.phase i
  · intro i inside _
    exact ⟨.inl (running i inside).good.1.1,rfl⟩

theorem commandSound (op : m.op = .command c) (is : m.before = h) (sound : Sound d moves h) :
    Sound d (moves ++ [m]) (h.command d c) := by
  unfold command
  cases busy : h.pending with
  | some p =>
    have silent : asked m = none := by
      rw [asked,op,is]
      cases c <;> simp [busy]
    exact alikeSelf.sound silent sound
  | none =>
    cases admitted : h.admits c with
    | false =>
      have silent : asked m = none := by
        rw [asked,op,is]
        cases c with
        | prepare session config =>
          have refused : h.admits (.prepare {} config) = false := admitted
          simp [refused]
        | _ => rfl
      exact alikeSelf.sound silent sound
    | true =>
      cases c with
      | prepare session config =>
        have taken : asked m = some config := by
          have accepted : h.admits (.prepare {} config) = true := admitted
          simp [asked,op,is,busy,accepted]
        exact prepareSound taken sound
      | start =>
        have silent : asked m = none := by simp [asked,op]
        exact startSound silent op is busy (by simpa [admits,Command.requires] using admitted) sound
      | stop => exact stopSound busy (by simpa [admits,Command.requires] using admitted) sound
      | getStatus =>
        have silent : asked m = none := by simp [asked,op]
        exact statusSound silent busy sound

theorem stepSound {op : HostOp} (sound : Sound d moves h) :
    Sound d (moves ++ [⟨h,op,h.next d op⟩]) (h.next d op) := by
  cases op with
  | command c => exact commandSound rfl rfl sound
  | serve k => exact serveSound rfl sound
  | deliver k => exact deliverAlike.sound rfl sound
  | expire client => exact expireAlike.sound rfl sound
  | finish => exact finishSound rfl sound
  | restart => exact restartSound sound
  | failNext client point => exact failNextAlike.sound rfl sound

end Steps

section Agreement

variable {moves : List (Move HostNet HostOp)}

theorem startsSound (start : (system d).start h) : Sound d [] h := by
  obtain ⟨agents,shape⟩ := start
  have state : h.state = .idle := by rw [shape]
  have pending : h.pending = none := by rw [shape]
  have requests : h.requests = [] := by rw [shape]
  have replies : h.replies = [] := by rw [shape]
  have silent (i : Nat) : commands h i = [] := by simp [commands,requests]
  refine ⟨?_,by simp [requests,replies],.resting (by simp [pending]) (by simp [state]) (by simp [state]),.nobody ?_⟩
  · intro i
    rw [silent]
    exact .clean
  · rintro i _ (running | busy)
    · simp [(agents i).1] at running
    · exact busy (silent i)

theorem ranSound (ran : Ran (system d) moves h) : Sound d moves h := by
  induction ran with
  | start start => exact startsSound start
  | move before step ih =>
    cases step
    exact stepSound ih

-- The call whose request starts agent `i` in a step, and the last one that did.
def startedIn (i : Nat) (m : Move HostNet HostOp) : Option Nat :=
  match m.op with
  | .serve k => (m.before.requests[k]?).bind (fun e =>
      if e.client = i ∧ (m.before.agents i).state ≠ .running ∧ (m.after.agents i).state = .running then
        some e.call else none)
  | _ => none

def startedBy (i : Nat) (moves : List (Move HostNet HostOp)) : Option Nat :=
  (moves.filterMap (startedIn i)).getLast?

def Issued (d : HostPlant) (moves : List (Move HostNet HostOp)) (c : Option RunConfig) (call : Nat) : Prop :=
  ∃ m ∈ moves, Barrier d c m ∧ m.after.call = call

-- Every start under way, and the one that started an agent that runs, passed a barrier.
structure Tied (d : HostPlant) (moves : List (Move HostNet HostOp)) (h : HostNet) : Prop where
  asked : ∀ e ∈ h.requests, e.client < d.clientCount → (∃ r, e.message = .start r) →
    Issued d moves (h.agents e.client).backend.config e.call
  running : ∀ i < d.clientCount, (h.agents i).state = .running →
    ∃ call, startedBy i moves = some call ∧ Issued d moves (h.agents i).backend.config call

section Tying

variable {m : Move HostNet HostOp} {c : Command} {config : Option RunConfig} {call : Nat}

theorem startedSnoc : startedBy i (moves ++ [m]) = (startedIn i m).or (startedBy i moves) := by
  rw [startedBy,Runs.filterMapSnoc,List.getLast?_append]
  cases startedIn i m <;> rfl

theorem issuedLater (issued : Issued d moves config call) : Issued d (moves ++ [m]) config call := by
  obtain ⟨n,member,passed⟩ := issued
  exact ⟨n,List.mem_append_left _ member,passed⟩

theorem tiedKeeps (requests : ∀ e ∈ h'.requests, (∃ r, e.message = .start r) → e ∈ h.requests)
    (agents : ∀ i, (h'.agents i).state = (h.agents i).state ∧
      (h'.agents i).backend.config = (h.agents i).backend.config)
    (nobody : ∀ i, startedIn i m = none) (tied : Tied d moves h) : Tied d (moves ++ [m]) h' := by
  constructor
  case asked =>
    intro e member inside start
    rw [(agents e.client).2]
    exact issuedLater (tied.asked e (requests e member start) inside start)
  case running =>
    intro i inside runs
    rw [(agents i).1] at runs
    obtain ⟨call,by_,issued⟩ := tied.running i inside runs
    refine ⟨call,?_,(agents i).2 ▸ issuedLater issued⟩
    rw [startedSnoc,nobody,Option.none_or,by_]

theorem servedStart (found : h.requests[k]? = some e) (phase : ∀ i, Phase (h.agents i) (commands h i))
    (stood : (h.agents e.client).state ≠ .running) (runs : ((h.serve k).agents e.client).state = .running) :
    ∃ r, e.message = .start r := by
  have served := serveCases found (phase e.client)
  generalize commands h e.client = cmds at served
  generalize commands (h.serve k) e.client = after at served
  generalize (h.serve k).agents e.client = agent' at served runs
  cases served with
  | still quiet no => exact absurd runs stood
  | fails free no b => cases runs
  | prepared free r is b state config given => cases runs
  | started r is before => exact ⟨r,is⟩
  | startFails r is no b => cases runs
  | startRefused r is before no => exact absurd runs stood
  | stopRefused r is before => exact absurd runs stood
  | stopped r is agent' other => exact absurd runs other

theorem serveTied (sound : Sound d moves h) (tied : Tied d moves h) :
    Tied d (moves ++ [⟨h,.serve k,h.serve k⟩]) (h.serve k) := by
  cases found : h.requests[k]? with
  | none =>
    have same : h.serve k = h := by simp [serve,found]
    refine tiedKeeps (fun e member _ => same ▸ member) (fun i => by simp [same]) ?_ tied
    intro i
    simp [startedIn,found]
  | some e =>
    have requests := servedRequests found
    have kept {i : Nat} (active : Active (h.serve k) i) := activeServed found sound.phase active
    constructor
    case asked =>
      intro x member inside start
      have busy : commands (h.serve k) x.client ≠ [] := by
        obtain ⟨r,message⟩ := start
        refine List.ne_nil_of_mem (a := x.message) (List.mem_map.mpr ⟨x,List.mem_filter.mpr ⟨member,?_⟩,rfl⟩)
        simp [message,Message.drives]
      rw [(kept (.inr busy)).2]
      rw [requests] at member
      exact issuedLater (tied.asked x (List.mem_of_mem_eraseIdx member) inside start)
    case running =>
      intro i inside runs
      rw [(kept (.inl runs)).2]
      by_cases stood : (h.agents i).state = .running
      · obtain ⟨call,by_,issued⟩ := tied.running i inside stood
        refine ⟨call,?_,issuedLater issued⟩
        rw [startedSnoc]
        simp [startedIn,found,stood,by_]
      · have own : e.client = i := by
          by_contra other
          exact stood ((servedOther found (Ne.symm other)).2 ▸ runs)
        subst own
        refine ⟨e.call,?_,?_⟩
        · rw [startedSnoc]
          simp [startedIn,found,stood,runs]
        · exact issuedLater (tied.asked e (List.mem_of_getElem? found) inside
            (servedStart found sound.phase stood runs))

theorem issueTied (sound : Sound d moves h) (free : h.pending = none) (admitted : h.admits c = true)
    (tied : Tied d moves h) : Tied d (moves ++ [⟨h,.command c,h.issue d c⟩]) (h.issue d c) := by
  constructor
  case asked =>
    intro e member inside start
    rw [issuedRequests] at member
    rcases List.mem_append.mp member with old | new
    · exact issuedLater (tied.asked e old inside start)
    · obtain ⟨i,_,rfl⟩ := List.mem_map.mp new
      obtain ⟨r,message⟩ := start
      cases c with
      | start =>
        have state : h.state = .ready := by simpa [admits,Command.requires] using admitted
        have ready := (restingNow free sound.course).1 state
        have config : (h.agents i).backend.config = lastConfig moves := (ready i inside).good.2
        refine ⟨⟨h,.command .start,h.issue d .start⟩,by simp,⟨rfl,free,state,?_⟩,rfl⟩
        intro j within
        change PreparedWith (h.agents i).backend.config (h.agents j)
        rw [config]
        exact (ready j within).good
      | prepare session config => cases message
      | stop => cases message
      | getStatus => cases message
  case running =>
    intro i inside runs
    obtain ⟨call,by_,issued⟩ := tied.running i inside runs
    exact ⟨call,startedSnoc.trans by_,issuedLater issued⟩

theorem stepTied {op : HostOp} (sound : Sound d moves h) (tied : Tied d moves h) :
    Tied d (moves ++ [⟨h,op,h.next d op⟩]) (h.next d op) := by
  have alike {h' : HostNet} (alike : Alike h h') {m : Move HostNet HostOp} (nobody : ∀ i, startedIn i m = none) :
      Tied d (moves ++ [m]) h' :=
    tiedKeeps (fun e member _ => alike.requests ▸ member)
      (fun i => ⟨(alike.agents i).1,(alike.agents i).2.2⟩) nobody tied
  cases op with
  | command c =>
    simp only [next,command]
    split
    · exact alike alikeSelf (fun _ => rfl)
    · rename_i free
      split
      · rename_i admitted
        exact issueTied sound (by simpa using free) admitted tied
      · exact alike alikeSelf (fun _ => rfl)
  | serve k => exact serveTied sound tied
  | deliver k => exact alike deliverAlike (fun _ => rfl)
  | expire client => exact alike expireAlike (fun _ => rfl)
  | finish =>
    refine tiedKeeps ?_ ?_ (fun _ => rfl) tied
    · intro e member _
      simp only [next,finish] at member
      split at member
      · split at member <;> exact member
      · exact member
    · intro i
      simp only [next,finish]
      split
      · split <;> exact ⟨rfl,rfl⟩
      · exact ⟨rfl,rfl⟩
  | restart => exact tiedKeeps (h := h) (fun _ member _ => member) (fun _ => ⟨rfl,rfl⟩) (fun _ => rfl) tied
  | failNext client point => exact alike failNextAlike (fun _ => rfl)

theorem ranTied (ran : Ran (system d) moves h) : Tied d moves h := by
  induction ran with
  | @start h start =>
    obtain ⟨agents,shape⟩ := start
    have requests : h.requests = [] := by rw [shape]
    refine ⟨by simp [requests],?_⟩
    intro i _ runs
    rw [(agents i).1] at runs
    cases runs
  | move before step ih =>
    cases step
    exact stepTied (ranSound before) ih

end Tying

/- Ready and Running mean what they say for every agent, and the agents that run, whatever the
coordinator thinks, run with the one configuration that all had when they were started. -/
structure HostAgrees (d : HostPlant) (moves : List (Move HostNet HostOp)) (h : HostNet) : Prop where
  ready : h.state = .ready → h.pending = none →
    ∀ i < d.clientCount, PreparedWith (lastConfig moves) (h.agents i)
  running : h.state = .running → h.pending = none →
    ∀ i < d.clientCount, StartedWith (lastConfig moves) (h.agents i)
  together : ∀ i < d.clientCount, (h.agents i).state = .running →
    (∃ m ∈ moves, Barrier d (h.agents i).backend.config m ∧ startedBy i moves = some m.after.call) ∧
      ∀ j < d.clientCount, (h.agents j).state = .running →
        (h.agents j).backend.config = (h.agents i).backend.config

theorem hostAgrees (ran : Ran (system d) moves h) : HostAgrees d moves h := by
  have sound := ranSound ran
  constructor
  case ready =>
    intro state free i inside
    exact ((restingNow free sound.course).1 state i inside).good
  case running =>
    intro state free i inside
    exact ((restingNow free sound.course).2 state i inside).good
  case together =>
    intro i inside runs
    obtain ⟨call,by_,m,member,barrier,issued⟩ := (ranTied ran).running i inside runs
    refine ⟨⟨m,member,barrier,by_.trans (congrArg some issued.symm)⟩,?_⟩
    intro j within other
    cases sound.launched with
    | nobody idle => exact absurd (.inl runs) (idle i inside)
    | since c n member barrier all => exact (all j within (.inl other)).trans (all i inside (.inl runs)).symm

def twoHosts : HostPlant := ⟨2,UInt32.ofNat⟩

def converse (ops : List HostOp) : Except Empty (List (Move HostNet HostOp) × HostNet) :=
  Runs.record (fun h op => .ok (h.next twoHosts op)) ops
    {agents := fun i => {nodeId := UInt32.ofNat i, backend := {}}}

theorem converseRan {ops : List HostOp} (done : converse ops = .ok (moves,h)) : Ran (system twoHosts) moves h :=
  Runs.recordTotal (fun _ _ => rfl) ⟨fun _ => ⟨rfl,rfl⟩,rfl⟩ done

/- Both agents are prepared; the start of the second one is given up, and it is served when
another coordinator has taken over. -/
def lateStart : List HostOp :=
  [.command (.prepare ⟨0,1⟩ ⟨1,1,2,1⟩),.serve 0,.serve 0,.deliver 0,.deliver 0,.finish,
    .command .start,.serve 0,.deliver 0,.expire 1,.finish,.restart,.command (.prepare ⟨0,2⟩ ⟨2,2,2,2⟩),.serve 0,
    .serve 0]

theorem hostAgreesOnce : ∃ moves h, converse lateStart = .ok (moves,h) ∧
    moves.any (fun m => m.after.state = .ready) = true ∧ (h.agents 0).state = .running ∧
    (h.agents 1).state = .running ∧ startedBy 1 moves = some 2 ∧ HostAgrees twoHosts moves h := by
  have value : (converse lateStart).toOption.map (fun result =>
      result.1.any (fun m => m.after.state = .ready) &&
        decide ((result.2.agents 0).state = .running ∧ (result.2.agents 1).state = .running ∧
          startedBy 1 result.1 = some 2)) = some true := by
    decide +kernel
  obtain ⟨⟨moves,h⟩,done,found⟩ := Runs.okFound value
  simp only [Bool.and_eq_true,decide_eq_true_eq] at found
  exact ⟨moves,h,done,found.1,found.2.1,found.2.2.1,found.2.2.2,hostAgrees (converseRan done)⟩

end Agreement

end HostNet

end Syncons.Ssr
