import Mathlib.Data.List.Basic
import Syncons.HostNetwork

/-! The network against the cluster of one-step operations. When no call is given up and the
coordinator stays, an operation has the effect that it has when all its agents are served at
once, in whatever order requests are served and answers arrive. -/
namespace Syncons.Ssr
open Runs (System Move Ran)
open Methods

-- What the caller of an operation gets; an injected failure has no caller.
inductive Report where
  | injected
  | threw (e : Exception)
  | returned (finalState : CoordinatorState) (results : List Outcome)
  deriving DecidableEq, Repr

def Operation.report (op : Operation) (cl : Cluster) : Report :=
  match op.perform cl with
  | .error e _ => .threw e
  | .ok none _ => .injected
  | .ok (some result) _ => .returned result.finalState (result.results.map .answered)

namespace Command

def operation : Command → Option Operation
  | prepare session config => some (.prepare session config)
  | start => some .start
  | stop => some .stop
  | getStatus => none

def name : Command → String
  | prepare _ _ => "Prepare"
  | start => "Start"
  | stop => "Stop"
  | getStatus => "GetStatus"

-- What `require_state` throws in another state than the one the command asks for.
def refusal (c : Command) (actual : CoordinatorState) : Option Exception :=
  c.requires.map (fun expected => .runtimeError ("Operation '" ++ c.name ++ "' requires state " ++
    toString expected.value ++ ", but current state is " ++ toString actual.value))

def rpc (session : SessionId) : Command → Cluster.Rpc
  | prepare session config => Cluster.prepareRpc session config
  | start => Cluster.startRpc session
  | stop => Cluster.stopRpc session
  | getStatus => fun agent => AgentRPCService.getStatus agent.nodeId agent

theorem servesRpc {c : Command} {session : SessionId} {agent : Agent} {target : NodeId}
    (named : agent.nodeId = target) : (c.message session target).serve agent = c.rpc session agent := by
  subst named
  cases c <;> rfl

end Command

namespace SSRAgent

theorem stepNamed {agent : Agent} {expected target : AgentState} {verb : String}
    {step : Method MockDataplaneBackend Unit} :
    (left (stepFrom expected verb step target agent)).nodeId = agent.nodeId := by
  by_cases state : agent.state = expected
  · rw [stepRuns state]
    cases step agent.backend <;> rfl
  · obtain ⟨e,refused⟩ := @stepRefused _ agent expected target verb step state
    rw [refused]
    rfl

end SSRAgent

theorem withSessionNamed {call : SessionId → Method Agent Unit} {request : SessionRequest} {agent : Agent}
    (keeps : ∀ session, (left (call session agent)).nodeId = agent.nodeId) :
    (AgentRPCService.withSession call request agent).2.nodeId = agent.nodeId := by
  unfold AgentRPCService.withSession
  split
  · rfl
  · split
    · rw [AgentRPCService.answerAgent]
      exact keeps _
    · rfl

theorem serveNamed (m : Message) (agent : Agent) : (m.serve agent).2.nodeId = agent.nodeId := by
  cases m with
  | prepare r =>
    have served := prepareServed r agent
    rw [Message.serve]
    generalize (AgentRPCService.prepare r agent).2 = agent' at served ⊢
    cases served <;> rfl
  | start r => exact withSessionNamed (fun _ => SSRAgent.stepNamed)
  | stop r => exact withSessionNamed (fun _ => SSRAgent.stepNamed)
  | getStatus target =>
    have same := statusServed target agent
    rw [Message.serve,same]

namespace HostNet

variable {d : HostPlant} {h h' : HostNet} {i k : Nat} {cl : Cluster} {a : Nat → Agent}

def clusterOf (d : HostPlant) (h : HostNet) : Cluster :=
  ⟨h.state,h.sessionId,(List.range d.clientCount).map h.agents⟩

-- Each client is connected to the agent whose id it was configured with.
def Named (d : HostPlant) (h : HostNet) : Prop := ∀ i < d.clientCount, (h.agents i).nodeId = d.nodeId i

-- No call is given up, the coordinator stays, and failures are injected between operations.
def steady (m : Move HostNet HostOp) : Bool :=
  match m.op with
  | .expire _ | .restart => false
  | .failNext _ _ => m.before.pending.isNone
  | _ => true

def outcomesOf (d : HostPlant) (p : Pending) : List Outcome := (List.range d.clientCount).filterMap p.outcomes

-- What comes to its end in a step, with what its caller gets.
def completed (d : HostPlant) (m : Move HostNet HostOp) : Option (Operation × Report) :=
  match m.op with
  | .command c =>
    if m.before.pending.isNone && !m.before.admits c then
      c.operation.bind (fun op => (c.refusal m.before.state).map (fun e => (op,.threw e)))
    else none
  | .finish => (m.before.pending.filter (settled d)).bind (fun p =>
      p.command.operation.map (fun op => (op,.returned m.after.state (outcomesOf d p))))
  | .failNext client point => some (.failNext client point,.injected)
  | _ => none

def reported (m : Move Cluster Operation) : Operation × Report := (m.op,m.op.report m.before)

def requestsTo (h : HostNet) (i : Nat) : List Envelope := h.requests.filter (fun e => e.client = i)
def repliesFrom (h : HostNet) (i : Nat) : List Returning := h.replies.filter (fun r => r.client = i)

/- How far the call of one client has got, by what its agent was when the operation began. -/
inductive Stage (d : HostPlant) (p : Pending) (h : HostNet) (i : Nat) (agent : Agent) : Prop where
  | asked (requests : requestsTo h i = [⟨i,h.call,p.command.message h.sessionId (d.nodeId i)⟩])
      (replies : repliesFrom h i = []) (open_ : p.outcomes i = none) (same : h.agents i = agent)
  | served (requests : requestsTo h i = [])
      (replies : repliesFrom h i = [⟨i,h.call,(p.command.rpc h.sessionId agent).1.1,
        (p.command.rpc h.sessionId agent).1.2⟩])
      (open_ : p.outcomes i = none) (moved : h.agents i = (p.command.rpc h.sessionId agent).2)
  | closed (requests : requestsTo h i = []) (replies : repliesFrom h i = [])
      (outcome : p.outcomes i = some (.answered (p.command.judge
        ⟨d.nodeId i,(p.command.rpc h.sessionId agent).1.1,(p.command.rpc h.sessionId agent).1.2⟩)))
      (moved : h.agents i = (p.command.rpc h.sessionId agent).2)

-- The cluster is what the network is between two operations, and what it was before the current one.
inductive Simulates (d : HostPlant) (h : HostNet) (cl : Cluster) : Prop where
  | quiet (pending : h.pending = none) (requests : h.requests = []) (replies : h.replies = [])
      (same : cl = clusterOf d h)
  | busy (p : Pending) (pending : h.pending = some p) (admitted : h.admits p.command = true)
      (old : SessionId) (current : h.sessionId = p.command.sends old)
      (asked : ∀ e ∈ h.requests, e.client < d.clientCount)
      (answered : ∀ r ∈ h.replies, r.client < d.clientCount) (agent : Nat → Agent)
      (same : cl = ⟨h.state,old,(List.range d.clientCount).map agent⟩)
      (named : ∀ i < d.clientCount, (agent i).nodeId = d.nodeId i)
      (stage : ∀ i < d.clientCount, Stage d p h i (agent i))

section Steps

theorem updatedAgents {n : Nat} {f : Nat → Agent} {g : Agent → Agent} :
    (List.range n).map (Function.update f i (g (f i))) = ((List.range n).map f).modify i g := by
  refine List.ext_getElem (by simp) ?_
  intro j _ _
  by_cases own : i = j
  · subst own
    simp
  · simp [own,Function.update_of_ne (Ne.symm own)]

theorem failNextSimulates {point : MockFailurePoint} (sim : Simulates d h cl) (free : h.pending = none) :
    Simulates d (h.failNext i point) (left ((Operation.failNext i point).perform cl)) := by
  cases sim with
  | quiet pending requests replies same =>
    refine .quiet pending requests replies ?_
    rw [same]
    simp only [Operation.perform,bindRun,modifyRun,pureRun,leftOk,clusterOf,failNext]
    rw [@updatedAgents i d.clientCount h.agents
      (fun agent => {agent with backend := agent.backend.failNext point})]
  | busy p pending => cases free.symm.trans pending

theorem refusedSame {c : Command} {op : Operation} (is : c.operation = some op) (free : h.pending = none)
    (refused : h.admits c = false) (sim : Simulates d h cl) :
    ∃ e, c.refusal h.state = some e ∧ op.perform cl = .error e cl := by
  cases sim with
  | busy p pending => cases free.symm.trans pending
  | quiet pending requests replies same =>
    have state : cl.state = h.state := by rw [same]; rfl
    rw [← state]
    simp only [admits,← state] at refused
    cases c with
    | prepare session config =>
      cases is
      have other : cl.state ≠ .idle := by simpa [Command.requires] using refused
      exact ⟨_,rfl,by simp [Operation.perform,Cluster.agentsPrepare,Cluster.requireState,other,Command.name]⟩
    | start =>
      cases is
      have other : cl.state ≠ .ready := by simpa [Command.requires] using refused
      exact ⟨_,rfl,by simp [Operation.perform,Cluster.agentsStart,Cluster.requireState,other,Command.name]⟩
    | stop =>
      cases is
      have other : cl.state ≠ .running := by simpa [Command.requires] using refused
      exact ⟨_,rfl,by simp [Operation.perform,Cluster.agentsStop,Cluster.requireState,other,Command.name]⟩
    | getStatus => cases is

theorem issueSimulates {c : Command} (free : h.pending = none) (admitted : h.admits c = true)
    (named : Named d h) (sim : Simulates d h cl) : Simulates d (h.issue d c) cl := by
  cases sim with
  | busy p pending => cases free.symm.trans pending
  | quiet pending requests replies same =>
    have issued : (h.issue d c).requests = (List.range d.clientCount).map
        (fun i => ⟨i,h.call + 1,c.message (c.sends h.sessionId) (d.nodeId i)⟩) := by
      rw [issuedRequests,requests,List.nil_append]
    refine .busy {command := c} rfl admitted h.sessionId rfl ?_ ?_ h.agents same named ?_
    · rw [issued]
      intro e member
      obtain ⟨i,inside,rfl⟩ := List.mem_map.mp member
      exact List.mem_range.mp inside
    · intro r member
      have none : (h.issue d c).replies = [] := replies
      rw [none] at member
      cases member
    · intro i inside
      refine .asked ?_ ?_ rfl rfl
      · rw [requestsTo,issued,List.filter_map]
        have own : (List.range d.clientCount).filter ((fun e : Envelope => decide (e.client = i)) ∘ fun j =>
            ⟨j,h.call + 1,c.message (c.sends h.sessionId) (d.nodeId j)⟩) =
            (List.range d.clientCount).filter (fun j => decide (j = i)) := List.filter_congr (fun _ _ => rfl)
        rw [own,onlyOne,if_pos inside]
        rfl
      · have none : (h.issue d c).replies = [] := replies
        simp [repliesFrom,none]

theorem serveSimulates (sim : Simulates d h cl) : Simulates d (h.serve k) cl := by
  cases found : h.requests[k]? with
  | none =>
    have same : h.serve k = h := by simp [serve,found]
    rw [same]
    exact sim
  | some e =>
    cases sim with
    | quiet pending requests => simp [requests] at found
    | busy p pending admitted old current asked answered agent same named stage =>
      have member := List.mem_of_getElem? found
      have inside := asked e member
      have toward : e ∈ requestsTo h e.client := List.mem_filter.mpr ⟨member,by simp⟩
      have requests := servedRequests found
      have replies : (h.serve k).replies = h.replies ++ [⟨e.client,e.call,
          (e.message.serve (h.agents e.client)).1.1,(e.message.serve (h.agents e.client)).1.2⟩] := by
        simp [serve,found]
      have agents : (h.serve k).agents = Function.update h.agents e.client
          (e.message.serve (h.agents e.client)).2 := by
        simp [serve,found]
      have call : (h.serve k).call = h.call := by simp [serve,found]
      have sessionId : (h.serve k).sessionId = h.sessionId := by simp [serve,found]
      have state : (h.serve k).state = h.state := by simp [serve,found]
      have stays : (h.serve k).pending = h.pending := by simp [serve,found]
      refine .busy p (stays.trans pending) ?_ old (sessionId.trans current) ?_ ?_ agent (state ▸ same) named ?_
      · rw [admits,state]
        exact admitted
      · rw [requests]
        exact fun x under => asked x (List.mem_of_mem_eraseIdx under)
      · rw [replies]
        intro r under
        rcases List.mem_append.mp under with before | new
        · exact answered r before
        · rw [List.mem_singleton.mp new]
          exact inside
      · intro j within
        by_cases own : j = e.client
        · subst own
          cases stage e.client inside with
          | served none => simp [none] at toward
          | closed none => simp [none] at toward
          | asked one silent open_ held =>
            rw [one] at toward
            have shape := List.mem_singleton.mp toward
            have serves : e.message.serve (h.agents e.client) =
                p.command.rpc h.sessionId (agent e.client) := by
              rw [shape,held]
              exact Command.servesRpc (named e.client inside)
            have gone := (eraseOnly found (p := fun x => decide (x.client = e.client)) (by simp)
              (by rw [requestsTo] at one; simp [one])).2
            refine .served ?_ ?_ open_ ?_
            · rw [requestsTo,requests]
              exact gone
            · rw [repliesFrom,replies,List.filter_append]
              rw [repliesFrom] at silent
              rw [silent,serves,call,sessionId]
              have current : e.call = h.call := by rw [shape]
              simp [current]
            · rw [agents,Function.update_self,serves,sessionId]
        · have same : requestsTo (h.serve k) j = requestsTo h j := by
            rw [requestsTo,requests,eraseApart found (by simp [Ne.symm own]),requestsTo]
          have quiet : repliesFrom (h.serve k) j = repliesFrom h j := by
            rw [repliesFrom,replies,List.filter_append,repliesFrom]
            simp [Ne.symm own]
          have still : (h.serve k).agents j = h.agents j := (servedOther found own).2
          cases stage j within with
          | asked one silent open_ held =>
            refine .asked ?_ (quiet.trans silent) open_ (still.trans held)
            rw [same,one,call,sessionId]
          | served none one open_ moved =>
            refine .served (same.trans none) ?_ open_ ?_
            · rw [quiet,one,call,sessionId]
            · rw [still,moved,sessionId]
          | closed none silent outcome moved =>
            refine .closed (same.trans none) (quiet.trans silent) ?_ ?_
            · rw [outcome,sessionId]
            · rw [still,moved,sessionId]

theorem deliverSimulates (sim : Simulates d h cl) : Simulates d (h.deliver d k) cl := by
  cases found : h.replies[k]? with
  | none =>
    have same : h.deliver d k = h := by simp [deliver,found]
    rw [same]
    exact sim
  | some r =>
    cases sim with
    | quiet pending requests replies => simp [replies] at found
    | busy p pending admitted old current asked answered agent same named stage =>
      have member := List.mem_of_getElem? found
      have inside := answered r member
      have toward : r ∈ repliesFrom h r.client := List.mem_filter.mpr ⟨member,by simp⟩
      cases stage r.client inside with
      | asked one silent => simp [silent] at toward
      | closed none silent => simp [silent] at toward
      | served none one open_ moved =>
        rw [one] at toward
        have shape := List.mem_singleton.mp toward
        have call : r.call = h.call := by rw [shape]
        have result : p.command.judge ⟨d.nodeId r.client,r.status,r.reply⟩ = p.command.judge
            ⟨d.nodeId r.client,(p.command.rpc h.sessionId (agent r.client)).1.1,
              (p.command.rpc h.sessionId (agent r.client)).1.2⟩ := by
          conv_lhs => rw [shape]
        have after : h.deliver d k =
            { h with
              replies := h.replies.eraseIdx k
              pending := some {p with outcomes := Function.update p.outcomes r.client (some
                (.answered (p.command.judge ⟨d.nodeId r.client,r.status,r.reply⟩)))} } := by
          simp [deliver,found,call,settle,pending,open_]
        have gone := (eraseOnly found (p := fun x => decide (x.client = r.client)) (by simp)
          (by rw [repliesFrom] at one; simp [one])).2
        rw [after]
        refine .busy _ rfl admitted old current asked ?_ agent same named ?_
        · exact fun x under => answered x (List.mem_of_mem_eraseIdx under)
        · intro j within
          by_cases own : j = r.client
          · subst own
            refine .closed none gone ?_ moved
            exact (Function.update_self ..).trans (congrArg (fun x => some (Outcome.answered x)) result)
          · have quiet : (h.replies.eraseIdx k).filter (fun x => decide (x.client = j)) = repliesFrom h j :=
              eraseApart found (by simp [Ne.symm own])
            cases stage j within with
            | asked one silent open_ held =>
              exact .asked one (quiet.trans silent) ((Function.update_of_ne own ..).trans open_) held
            | served none one open_ moved =>
              exact .served none (quiet.trans one) ((Function.update_of_ne own ..).trans open_) moved
            | closed none silent outcome moved =>
              exact .closed none (quiet.trans silent) ((Function.update_of_ne own ..).trans outcome) moved

def heard (c : Command) (cl : Cluster) : List AgentRPCResult :=
  cl.agents.map (fun agent => c.judge ⟨agent.nodeId,(c.rpc (c.sends cl.sessionId) agent).1.1,
    (c.rpc (c.sends cl.sessionId) agent).1.2⟩)

def endState (c : Command) (cl : Cluster) : CoordinatorState :=
  if (heard c cl).all AgentRPCResult.ok then c.target cl.state else c.failed cl.state

theorem performed {c : Command} {op : Operation} (is : c.operation = some op)
    (admitted : c.requires.all (fun expected => cl.state = expected) = true) :
    op.perform cl = .ok (some ⟨endState c cl,heard c cl⟩)
      ⟨endState c cl,c.sends cl.sessionId,
        cl.agents.map (fun agent => (c.rpc (c.sends cl.sessionId) agent).2)⟩ := by
  cases c with
  | prepare session config =>
    cases is
    have state : cl.state = .idle := by simpa [Command.requires] using admitted
    simp [Operation.perform,Cluster.prepareRun state,Cluster.finalState,Cluster.results,Cluster.call,endState,
      heard,Command.judge,Command.expects,Command.rpc,Command.target,Command.failed,Command.sends]
  | start =>
    cases is
    have state : cl.state = .ready := by simpa [Command.requires] using admitted
    simp [Operation.perform,Cluster.startRun state,Cluster.finalState,Cluster.results,Cluster.call,endState,
      heard,Command.judge,Command.expects,Command.rpc,Command.target,Command.failed,Command.sends]
  | stop =>
    cases is
    have state : cl.state = .running := by simpa [Command.requires] using admitted
    simp [Operation.perform,Cluster.stopRun state,Cluster.finalState,Cluster.results,Cluster.call,endState,
      heard,Command.judge,Command.expects,Command.rpc,Command.target,Command.failed,Command.sends]
  | getStatus => cases is

def onwards (done : Option (Operation × Report)) (cl : Cluster) : Cluster :=
  done.elim cl (fun x => left (x.1.perform cl))

def Agrees (done : Option (Operation × Report)) (cl : Cluster) : Prop := ∀ x ∈ done, x.1.report cl = x.2

theorem agreesNone : Agrees none cl := fun x shown => absurd shown (Option.not_mem_none x)

theorem statusJudged (session : SessionId) (agent : Agent) : (Command.getStatus.rpc session agent).2 = agent :=
  statusServed agent.nodeId agent

theorem outcomesAnswered {p : Pending} {answer : Nat → AgentRPCResult}
    (closed : ∀ i < d.clientCount, p.outcomes i = some (.answered (answer i))) :
    outcomesOf d p = ((List.range d.clientCount).map answer).map .answered ∧
      succeeded d p = ((List.range d.clientCount).map answer).all AgentRPCResult.ok := by
  constructor
  · rw [outcomesOf,List.filterMap_congr (fun i member => closed i (List.mem_range.mp member)),List.map_map]
    exact congrFun List.filterMap_eq_map _
  · rw [succeeded,Bool.eq_iff_iff,List.all_map,List.all_eq_true,List.all_eq_true]
    refine forall₂_congr ?_
    intro i member
    rw [closed i (List.mem_range.mp member)]
    rfl

theorem finishSimulates (sim : Simulates d h cl) :
    Simulates d (h.finish d) (onwards (completed d ⟨h,.finish,h.finish d⟩) cl) ∧
      Agrees (completed d ⟨h,.finish,h.finish d⟩) cl := by
  cases sim with
  | quiet pending requests replies same =>
    have still : h.finish d = h := by simp [finish,pending]
    simp only [completed,pending,Option.filter_none,Option.bind_none,still]
    exact ⟨.quiet pending requests replies same,agreesNone⟩
  | busy p pending admitted old current asked answered agent same named stage =>
    cases done : settled d p with
    | false =>
      have still : h.finish d = h := by simp [finish,pending,done]
      simp only [completed,pending,Option.filter_some,done,still]
      exact ⟨.busy p pending admitted old current asked answered agent same named stage,agreesNone⟩
    | true =>
      have closed : ∀ i < d.clientCount, requestsTo h i = [] ∧ repliesFrom h i = [] ∧
          p.outcomes i = some (.answered (p.command.judge ⟨d.nodeId i,(p.command.rpc h.sessionId (agent i)).1.1,
            (p.command.rpc h.sessionId (agent i)).1.2⟩)) ∧
            h.agents i = (p.command.rpc h.sessionId (agent i)).2 := by
        intro i inside
        have shown := List.all_eq_true.mp done i (List.mem_range.mpr inside)
        cases stage i inside with
        | asked _ _ open_ => simp [open_] at shown
        | served _ _ open_ => simp [open_] at shown
        | closed none silent outcome moved => exact ⟨none,silent,outcome,moved⟩
      have noRequests : h.requests = [] := by
        refine List.eq_nil_iff_forall_not_mem.mpr ?_
        intro e member
        have toward : e ∈ requestsTo h e.client := List.mem_filter.mpr ⟨member,by simp⟩
        simp [(closed e.client (asked e member)).1] at toward
      have noReplies : h.replies = [] := by
        refine List.eq_nil_iff_forall_not_mem.mpr ?_
        intro r member
        have toward : r ∈ repliesFrom h r.client := List.mem_filter.mpr ⟨member,by simp⟩
        simp [(closed r.client (answered r member)).2.1] at toward
      have moved : (List.range d.clientCount).map h.agents =
          (List.range d.clientCount).map (fun i => (p.command.rpc h.sessionId (agent i)).2) :=
        List.map_congr_left (fun i member => (closed i (List.mem_range.mp member)).2.2.2)
      have hears : heard p.command cl = (List.range d.clientCount).map (fun i => p.command.judge
          ⟨d.nodeId i,(p.command.rpc h.sessionId (agent i)).1.1,
            (p.command.rpc h.sessionId (agent i)).1.2⟩) := by
        rw [heard,same,← current,List.map_map]
        refine List.map_congr_left ?_
        intro i member
        rw [Function.comp_apply,named i (List.mem_range.mp member)]
      obtain ⟨outcomes,judged⟩ := outcomesAnswered (fun i inside => (closed i inside).2.2.1)
      rw [← hears] at outcomes judged
      have state : h.state = cl.state := by rw [same]
      have after : h.finish d = {h with state := endState p.command cl, pending := none} := by
        simp only [finish,pending,done,if_true,judged,endState,state]
      have is : completed d ⟨h,.finish,h.finish d⟩ =
          p.command.operation.map (fun op => (op,.returned (endState p.command cl) (outcomesOf d p))) := by
        simp only [completed,pending,Option.filter_some,done,if_true,Option.bind_some,after]
      rw [is,after]
      cases op : p.command.operation with
      | none =>
        have status : p.command = .getStatus := by
          cases c : p.command <;> simp [c,Command.operation] at op ⊢
        rw [status] at moved current
        simp only [statusJudged] at moved
        refine ⟨.quiet rfl noRequests noReplies ?_,agreesNone⟩
        rw [Option.map_none,onwards,Option.elim_none,status,same,clusterOf,moved,current]
        simp [endState,Command.target,Command.failed,Command.sends]
      | some op =>
        have fits : p.command.requires.all (fun expected => cl.state = expected) = true := by
          rw [same]
          exact admitted
        have ran := performed ‹_› fits
        constructor
        · refine .quiet rfl noRequests noReplies ?_
          rw [Option.map_some,onwards,Option.elim_some,ran,leftOk,clusterOf,moved,current]
          simp only [same,List.map_map,Function.comp_def]
        · intro x shown
          obtain rfl := Option.mem_some_iff.mp shown
          rw [Operation.report,ran,outcomes]

theorem commandSimulates {c : Command} (named : Named d h) (sim : Simulates d h cl) :
    Simulates d (h.command d c) (onwards (completed d ⟨h,.command c,h.command d c⟩) cl) ∧
      Agrees (completed d ⟨h,.command c,h.command d c⟩) cl := by
  cases busy : h.pending with
  | some p =>
    have same : h.command d c = h := by simp [command,busy]
    simp only [completed,busy,same]
    exact ⟨sim,agreesNone⟩
  | none =>
    cases admitted : h.admits c with
    | true =>
      have issued : h.command d c = h.issue d c := by simp [command,busy,admitted]
      simp only [completed,busy,admitted,issued]
      exact ⟨issueSimulates busy admitted named sim,agreesNone⟩
    | false =>
      have same : h.command d c = h := by simp [command,busy,admitted]
      cases called : c.operation with
      | none =>
        simp only [completed,busy,admitted,same,called,Option.bind_none,ite_self]
        exact ⟨sim,agreesNone⟩
      | some op =>
        obtain ⟨e,threw,ran⟩ := refusedSame called busy admitted sim
        have is : completed d ⟨h,.command c,h.command d c⟩ = some (op,.threw e) := by
          simp [completed,busy,admitted,called,threw]
        rw [is,same,onwards,Option.elim_some,ran,leftError]
        refine ⟨sim,?_⟩
        intro x shown
        obtain rfl := Option.mem_some_iff.mp shown
        rw [Operation.report,ran]

theorem settleAgents {client : Nat} {o : Command → Outcome} : (h.settle client o).agents = h.agents := by
  unfold settle
  split
  · split <;> rfl
  · rfl

theorem nextNamed (op : HostOp) (i : Nat) : ((h.next d op).agents i).nodeId = (h.agents i).nodeId := by
  cases op with
  | command c =>
    simp only [next,command]
    split
    · rfl
    · split <;> rfl
  | serve k =>
    simp only [next,serve]
    split
    · rfl
    · rename_i e _
      by_cases own : i = e.client
      · subst own
        change (Function.update h.agents e.client _ e.client).nodeId = _
        rw [Function.update_self,serveNamed]
      · change (Function.update h.agents e.client _ i).nodeId = _
        rw [Function.update_of_ne own]
  | deliver k =>
    simp only [next,deliver]
    split
    · rfl
    · split
      · rw [settleAgents]
      · rfl
  | expire client => rw [next,settleAgents]
  | finish =>
    simp only [next,finish]
    split
    · split <;> rfl
    · rfl
  | restart => rfl
  | failNext client point =>
    by_cases own : i = client
    · subst own
      simp [next,failNext]
    · simp [next,failNext,Function.update_of_ne own]

theorem nextSimulates {op : HostOp} (named : Named d h) (sim : Simulates d h cl)
    (calm : steady ⟨h,op,h.next d op⟩ = true) :
    Simulates d (h.next d op) (onwards (completed d ⟨h,op,h.next d op⟩) cl) ∧
      Agrees (completed d ⟨h,op,h.next d op⟩) cl := by
  cases op with
  | command c => exact commandSimulates named sim
  | serve k => exact ⟨serveSimulates sim,agreesNone⟩
  | deliver k => exact ⟨deliverSimulates sim,agreesNone⟩
  | expire client => cases calm
  | finish => exact finishSimulates sim
  | restart => cases calm
  | failNext client point =>
    refine ⟨failNextSimulates sim (Option.isNone_iff_eq_none.mp calm),?_⟩
    intro x shown
    obtain rfl := Option.mem_some_iff.mp shown
    rfl

end Steps

section Refinement

variable {moves : List (Move HostNet HostOp)}

theorem ranSimulates (ran : Ran (system d) moves h) (named : Named d h)
    (calm : ∀ m ∈ moves, steady m = true) : ∃ operations cl, Ran operated operations cl ∧
      Simulates d h cl ∧ operations.map reported = moves.filterMap (completed d) := by
  induction ran with
  | @start h start =>
    obtain ⟨agents,shape⟩ := start
    have state : h.state = .idle := by rw [shape]
    refine ⟨[],clusterOf d h,.start ⟨state,?_⟩,.quiet (by rw [shape]) (by rw [shape]) (by rw [shape]) rfl,rfl⟩
    intro agent member
    obtain ⟨i,_,rfl⟩ := List.mem_map.mp member
    exact agents i
  | @move moves h op h' before step ih =>
    cases step
    have earlier : Named d h := fun i inside => (nextNamed op i).symm.trans (named i inside)
    obtain ⟨operations,cl,ran,sim,same⟩ := ih earlier (fun m member => calm m (List.mem_append_left _ member))
    obtain ⟨simulates,agrees⟩ := nextSimulates earlier sim (calm ⟨h,op,h.next d op⟩ (by simp))
    rw [Runs.filterMapSnoc,← same]
    cases done : completed d ⟨h,op,h.next d op⟩ with
    | none =>
      rw [done] at simulates
      exact ⟨operations,cl,ran,simulates,by simp⟩
    | some x =>
      rw [done] at simulates agrees
      have report : x.1.report cl = x.2 := agrees x rfl
      exact ⟨operations ++ [⟨cl,x.1,left (x.1.perform cl)⟩],_,.move ran rfl,simulates,
        by simp [reported,report]⟩

/- The operations that came to their end, with what their callers got, are a run of the
cluster that performs each at once, and between operations the network is where that run is. -/
theorem refinesCluster (ran : Ran (system d) moves h) (named : Named d h)
    (calm : ∀ m ∈ moves, steady m = true) : ∃ operations cl, Ran operated operations cl ∧
      operations.map reported = moves.filterMap (completed d) ∧ (h.pending = none → clusterOf d h = cl) := by
  obtain ⟨operations,cl,cluster,sim,same⟩ := ranSimulates ran named calm
  refine ⟨operations,cl,cluster,same,?_⟩
  intro free
  cases sim with
  | quiet pending requests replies same => exact same.symm
  | busy p pending => cases free.symm.trans pending

-- Agent 1 is served first and its answer comes first; then a start in the wrong state is refused.
def crossed : List HostOp :=
  [.failNext 0 .stop,.command .start,.command (.prepare ⟨0,1⟩ ⟨1,1,2,1⟩),.serve 1,.serve 0,.deliver 0,.finish,
    .deliver 0,.finish,.command .start,.serve 0,.deliver 0,.serve 0,.deliver 0,.finish]

-- The reports of `crossed` in short: what was asked, and whether every agent did it.
def verdict : Report → Option Bool
  | .injected => none
  | .threw _ => some false
  | .returned _ results => some (results.all Outcome.ok)

theorem refinesClusterOnce : ∃ moves h, converse crossed = .ok (moves,h) ∧
    (moves.filterMap (completed twoHosts)).map (fun x => (x.1,verdict x.2)) =
      [(.failNext 0 .stop,none),(.start,some false),(.prepare ⟨0,1⟩ ⟨1,1,2,1⟩,some true),(.start,some true)] ∧
    h.state = .running ∧ ∃ operations cl, Ran operated operations cl ∧
      operations.map reported = moves.filterMap (completed twoHosts) ∧
      (h.pending = none → clusterOf twoHosts h = cl) := by
  have value : (converse crossed).toOption.map (fun result =>
      decide ((result.1.filterMap (completed twoHosts)).map (fun x => (x.1,verdict x.2)) =
        [(.failNext 0 .stop,none),(.start,some false),(.prepare ⟨0,1⟩ ⟨1,1,2,1⟩,some true),(.start,some true)]) &&
      (decide (result.2.state = .running) && (result.1.all steady &&
        (List.range 2).all (fun i => (result.2.agents i).nodeId = twoHosts.nodeId i)))) = some true := by
    decide +kernel
  obtain ⟨⟨moves,h⟩,done,found⟩ := Runs.okFound value
  simp only [Bool.and_eq_true,decide_eq_true_eq,List.all_eq_true,List.mem_range] at found
  obtain ⟨ended,running,calm,named⟩ := found
  exact ⟨moves,h,done,ended,running,refinesCluster (converseRan done) named calm⟩

end Refinement

end HostNet

end Syncons.Ssr
