import Syncons.ClusterRetry

/-! An agent and its dataplane in step. A catch block sets the agent to Idle without asking
the backend, so a start or a stop that the backend fails leaves an idle agent over a
dataplane that is still configured or running. -/
namespace Syncons.Ssr
open Runs (System Move Ran)
open Methods

inductive AgentEvent where
  | failNext (point : MockFailurePoint)
  | call (call : Call)
  deriving DecidableEq, Repr

namespace AgentEvent

def perform : AgentEvent → Agent → Agent
  | failNext point,agent => {agent with backend := agent.backend.failNext point}
  | call c,agent => left (c.run agent)

-- The event is no start and no stop that runs into its injected failure.
def spared : AgentEvent → Agent → Prop
  | call (.start _),agent => agent.state = .configured → agent.failsStart = false
  | call (.stop _),agent => agent.state = .running → agent.failsStop = false
  | _,_ => True

instance (event : AgentEvent) (agent : Agent) : Decidable (event.spared agent) := by
  cases event with
  | failNext => exact inferInstanceAs (Decidable True)
  | call c => cases c <;> unfold spared <;> infer_instance

end AgentEvent

def driven : System Agent AgentEvent where
  start agent := agent.state = .idle ∧ agent.backend = {}
  step agent event agent' := agent' = event.perform agent

namespace SSRAgent
variable {agent : Agent} {session : SessionId} {config : RunConfig} {event : AgentEvent}

structure InStep (agent : Agent) : Prop where
  running : agent.state = .running ↔ agent.backend.state = .running
  configured : agent.state = .configured ↔ agent.backend.state = .configured
  resting : agent.state = .idle ∨ agent.state = .stopped →
    agent.backend.state = .closed ∨ agent.backend.state = .opened

instance (agent : Agent) : Decidable agent.InStep :=
  decidable_of_iff ((agent.state = .running ↔ agent.backend.state = .running) ∧
      (agent.state = .configured ↔ agent.backend.state = .configured) ∧
      (agent.state = .idle ∨ agent.state = .stopped →
        agent.backend.state = .closed ∨ agent.backend.state = .opened))
    ⟨fun h => ⟨h.1,h.2.1,h.2.2⟩,fun h => ⟨h.running,h.configured,h.resting⟩⟩

def Ended (agent : Agent) : Prop := agent.state = .stopped ∧ agent.backend.state = .closed

inductive Settled (agent : Agent) : Prop where
  | fresh (h : agent.Fresh)
  | prepared (h : agent.Prepared)
  | started (h : agent.Started)
  | ended (h : agent.Ended)

theorem Settled.inStep (settled : agent.Settled) : agent.InStep := by
  rcases settled with ⟨state,backend | backend⟩ | ⟨state,backend,_⟩ | ⟨state,backend⟩ | ⟨state,backend⟩
  all_goals exact ⟨by simp [state,backend],by simp [state,backend],by simp [state,backend]⟩

/- From Stopped, prepare does what it does from Idle. -/
theorem prepareEnded (ended : agent.Ended) :
    prepare session config agent = prepare session config {agent with state := .idle} := by
  obtain ⟨stopped,closed⟩ := ended
  by_cases hit : agent.backend.failurePoint = some .opening
  · simp [prepare,orIdle,backendStatus,DataplaneBackend.status,MockDataplaneBackend.status,onBackend,
      DataplaneBackend.openBackend,MockDataplaneBackend.openRun,setState,stopped,closed,hit]
  · cases done : MockDataplaneBackend.configure config {agent.backend with state := .opened} <;>
      simp [prepare,orIdle,backendStatus,DataplaneBackend.status,MockDataplaneBackend.status,onBackend,
        DataplaneBackend.openBackend,DataplaneBackend.configure,MockDataplaneBackend.openRun,setState,
        stopped,closed,hit,done]

theorem freshPrepares (fresh : agent.Fresh) : (left (prepare session config agent)).Settled := by
  by_cases passes : config.validate = .ok () ∧ agent.failsPrepare = false
  · rw [preparePasses fresh passes.1 passes.2]
    exact .prepared ⟨rfl,rfl,rfl⟩
  · have fails : agent.failsPrepare = true ∨ config.validate ≠ .ok () := by
      by_cases valid : config.validate = .ok ()
      · exact .inl (by simpa [valid] using passes)
      · exact .inr valid
    obtain ⟨e,agent',threw,after⟩ := @prepareFails agent session config fresh fails
    rw [threw]
    exact .fresh after

theorem prepareHeld (state : agent.state ≠ .idle) (other : agent.state ≠ .stopped) :
    left (prepare session config agent) = agent := by
  simp [prepare,refuse,state,other]

theorem prepareSettles (settled : agent.Settled) : (left (prepare session config agent)).Settled := by
  cases settled with
  | fresh fresh => exact freshPrepares fresh
  | prepared prepared =>
    rw [prepareHeld (by simp [prepared.1]) (by simp [prepared.1])]
    exact .prepared prepared
  | started started =>
    rw [prepareHeld (by simp [started.1]) (by simp [started.1])]
    exact .started started
  | ended ended =>
    rw [prepareEnded ended]
    exact freshPrepares ⟨rfl,.inl ended.2⟩

theorem Settled.preparedIn (settled : agent.Settled) (state : agent.state = .configured) :
    agent.Prepared := by
  rcases settled with ⟨other,_⟩ | prepared | ⟨other,_⟩ | ⟨other,_⟩
  · simp [other] at state
  · exact prepared
  · simp [other] at state
  · simp [other] at state

theorem Settled.startedIn (settled : agent.Settled) (state : agent.state = .running) :
    agent.Started := by
  rcases settled with ⟨other,_⟩ | ⟨other,_⟩ | started | ⟨other,_⟩
  · simp [other] at state
  · simp [other] at state
  · exact started
  · simp [other] at state

theorem failNextSettles {point : MockFailurePoint} (settled : agent.Settled) :
    ({agent with backend := agent.backend.failNext point} : Agent).Settled := by
  cases settled with
  | fresh fresh => exact .fresh fresh
  | prepared prepared => exact .prepared prepared
  | started started => exact .started started
  | ended ended => exact .ended ended

/- One event keeps the agent in step exactly when it is spared its injected failure. -/
theorem sparedSettles (settled : agent.Settled) (spared : event.spared agent) :
    (event.perform agent).Settled := by
  cases event with
  | failNext point => exact failNextSettles settled
  | call c =>
    cases c with
    | prepare session config => exact @prepareSettles agent session config settled
    | start session =>
      by_cases state : agent.state = .configured
      · have runs := @startRuns agent session (settled.preparedIn state)
        rw [spared state] at runs
        simp only [AgentEvent.perform,Call.run,runs]
        exact .started ⟨rfl,rfl⟩
      · obtain ⟨e,refused⟩ := @startRefused _ _ _ session state
        simp only [AgentEvent.perform,Call.run,refused]
        exact settled
    | stop session =>
      by_cases state : agent.state = .running
      · have runs := @stopRuns agent session (settled.startedIn state)
        rw [spared state] at runs
        simp only [AgentEvent.perform,Call.run,runs]
        exact .ended ⟨rfl,rfl⟩
      · obtain ⟨e,refused⟩ := @stopRefused _ _ _ session state
        simp only [AgentEvent.perform,Call.run,refused]
        exact settled

theorem struckLeaves (settled : agent.Settled) (struck : ¬ event.spared agent) :
    (event.perform agent).state = .idle ∧
      ((event.perform agent).backend.state = .configured ∨
        (event.perform agent).backend.state = .running) := by
  cases event with
  | failNext point => exact absurd trivial struck
  | call c =>
    cases c with
    | prepare session config => exact absurd trivial struck
    | start session =>
      obtain ⟨state,hit⟩ := Classical.not_imp.mp struck
      have prepared := settled.preparedIn state
      have runs := @startRuns agent session prepared
      rw [Bool.not_eq_false _ |>.mp hit] at runs
      simp only [AgentEvent.perform,Call.run,runs]
      exact ⟨rfl,.inl prepared.2.1⟩
    | stop session =>
      obtain ⟨state,hit⟩ := Classical.not_imp.mp struck
      have started := settled.startedIn state
      have runs := @stopRuns agent session started
      rw [Bool.not_eq_false _ |>.mp hit] at runs
      simp only [AgentEvent.perform,Call.run,runs]
      exact ⟨rfl,.inr started.2⟩

end SSRAgent

section Runs
variable {moves : List (Move Agent AgentEvent)} {agent : Agent}

theorem ranSettled (ran : Ran driven moves agent) (spared : ∀ m ∈ moves, m.op.spared m.before) :
    agent.Settled := by
  induction ran with
  | start start => exact .fresh ⟨start.1,.inl (by rw [start.2])⟩
  | @move moves before event after ran step ih =>
    have settled := ih (fun m member => spared m (List.mem_append_left _ member))
    have next : after = event.perform before := step
    rw [next]
    exact SSRAgent.sparedSettles settled (spared ⟨before,event,after⟩ (by simp))

theorem inStepIff (ran : Ran driven moves agent) :
    (∀ m ∈ moves, m.after.InStep) ↔ ∀ m ∈ moves, m.op.spared m.before := by
  constructor
  · intro steady
    induction ran with
    | start start => simp
    | @move moves before event after ran step ih =>
      have spared := ih (fun m member => steady m (List.mem_append_left _ member))
      intro m member
      rcases List.mem_append.mp member with earlier | last
      · exact spared m earlier
      · cases List.mem_singleton.mp last
        by_contra struck
        have next : after = event.perform before := step
        obtain ⟨idle,backend⟩ := SSRAgent.struckLeaves (ranSettled ran spared) struck
        have kept := (steady ⟨before,event,after⟩ (by simp)).resting (.inl (next ▸ idle))
        rw [next] at kept
        rcases backend with state | state <;> simp [state] at kept
  · intro spared m member
    obtain ⟨pre,post,rfl⟩ := List.append_of_mem member
    obtain ⟨_,_,upTo⟩ := Runs.ranAt ran
    exact (ranSettled upTo (fun x held => spared x (by
      rcases List.mem_append.mp held with earlier | last
      · exact List.mem_append_left _ earlier
      · rw [List.mem_singleton.mp last]
        exact member))).inStep

def drive (events : List AgentEvent) : Except Empty (List (Move Agent AgentEvent) × Agent) :=
  Runs.record (fun agent event => .ok (event.perform agent)) events {nodeId := 0, backend := {}}

theorem driveFound {events : List AgentEvent} {good : List (Move Agent AgentEvent) → Agent → Bool}
    (value : (drive events).toOption.map (fun result => good result.1 result.2) = some true) :
    ∃ moves agent, drive events = .ok (moves,agent) ∧ Ran driven moves agent ∧
      good moves agent = true := by
  obtain ⟨⟨moves,agent⟩,done,found⟩ := Runs.okFound value
  exact ⟨moves,agent,done,Runs.recordTotal (fun _ _ => rfl) ⟨rfl,rfl⟩ done,found⟩

def recovers : List AgentEvent :=
  [.failNext .configure,.call (.prepare {} ⟨0,1,1,1⟩),.call (.prepare {} ⟨0,1,1,1⟩),
    .call (.start {}),.call (.stop {})]

theorem inStepOnce : ∃ moves agent, drive recovers = .ok (moves,agent) ∧
    moves.map (fun m => m.after.state) = [.idle,.idle,.configured,.running,.stopped] ∧
    ∀ m ∈ moves, m.after.InStep := by
  obtain ⟨moves,agent,done,ran,good⟩ := @driveFound recovers
    (fun moves _ => moves.map (fun m => m.after.state) = [.idle,.idle,.configured,.running,.stopped] &&
      moves.all (fun m => m.op.spared m.before)) (by decide +kernel)
  simp only [Bool.and_eq_true,decide_eq_true_eq,List.all_eq_true] at good
  exact ⟨moves,agent,done,good.1,(inStepIff ran).mpr good.2⟩

-- The backend fails to start; it stays configured under an idle agent.
theorem idleOverConfigured : ∃ moves agent,
    drive [.call (.prepare {} ⟨0,1,1,1⟩),.failNext .start,.call (.start {})] = .ok (moves,agent) ∧
      Ran driven moves agent ∧ agent.state = .idle ∧ agent.backend.state = .configured ∧
      ¬ ∀ m ∈ moves, m.after.InStep := by
  obtain ⟨moves,agent,done,ran,good⟩ := @driveFound
    [.call (.prepare {} ⟨0,1,1,1⟩),.failNext .start,.call (.start {})]
    (fun moves agent => agent.state = .idle && agent.backend.state = .configured &&
      !moves.all (fun m => m.after.InStep)) (by decide +kernel)
  simp only [Bool.and_eq_true,decide_eq_true_eq,Bool.not_eq_true',← Bool.not_eq_true,
    List.all_eq_true] at good
  exact ⟨moves,agent,done,ran,good.1.1,good.1.2,good.2⟩

end Runs

end Syncons.Ssr
