import Syncons.Advance
import Syncons.Runs

/-! Runs of the control plane: any interleaving of time advances, round calls and
observed events from an initialised state. One summary of every operation, and the
bookkeeping that holds after any of them. -/
namespace Syncons
open Outcome Runs

namespace OnlineRejoinControlPlane

inductive Op where
  | advance (snapshots : List RepairSnapshot) (timeNs : Int)
  | call (snapshots : List RepairSnapshot) (roundId : Int)
  | observe (event : ControlPlaneEvent)

def perform (nodeCount : Nat) (cp : OnlineRejoinControlPlane) : Op → Py OnlineRejoinControlPlane
  | .advance snapshots timeNs => cp.advanceToTime snapshots timeNs nodeCount
  | .call snapshots roundId => cp.call snapshots roundId nodeCount
  | .observe event => cp.observeEvent event

def Op.admissible (nodeCount : Nat) : Op → Prop
  | .observe event => event.nodeId < nodeCount
  | _ => True
instance (nodeCount : Nat) (op : Op) : Decidable (op.admissible nodeCount) := by
  cases op <;> unfold Op.admissible <;> infer_instance

def Op.initialises : Op → Bool
  | .observe _ => false
  | _ => true

def fresh (slack : Int) (timing : SimulationTiming) : OnlineRejoinControlPlane :=
  {cutoverSlackRounds := slack, timing := timing}

def runs (slack : Int) (timing : SimulationTiming) (nodeCount : Nat) :
    System OnlineRejoinControlPlane Op where
  start cp := (fresh slack timing).ensureState nodeCount = .ok cp
  step cp op cp' := op.admissible nodeCount ∧ cp.perform nodeCount op = .ok cp'

variable {slack : Int} {timing : SimulationTiming} {nodeCount : Nat}
  {cp cp' : OnlineRejoinControlPlane} {state state' : ControlPlaneState} {op : Op}
  {moves pre post : List (Move OnlineRejoinControlPlane Op)}

def Effect (cp : OnlineRejoinControlPlane) (state : ControlPlaneState) (op : Op)
    (cp' : OnlineRejoinControlPlane) (state' : ControlPlaneState) : Prop :=
  match op with
  | .advance snapshots timeNs => Evolves cp state cp' state' ∧ PendingMove timeNs cp cp' ∧
      LogsFrom snapshots state.repairLogs state'.repairLogs ∧
      ∀ item ∈ cp'.scheduled, item.action = .commitOnlineRejoin → timeNs < item.timeNs
  | .call snapshots roundId => Called snapshots roundId cp state cp' state'
  | .observe event => Noticed event cp state cp' state'

theorem beganSetup (cp : OnlineRejoinControlPlane) (nowNs : Int) :
    sameSetup cp (cp.beginCollectionWindow nowNs) := by
  rcases beginCollectionWindowCases cp nowNs with same | ⟨_,_,_,same⟩ <;> rw [same] <;>
    exact ⟨rfl,rfl,rfl⟩

theorem effectSetup (h : Effect cp state op cp' state') : sameSetup cp cp' := by
  cases op with
  | advance snapshots timeNs => exact h.1.setup
  | call snapshots roundId =>
    cases h with
    | quiet early rebuilt => exact ⟨rfl,rfl,rfl⟩
    | cutover pending committed due rebuilt => exact beganSetup (cp.afterCutover roundId _) _
  | observe event =>
    cases h with
    | ignored other => exact ⟨rfl,rfl,rfl⟩
    | acked kind held prepared acked =>
      obtain ⟨_,last,extra,rfl,_⟩ := acked
      exact ⟨rfl,rfl,rfl⟩
    | collected kind collects => exact ⟨rfl,rfl,rfl⟩
    | queued kind late => exact beganSetup ((cp.observed event).queuedUp state event.nodeId _) _

theorem performMeets (h : Coherent [] cp state) (bounded : op.admissible cp.nodeCount)
    (nodeCount : Nat) :
    Meets (ZeroRound cp.timing) (fun cp' => ∃ state', Coherent [] cp' state' ∧
      Effect cp state op cp' state') (cp.perform nodeCount op) := by
  cases op with
  | advance snapshots timeNs =>
    refine meetsMono (advanceMeets h snapshots timeNs nodeCount) ?_
    rintro cp' ⟨⟨state',coherent,evolved,logs⟩,move,later⟩
    exact ⟨state',coherent,evolved,move,logs,later⟩
  | call snapshots roundId =>
    obtain ⟨cp',state',done,coherent,called⟩ := callMeets h snapshots roundId nodeCount
    rw [perform,done]
    exact ⟨state',coherent,called⟩
  | observe event =>
    obtain ⟨cp',state',done,coherent,noticed⟩ := observeEventMeets h (fun _ => bounded)
    rw [perform,done]
    exact ⟨state',coherent,noticed⟩

structure Sound (slack : Int) (timing : SimulationTiming) (nodeCount : Nat)
    (cp : OnlineRejoinControlPlane) : Prop where
  coherent : ∃ state, Coherent [] cp state
  timing : cp.timing = timing
  nodeCount : cp.nodeCount = nodeCount
  slack : cp.cutoverSlackRounds = slack

theorem startSound (h : (fresh slack timing).ensureState nodeCount = .ok cp) :
    Sound slack timing nodeCount cp := by
  obtain ⟨first,state,ready,initial⟩ := initialMeets slack timing nodeCount
  have same : first = cp := Except.ok.inj (ready.symm.trans h)
  subst same
  refine ⟨⟨state,initial.coherent⟩,initial.timed,initial.counted,?_⟩
  simp only [ensureState,initialState] at ready
  cases full : bitmapSet nodeCount (List.range nodeCount) with
  | error e => simp [full,bind,Except.bind] at ready
  | ok bitmap =>
    simp only [full,okBind] at ready
    cases ready
    rfl

theorem stepSound (h : Sound slack timing nodeCount cp) (bounded : op.admissible nodeCount) :
    Meets (ZeroRound timing) (Sound slack timing nodeCount) (cp.perform nodeCount op) := by
  obtain ⟨⟨state,coherent⟩,sameTiming,count,sameSlack⟩ := h
  have effects := performMeets coherent (by rw [count]; exact bounded) nodeCount
  rw [sameTiming] at effects
  refine meetsMono effects ?_
  rintro cp' ⟨state',coherent',effect⟩
  obtain ⟨t,c,s⟩ := effectSetup effect
  exact ⟨⟨state',coherent'⟩,t.trans sameTiming,c.trans count,s.trans sameSlack⟩

theorem ranSound (ran : Ran (runs slack timing nodeCount) moves cp) :
    Sound slack timing nodeCount cp := by
  induction ran with
  | start h => exact startSound h
  | move before h sound => exact meetsValue (stepSound sound h.1) h.2

theorem stepEffect (h : Sound slack timing nodeCount cp)
    (step : (runs slack timing nodeCount).step cp op cp') :
    ∃ state state', Coherent [] cp state ∧ Coherent [] cp' state' ∧ Effect cp state op cp' state' := by
  obtain ⟨state,coherent⟩ := h.coherent
  have effects := performMeets coherent (by rw [h.nodeCount]; exact step.1) nodeCount
  obtain ⟨state',after,effect⟩ := meetsValue effects step.2
  exact ⟨state,state',coherent,after,effect⟩

def recorded (slack : Int) (timing : SimulationTiming) (nodeCount : Nat) (ops : List Op) :
    Py (List (Move OnlineRejoinControlPlane Op) × OnlineRejoinControlPlane) := do
  let cp ← (fresh slack timing).ensureState nodeCount
  record (perform nodeCount) ops cp

theorem recordedRan {ops : List Op} (legal : ∀ op ∈ ops, op.admissible nodeCount)
    (done : recorded slack timing nodeCount ops = .ok (moves,cp)) :
    Ran (runs slack timing nodeCount) moves cp := by
  obtain ⟨start,ready,rest⟩ := bindOk.mp done
  have first : Ran (runs slack timing nodeCount) [] start := .start ready
  refine recordRan ?_ first rest
  intro op member s s' step
  exact ⟨legal op member,step⟩

section Bookkeeping

structure Bookkeeping (cp : OnlineRejoinControlPlane) (state : ControlPlaneState) : Prop where
  shown : cp.currentState = some state
  failed : ∀ i, inState state i .failed →
    i ∈ cp.collectingTargets ∨ i ∈ cp.episodeTargets ∨ i ∈ cp.queuedInterruptions
  rejoining : ∀ i, inState state i .recovering ∨ inState state i .rejoinPending → i ∈ cp.episodeTargets
  active : cp.activeEpisodeId.isSome ↔ cp.episodeTargets.Nonempty
  collecting : cp.collectingTargets.Nonempty →
    cp.collectionDeadlineNs.isSome ∧ cp.activeEpisodeId = none

theorem coherentBookkeeping (h : Coherent [] cp state) : Bookkeeping cp state where
  shown := h.tracked.current
  failed := h.tracked.failed
  rejoining i rejoining := by
    rcases rejoining with recovering | pending
    · exact h.tracked.rejoining i _ recovering (Or.inl rfl)
    · exact h.tracked.rejoining i _ pending (Or.inr rfl)
  active := h.episodic.active
  collecting some := ⟨h.episodic.deadline some,h.episodic.window (h.episodic.deadline some)⟩

theorem performFresh (initialises : op.initialises)
    (start : (fresh slack timing).ensureState nodeCount = .ok cp) :
    (fresh slack timing).perform nodeCount op = cp.perform nodeCount op := by
  obtain ⟨state,coherent⟩ := (startSound start).coherent
  cases op with
  | advance snapshots timeNs =>
    simp only [perform,advanceToTime,start,ensureStateKeeps coherent.tracked]
  | call snapshots roundId => simp only [perform,call,start,ensureStateKeeps coherent.tracked]
  | observe event => simp [Op.initialises] at initialises

theorem performAll {ops : List Op} (length : 0 < timing.roundLengthNs)
    (h : Sound slack timing nodeCount cp) (bounded : ∀ op ∈ ops, op.admissible nodeCount) :
    ∃ cp', ops.foldlM (perform nodeCount) cp = .ok cp' ∧ Sound slack timing nodeCount cp' := by
  have whole := @meetsFold _ _ _ (ZeroRound timing)
    (fun rest s => (∀ op ∈ rest, op.admissible nodeCount) ∧ Sound slack timing nodeCount s)
    (perform nodeCount) ops cp ⟨bounded,h⟩ (by
      rintro s op rest ⟨legal,sound⟩
      refine meetsMono (stepSound sound (legal op (by simp))) ?_
      intro next kept
      exact ⟨fun other member => legal other (by simp [member]),kept⟩)
  have noError : ∀ e, ¬ ZeroRound timing e := by
    rintro e ⟨_,zero⟩
    omega
  obtain ⟨cp',done,_,sound⟩ := meetsTotal whole noError
  exact ⟨cp',done,sound⟩

theorem performFreshAll {first : Op} {ops : List Op} (length : 0 < timing.roundLengthNs)
    (initialises : first.initialises) (bounded : ∀ op ∈ first :: ops, op.admissible nodeCount) :
    ∃ cp, (first :: ops).foldlM (perform nodeCount) (fresh slack timing) = .ok cp ∧
      Sound slack timing nodeCount cp := by
  obtain ⟨start,_,ready,_⟩ := initialMeets slack timing nodeCount
  rw [List.foldlM_cons,performFresh initialises ready,← List.foldlM_cons]
  exact performAll length (startSound ready) bounded

theorem noticedFailed {event : ControlPlaneEvent} (noticed : Noticed event cp state cp' state')
    (kind : interruption event.toNodeEvent) : inState state' event.nodeId .failed := by
  have marked : inState (failedState state event.nodeId) event.nodeId .failed := by
    rw [inState,lookupFailed,if_pos rfl]
  cases noticed with
  | ignored other => exact absurd kind other
  | acked ack held prepared acked =>
    rcases kind with crashed | halted
    · cases ack.symm.trans crashed
    · cases ack.symm.trans halted
  | collected _ collects => exact marked
  | queued _ late => exact marked

theorem interruptionsTracked {first : Op} {ops : List Op} (length : 0 < timing.roundLengthNs)
    (initialises : first.initialises) (bounded : ∀ op ∈ first :: ops, op.admissible nodeCount) :
    (∃ cp state, (first :: ops).foldlM (perform nodeCount) (fresh slack timing) = .ok cp ∧
      Bookkeeping cp state) ∧
    ∀ pre event post, first :: ops = pre ++ .observe event :: post → interruption event.toNodeEvent →
      ∃ cp state, (pre ++ [.observe event]).foldlM (perform nodeCount) (fresh slack timing) = .ok cp ∧
        Bookkeeping cp state ∧ inState state event.nodeId .failed := by
  constructor
  · obtain ⟨cp,done,sound⟩ := performFreshAll length initialises bounded
    obtain ⟨state,coherent⟩ := sound.coherent
    exact ⟨cp,state,done,coherentBookkeeping coherent⟩
  · intro pre event post split kind
    cases pre with
    | nil =>
      rw [(List.cons.inj split).1] at initialises
      cases initialises
    | cons op pre =>
      obtain ⟨rfl,rest⟩ := List.cons.inj split
      rw [split] at bounded
      obtain ⟨cp,done,sound⟩ := performFreshAll length initialises
        (fun op member => bounded op (List.mem_append_left _ member))
      obtain ⟨state,coherent⟩ := sound.coherent
      have legal : event.nodeId < nodeCount := bounded (.observe event) (by simp)
      obtain ⟨cp',state',seen,coherent',noticed⟩ :=
        observeEventMeets coherent (fun _ => sound.nodeCount.symm ▸ legal)
      refine ⟨cp',state',?_,coherentBookkeeping coherent',noticedFailed noticed kind⟩
      rw [List.foldlM_append,done,okBind,List.foldlM_cons,perform,seen]
      rfl

def crashThenHalt : List Op :=
  [.advance [] 0,.observe ⟨⟨.nodeCrashed,0,none,none⟩,some 1,14000⟩,.call [] 2,.advance [] 36000,
    .observe ⟨⟨.nodeHalted,2,none,none⟩,some 10,50000⟩,.advance [] 52000]

theorem interruptionsTrackedOnce :
    (∃ cp state, crashThenHalt.foldlM (perform 3) (fresh 10 {}) = .ok cp ∧ Bookkeeping cp state ∧
      cp.episodeTargets = {0} ∧ cp.activeEpisodeId = some 1 ∧ cp.queuedInterruptions.lookup 2 = some 50000) ∧
    ∃ cp state, (crashThenHalt.take 5).foldlM (perform 3) (fresh 10 {}) = .ok cp ∧
      Bookkeeping cp state ∧ inState state 2 .failed := by
  have value : (crashThenHalt.foldlM (perform 3) (fresh 10 {})).toOption.map (fun cp =>
      decide (cp.episodeTargets = {0} ∧ cp.activeEpisodeId = some 1 ∧
        cp.queuedInterruptions.lookup 2 = some 50000)) = some true := by decide +kernel
  obtain ⟨cp,done,outputs⟩ := Runs.okFound value
  obtain ⟨⟨_,state,tracked,kept⟩,noticed⟩ := @interruptionsTracked 10 {} 3 (.advance [] 0)
    crashThenHalt.tail (by decide) rfl (by decide)
  cases Except.ok.inj (done.symm.trans tracked)
  exact ⟨⟨cp,state,done,kept,of_decide_eq_true outputs⟩,
    noticed (crashThenHalt.take 4) ⟨⟨.nodeHalted,2,none,none⟩,some 10,50000⟩ _ rfl (Or.inr rfl)⟩

end Bookkeeping

end OnlineRejoinControlPlane
end Syncons
