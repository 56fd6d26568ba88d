import Syncons.Cluster
import Syncons.NodeSteps
import Syncons.Handshake

/-! The cluster as a transition system. A point of a run is a round, the phase that
comes next and the cluster; a move is the control phase, one node's turn or the
network phase. `simulate` goes through these points. -/
namespace Syncons
open Outcome Runs

inductive Phase where
  | control | turn (i : Nat) | network
  deriving DecidableEq, Repr

structure Point where
  round : Nat
  phase : Phase
  cluster : Cluster

namespace ClusterRun

variable {run : ClusterRun} {pt pt' : Point} {s s' : Cluster} {r i : Nat} {phase : Phase}
  {moves pre post : List (Move Point Phase)} {m : Move Point Phase}

def turnFrom (run : ClusterRun) (i : Nat) : Phase := if i < run.nodeCount then .turn i else .network

theorem turnFromOpen : run.turnFrom i ≠ .control := by
  unfold turnFrom
  split <;> simp

def next (run : ClusterRun) (pt : Point) : Py Point :=
  match pt.phase with
  | .control => do
    let s ← run.controlPhase pt.round pt.cluster
    .ok ⟨pt.round,run.turnFrom 0,s⟩
  | .turn i => do
    let s ← run.nodeTurn pt.round pt.cluster i
    .ok ⟨pt.round,run.turnFrom (i + 1),s⟩
  | .network => .ok ⟨pt.round + 1,.control,run.advanceNetwork pt.round pt.cluster⟩

def system (run : ClusterRun) : System Point Phase where
  start pt := pt = ⟨0,.control,Cluster.init run⟩
  step pt phase pt' := pt.round < run.rounds ∧ pt.phase = phase ∧ run.next pt = .ok pt'

inductive Step (run : ClusterRun) : Point → Phase → Point → Prop where
  | control {r : Nat} {s s' : Cluster} (h : run.controlPhase r s = .ok s') :
      Step run ⟨r,.control,s⟩ .control ⟨r,run.turnFrom 0,s'⟩
  | turn {r i : Nat} {s s' : Cluster} (h : run.nodeTurn r s i = .ok s') :
      Step run ⟨r,.turn i,s⟩ (.turn i) ⟨r,run.turnFrom (i + 1),s'⟩
  | network {r : Nat} {s : Cluster} :
      Step run ⟨r,.network,s⟩ .network ⟨r + 1,.control,run.advanceNetwork r s⟩

theorem stepCases (h : run.system.step pt phase pt') : Step run pt phase pt' := by
  obtain ⟨_,same,next⟩ := h
  obtain ⟨r,at',s⟩ := pt
  subst same
  cases at' with
  | control =>
    obtain ⟨s',done,same⟩ := bindOk.mp next
    cases same
    exact .control done
  | turn i =>
    obtain ⟨s',done,same⟩ := bindOk.mp next
    cases same
    exact .turn done
  | network =>
    cases next
    exact .network

section Simulation

theorem turnsRan {k : Nat} (before : Ran run.system pre ⟨r,run.turnFrom i,s⟩) (inside : r < run.rounds)
    (count : i + k = run.nodeCount)
    (done : (List.range' i k).foldlM (run.nodeTurn (r : Nat)) s = .ok s') :
    ∃ moves, Ran run.system moves ⟨r,.network,s'⟩ := by
  induction k generalizing i s pre with
  | zero =>
    cases done
    have last : run.turnFrom i = .network := if_neg (by omega)
    exact ⟨pre,last ▸ before⟩
  | succ k ih =>
    rw [List.range'_succ,List.foldlM_cons] at done
    obtain ⟨mid,first,rest⟩ := bindOk.mp done
    have here : run.turnFrom i = .turn i := if_pos (by omega)
    rw [here] at before
    have step : run.system.step ⟨r,.turn i,s⟩ (.turn i) ⟨r,run.turnFrom (i + 1),mid⟩ := by
      refine ⟨inside,rfl,?_⟩
      simp only [next,first,okBind]
    exact ih (.move before step) (by omega) rest

theorem roundRan (before : Ran run.system pre ⟨r,.control,s⟩) (inside : r < run.rounds)
    (done : run.runRound s r = .ok s') : ∃ moves, Ran run.system moves ⟨r + 1,.control,s'⟩ := by
  obtain ⟨pushed,control,rest⟩ := bindOk.mp done
  obtain ⟨turned,turns,last⟩ := bindOk.mp rest
  cases last
  have first : run.system.step ⟨r,.control,s⟩ .control ⟨r,run.turnFrom 0,pushed⟩ := by
    refine ⟨inside,rfl,?_⟩
    simp only [next,control,okBind]
  rw [List.range_eq_range'] at turns
  obtain ⟨moves,all⟩ := turnsRan (.move before first) inside (by omega) turns
  exact ⟨_,.move all ⟨inside,rfl,rfl⟩⟩

-- The rounds of `simulate` are a run of the system.
theorem simulateRan (done : run.simulate = .ok s) :
    ∃ moves, Ran run.system moves ⟨run.rounds,.control,s⟩ := by
  have general : ∀ k s, k ≤ run.rounds →
      (List.range k).foldlM run.runRound (Cluster.init run) = .ok s →
      ∃ moves, Ran run.system moves ⟨k,.control,s⟩ := by
    intro k
    induction k with
    | zero =>
      intro s _ done
      cases done
      exact ⟨[],.start rfl⟩
    | succ k ih =>
      intro s bound done
      rw [List.range_succ,List.foldlM_append] at done
      obtain ⟨mid,first,last⟩ := bindOk.mp done
      rw [List.foldlM_cons] at last
      obtain ⟨after,one,none⟩ := bindOk.mp last
      cases none
      obtain ⟨moves,before⟩ := ih mid (by omega) first
      exact roundRan before (by omega) one
  exact general run.rounds s le_rfl done

def take (run : ClusterRun) (pt : Point) (phase : Phase) : Py Point :=
  if pt.round < run.rounds ∧ pt.phase = phase then run.next pt else .error .valueError

def roundPhases (run : ClusterRun) : List Phase :=
  .control :: (List.range run.nodeCount).map .turn ++ [.network]

def walk (run : ClusterRun) (k : Nat) : Py (List (Move Point Phase) × Point) :=
  record run.take (List.replicate k run.roundPhases).flatten ⟨0,.control,Cluster.init run⟩

theorem walkRan {k : Nat} (done : run.walk k = .ok (moves,pt)) : Ran run.system moves pt := by
  have start : Ran run.system [] ⟨0,.control,Cluster.init run⟩ := .start rfl
  have legal : ∀ phase ∈ (List.replicate k run.roundPhases).flatten, ∀ before after,
      run.take before phase = .ok after → run.system.step before phase after := by
    intro phase _ before after taken
    unfold take at taken
    split at taken
    · rename_i legal
      exact ⟨legal.1,legal.2,taken⟩
    · simp at taken
  have whole := recordRan legal start done
  simpa using whole

theorem walkFound {k : Nat} {β : Type} {f : List (Move Point Phase) × Point → β} {b : β}
    (value : (run.walk k).toOption.map f = some b) :
    ∃ moves pt, Ran run.system moves pt ∧ f (moves,pt) = b := by
  obtain ⟨⟨moves,pt⟩,done,found⟩ := okFound value
  exact ⟨moves,pt,walkRan done,found⟩

end Simulation

section Control

-- The control plane of a run: fresh before its first use, sound afterwards.
def Ready (run : ClusterRun) (cp cp' : OnlineRejoinControlPlane) : Prop :=
  cp.ensureState run.nodeCount = .ok cp' ∧
  OnlineRejoinControlPlane.Sound 10 run.timing run.nodeCount cp'

theorem soundReady {cp : OnlineRejoinControlPlane}
    (h : OnlineRejoinControlPlane.Sound 10 run.timing run.nodeCount cp) : Ready run cp cp := by
  obtain ⟨state,coherent⟩ := h.coherent
  exact ⟨OnlineRejoinControlPlane.ensureStateKeeps coherent.tracked run.nodeCount,h⟩

open OnlineRejoinControlPlane in
structure Controlled (run : ClusterRun) (r : Int) (s : Cluster) (before : OnlineRejoinControlPlane)
    (state : ControlPlaneState) (mid : OnlineRejoinControlPlane) (midState : ControlPlaneState)
    (after : OnlineRejoinControlPlane) (shown : ControlPlaneState) : Prop where
  start : Coherent [] before state
  opened : s.controlPlane.advanceToTime (run.repairLogSnapshots s) (run.roundStartNs r) run.nodeCount = .ok mid
  advance : Coherent [] mid midState
  called : Coherent [] after shown
  sound : Sound 10 run.timing run.nodeCount after
  first : Effect before state (.advance (run.repairLogSnapshots s) (run.roundStartNs r)) mid midState
  second : Effect mid midState (.call (run.repairLogSnapshots s) r) after shown

open OnlineRejoinControlPlane in
theorem controlPhaseFacts {r : Int} {before : OnlineRejoinControlPlane}
    (ready : Ready run s.controlPlane before) (done : run.controlPhase r s = .ok s') :
    ∃ state mid midState after shown, Controlled run r s before state mid midState after shown ∧
      s' = run.pushControlPlaneUpdates shown {s with controlPlane := after} := by
  obtain ⟨ensured,sound⟩ := ready
  obtain ⟨state,coherent⟩ := sound.coherent
  obtain ⟨mid,advanced,rest⟩ := bindOk.mp done
  obtain ⟨after,called,rest⟩ := bindOk.mp rest
  obtain ⟨shown,current,last⟩ := bindOk.mp rest
  have same : before.advanceToTime (run.repairLogSnapshots s) (run.roundStartNs r) run.nodeCount =
      .ok mid := by
    rw [← advanced,advanceToTime,advanceToTime,ensured,ensureStateKeeps coherent.tracked]
  have first : before.perform run.nodeCount
      (.advance (run.repairLogSnapshots s) (run.roundStartNs r)) = .ok mid := same
  have second : mid.perform run.nodeCount (.call (run.repairLogSnapshots s) r) = .ok after := called
  have soundMid := meetsValue (stepSound sound (by exact trivial)) first
  have soundAfter := meetsValue (stepSound soundMid (by exact trivial)) second
  obtain ⟨midState,coherentMid,effect⟩ := meetsValue
    (performMeets coherent (by exact trivial) run.nodeCount) first
  obtain ⟨afterState,coherentAfter,effect'⟩ := meetsValue
    (performMeets coherentMid (by exact trivial) run.nodeCount) second
  have shownIs : afterState = shown := by
    rw [coherentAfter.tracked.current] at current
    exact Except.ok.inj current
  subst shownIs
  cases last
  exact ⟨state,mid,midState,after,afterState,
    ⟨coherent,advanced,coherentMid,coherentAfter,soundAfter,effect,effect'⟩,rfl⟩

end Control

section Push

variable {state : ControlPlaneState}

-- What node `i` sees of a push: nothing new, or a full mailbox and an overwritten history.
def pushed (state : ControlPlaneState) (i : Nat) (s : Cluster) : Prop :=
  s.lastControlPlaneUpdates i ≠ some (buildControlPlaneUpdate i state)
instance (state i s) : Decidable (pushed state i s) := by unfold pushed; infer_instance

structure PushedOne (state : ControlPlaneState) (i : Nat) (s s' : Cluster) : Prop where
  last : s'.lastControlPlaneUpdates i = some (buildControlPlaneUpdate i state)
  quiet : ¬ pushed state i s → s'.nodes i = s.nodes i ∧ s'.commitHistoryByNode i = s.commitHistoryByNode i
  node : pushed state i s →
    s'.nodes i = (s.nodes i).pushControlPlaneUpdate (buildControlPlaneUpdate i state)
  history : pushed state i s → s'.commitHistoryByNode i =
    ((state.repairLogs.lookup i).map RepairLog.entries).getD (s.commitHistoryByNode i)

structure SameAt (i : Nat) (s s' : Cluster) : Prop where
  node : s'.nodes i = s.nodes i
  history : s'.commitHistoryByNode i = s.commitHistoryByNode i
  last : s'.lastControlPlaneUpdates i = s.lastControlPlaneUpdates i

theorem pushOne (state : ControlPlaneState) (s : Cluster) (i : Nat) :
    PushedOne state i s (pushControlPlaneUpdate state s i) ∧
    (∀ j, j ≠ i → SameAt j s (pushControlPlaneUpdate state s i)) ∧
    (pushControlPlaneUpdate state s i).controlPlane = s.controlPlane ∧
    (pushControlPlaneUpdate state s i).scheduledDeliveries = s.scheduledDeliveries := by
  unfold pushControlPlaneUpdate
  by_cases same : s.lastControlPlaneUpdates i = some (buildControlPlaneUpdate i state)
  · rw [if_pos same]
    have quiet : ¬ pushed state i s := not_not.mpr same
    exact ⟨⟨same,fun _ => ⟨rfl,rfl⟩,fun new => absurd new quiet,fun new => absurd new quiet⟩,
      fun _ _ => ⟨rfl,rfl,rfl⟩,rfl,rfl⟩
  · rw [if_neg same]
    refine ⟨⟨by simp,fun quiet => absurd same quiet,fun _ => by simp,?_⟩,?_,rfl,rfl⟩
    · intro _
      cases found : state.repairLogs.lookup i with
      | none => simp [buildControlPlaneUpdate,found]
      | some log => simp [buildControlPlaneUpdate,found]
    · intro j other
      refine ⟨by simp [other],?_,by simp [other]⟩
      cases found : state.repairLogs.lookup i with
      | none => simp [buildControlPlaneUpdate,found]
      | some log => simp [buildControlPlaneUpdate,found,other]

theorem pushAll (state : ControlPlaneState) (s : Cluster) (n : Nat) :
    (∀ i < n, PushedOne state i s ((List.range n).foldl (pushControlPlaneUpdate state) s)) ∧
    (∀ i, n ≤ i → SameAt i s ((List.range n).foldl (pushControlPlaneUpdate state) s)) ∧
    ((List.range n).foldl (pushControlPlaneUpdate state) s).controlPlane = s.controlPlane ∧
    ((List.range n).foldl (pushControlPlaneUpdate state) s).scheduledDeliveries =
      s.scheduledDeliveries := by
  induction n with
  | zero => exact ⟨by simp,fun _ _ => ⟨rfl,rfl,rfl⟩,rfl,rfl⟩
  | succ n ih =>
    rw [List.range_succ,List.foldl_append,List.foldl_cons,List.foldl_nil]
    generalize (List.range n).foldl (pushControlPlaneUpdate state) s = mid at ih
    obtain ⟨below,above,cp,deliveries⟩ := ih
    obtain ⟨one,others,cp',deliveries'⟩ := pushOne state mid n
    refine ⟨?_,?_,cp'.trans cp,deliveries'.trans deliveries⟩
    · intro i bound
      by_cases last : i = n
      · subst i
        have same := above n le_rfl
        have new : pushed state n mid ↔ pushed state n s := by
          unfold pushed
          rw [same.last]
        refine ⟨one.last,?_,?_,?_⟩
        · intro quiet
          obtain ⟨node,history⟩ := one.quiet (fun h => quiet (new.mp h))
          exact ⟨node.trans same.node,history.trans same.history⟩
        · intro changed
          rw [one.node (new.mpr changed),same.node]
        · intro changed
          rw [one.history (new.mpr changed),same.history]
      · have earlier := below i (by omega)
        have kept := others i last
        refine ⟨kept.last.trans earlier.last,?_,?_,?_⟩
        · intro quiet
          obtain ⟨node,history⟩ := earlier.quiet quiet
          exact ⟨kept.node.trans node,kept.history.trans history⟩
        · exact fun changed => kept.node.trans (earlier.node changed)
        · exact fun changed => kept.history.trans (earlier.history changed)
    · intro i bound
      have kept := others i (by omega)
      have earlier := above i (by omega)
      exact ⟨kept.node.trans earlier.node,kept.history.trans earlier.history,kept.last.trans earlier.last⟩

end Push

section Turn

def outboundScheduled (scheduled : Dict.Map Int (List ScheduledDelivery)) :
    Option OutboundPacket → Dict.Map Int (List ScheduledDelivery)
  | none => scheduled
  | some outbound => scheduleOutboundPacket scheduled outbound

def turnEvents (run : ClusterRun) (r : Int) (i : Nat) (n : Node) : List ControlPlaneEvent :=
  (run.advanced r i n).1.controlPlaneEventOutbox.map (run.forwarded r)

structure Turned (run : ClusterRun) (r : Int) (i : Nat) (s s' : Cluster) : Prop where
  node : s'.nodes i = {(run.advanced r i (s.nodes i)).1 with controlPlaneEventOutbox := []}
  history : s'.commitHistoryByNode i =
    s.commitHistoryByNode i ++ run.timedEntries r (run.advanced r i (s.nodes i)).2.newCommits
  others : ∀ j, j ≠ i → SameAt j s s'
  last : s'.lastControlPlaneUpdates = s.lastControlPlaneUpdates
  deliveries : s'.scheduledDeliveries =
    outboundScheduled s.scheduledDeliveries (run.advanced r i (s.nodes i)).2.outbound
  observed : (run.turnEvents r i (s.nodes i)).foldlM OnlineRejoinControlPlane.observeEvent
    s.controlPlane = .ok s'.controlPlane

theorem submitAll {events : List ControlPlaneEvent}
    (done : events.foldlM submitControlPlaneEvent s = .ok s') :
    events.foldlM OnlineRejoinControlPlane.observeEvent s.controlPlane = .ok s'.controlPlane ∧
    s' = {s with controlPlane := s'.controlPlane, controlPlaneEvents := s'.controlPlaneEvents} := by
  induction events generalizing s with
  | nil =>
    cases done
    exact ⟨rfl,rfl⟩
  | cons event rest ih =>
    rw [List.foldlM_cons] at done
    obtain ⟨mid,first,others⟩ := bindOk.mp done
    obtain ⟨cp,noted,same⟩ := bindOk.mp first
    cases same
    obtain ⟨seen,kept⟩ := ih others
    refine ⟨?_,kept⟩
    rw [List.foldlM_cons,noted]
    exact seen

theorem turnFacts {r : Int} (done : run.nodeTurn r s i = .ok s') : Turned run r i s s' := by
  unfold nodeTurn at done
  cases out : run.advanced r i (s.nodes i) with
  | mk node result =>
    simp only [out,Node.pullControlPlaneEvents] at done
    obtain ⟨told,submitted,rest⟩ := bindOk.mp done
    obtain ⟨seen,kept⟩ := submitAll submitted
    have shape : s' = { told with
        scheduledDeliveries := outboundScheduled told.scheduledDeliveries result.outbound } := by
      cases sent : result.outbound with
      | none =>
        simp only [sent] at rest
        exact (Except.ok.inj rest).symm
      | some outbound =>
        simp only [sent] at rest
        exact (Except.ok.inj rest).symm
    subst shape
    rw [kept]
    refine ⟨by simp [out],by simp [out],?_,rfl,by simp [out],by simpa [turnEvents,out] using seen⟩
    intro j other
    exact ⟨by simp [other],by simp [other],rfl⟩

theorem advancedBroadcast {n : Node} {r : Int} {sent : OutboundPacket}
    (member : (run.advanced r i n).2.outbound = some sent) :
    ∃ c : Node, sent = c.broadcast (run.params i) r := by
  unfold advanced at member
  rcases Node.advanceRoundCases (run.params i) (run.faulted r i n) r with
    ⟨_,same⟩ | ⟨_,_,same⟩ | ⟨_,_,same⟩
  · rw [same] at member
    cases member
  · rw [same] at member
    cases member
  · rw [same] at member
    exact ⟨_,Node.crossedBroadcast (Node.crossBoundaryFacts _ _ _) member⟩

def turning (run : ClusterRun) (i : Nat) (m : Move Point Phase) : Option Node :=
  let n := run.faulted m.before.round i (m.before.cluster.nodes i)
  if m.op = .turn i ∧ ¬ n.masked m.before.round then some n else none

theorem turningSome {n : Node} (h : n ∈ run.turning i m) :
    m.op = .turn i ∧ ¬ n.masked m.before.round ∧
      n = run.faulted m.before.round i (m.before.cluster.nodes i) := by
  unfold turning at h
  dsimp only at h
  split at h
  · rename_i own
    cases Option.some.inj h
    exact ⟨own.1,own.2,rfl⟩
  · simp at h

end Turn

end ClusterRun
end Syncons
