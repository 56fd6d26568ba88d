import Syncons.Network
import Syncons.Turns
import Syncons.Listening

/-! The nodes mirror the control plane. Between rounds and in every phase of a round
each node holds the last pushed update, applied or still in its mailbox, its run id
is not ahead of the control plane's, and a node that is down is not ACTIVE there. -/
namespace Syncons
open Dict (Map)
open Outcome Runs
open OnlineRejoinControlPlane (inState interruption Coherent Sound Listened Initial)

namespace ClusterRun

variable {run : ClusterRun} {pt pt' : Point} {s s' : Cluster} {r k i : Nat} {phase : Phase}
  {moves pre post : List (Move Point Phase)} {m : Move Point Phase}
  {state shown : ControlPlaneState} {before mid after : OnlineRejoinControlPlane}

structure Resting (R : Int) (state : ControlPlaneState) (i : Nat) (last : Option ControlPlaneUpdate)
    (n : Node) : Prop where
  standing : Standing i R state.installedConfig.runId last n
  config : n.status = .running → n.membershipState = .active → n.config = state.installedConfig
  dormant : n.status ≠ .running → ¬ inState state i .active

structure Boundary (run : ClusterRun) (R : Int) (s : Cluster) (cp : OnlineRejoinControlPlane)
    (state : ControlPlaneState) : Prop where
  ready : Ready run s.controlPlane cp
  coherent : Coherent [] cp state
  nodes : ∀ i < run.nodeCount, Resting R state i (s.lastControlPlaneUpdates i) (s.nodes i)

-- Round `r` after its control phase, with the turns of the nodes below `k` done.
structure Midround (run : ClusterRun) (r k : Nat) (shown : ControlPlaneState) (s : Cluster)
    (state : ControlPlaneState) : Prop where
  sound : Sound 10 run.timing run.nodeCount s.controlPlane
  coherent : Coherent [] s.controlPlane state
  ready : Shown r shown
  installed : state.installedConfig = shown.installedConfig
  pending : state.pendingConfig = shown.pendingConfig
  logs : state.repairLogs = shown.repairLogs
  activeOnly : ∀ i, inState state i .active → inState shown i .active
  done : ∀ i < k, Resting (r + 1) state i (s.lastControlPlaneUpdates i) (s.nodes i)
  todo : ∀ i, k ≤ i → i < run.nodeCount → Pushed r shown i (s.lastControlPlaneUpdates i) (s.nodes i)

def Mirrored (run : ClusterRun) (pt : Point) : Prop :=
  match pt.phase with
  | .control => ∃ cp state, Boundary run pt.round pt.cluster cp state
  | .turn k => k < run.nodeCount ∧ ∃ shown state, Midround run pt.round k shown pt.cluster state
  | .network => ∃ shown state, Midround run pt.round run.nodeCount shown pt.cluster state

theorem mirroredFrom (bound : k ≤ run.nodeCount) (h : Midround run r k shown s state) :
    Mirrored run ⟨r,run.turnFrom k,s⟩ := by
  unfold turnFrom
  split
  · rename_i inside
    exact ⟨inside,shown,state,h⟩
  · rename_i outside
    have last : k = run.nodeCount := by omega
    subst last
    exact ⟨shown,state,h⟩

theorem midroundInstalled (h : Midround run r k shown s state) :
    s.controlPlane.installedConfig = some shown.installedConfig := by
  rw [OnlineRejoinControlPlane.installedConfig,h.coherent.tracked.current,Option.map_some,h.installed]

section Start

theorem initialBoundary (run : ClusterRun) :
    ∃ cp state, Boundary run 0 (Cluster.init run) cp state ∧ Initial run.timing run.nodeCount cp state := by
  obtain ⟨cp,state,ready,initial⟩ :=
    OnlineRejoinControlPlane.initialMeets 10 run.timing run.nodeCount
  have sound : Sound 10 run.timing run.nodeCount cp := OnlineRejoinControlPlane.startSound ready
  refine ⟨cp,state,⟨⟨ready,sound⟩,initial.coherent,?_⟩,initial⟩
  intro i bound
  refine ⟨⟨rfl,rfl,nofun,?_,nofun,?_⟩,?_,?_⟩
  · rw [initial.installed]
    exact le_refl (0 : Int)
  · intro _ _
    change (bit run.nodeCount - 1).testBit i = true
    rw [fullBitmap]
    exact decide_eq_true bound
  · intro _ _
    rw [initial.installed]
    rfl
  · intro down
    exact absurd rfl down

end Start

section Control

variable {mid' : ControlPlaneState} {r : Int}

theorem controlShown (h : Controlled run r s before state mid mid' after shown) : Shown r shown := by
  refine ⟨?_,h.called.configured.activeBits⟩
  rw [h.called.configured.shown]
  have second := h.second
  cases second with
  | quiet early rebuilt => exact early
  | cutover pending committed due rebuilt =>
    intro future held
    rw [(OnlineRejoinControlPlane.beganPending _ _).1] at held
    simp [OnlineRejoinControlPlane.afterCutover,OnlineRejoinControlPlane.clearEpisodeState] at held

theorem controlInstalled (h : Controlled run r s before state mid mid' after shown) :
    shown.installedConfig = state.installedConfig ∨
    shown.installedConfig.runId = state.installedConfig.runId + 1 := by
  have same : mid'.installedConfig = state.installedConfig := h.first.1.installed
  rcases OnlineRejoinControlPlane.effectInstalled h.second with
    kept | ⟨_,_,future,_,pending,_,_,installed⟩
  · exact Or.inl (kept.trans same)
  · obtain ⟨_,run,_⟩ := h.advance.configured.next future pending
    rw [same] at run
    exact Or.inr (by rw [installed]; exact run)

theorem controlActive (h : Controlled run r s before state mid mid' after shown)
    (active : inState shown i .active) :
    inState state i .active ∨ state.installedConfig.runId < shown.installedConfig.runId := by
  have same : mid'.installedConfig = state.installedConfig := h.first.1.installed
  rcases OnlineRejoinControlPlane.effectActive h.second active with ⟨was,_⟩ | ⟨_,_,future,call,due,_,_⟩
  · exact Or.inl (h.first.1.activeOnly i was)
  · cases call
    have second := h.second
    rcases OnlineRejoinControlPlane.cutoverDueCases mid r with ⟨none,_⟩ | ⟨other,held,pending,committed,reached⟩
    · simp [none] at due
    · cases second with
      | quiet early rebuilt =>
        have := early other pending committed
        omega
      | @cutover future' pending' committed' due' logs rebuilt =>
        obtain ⟨_,run,_⟩ := h.advance.configured.next future' pending'
        rw [same] at run
        right
        change state.installedConfig.runId < future'.runId
        omega

theorem pushedSynced (h : Standing i r state.installedConfig.runId
    (s.lastControlPlaneUpdates i) (s.nodes i)) (ahead : state.installedConfig.runId ≤
    shown.installedConfig.runId) (one : PushedOne shown i s s') :
    Standing i r shown.installedConfig.runId (s'.lastControlPlaneUpdates i) (s'.nodes i) ∧
    (s'.nodes i).status = (s.nodes i).status ∧ (s'.nodes i).runId = (s.nodes i).runId := by
  by_cases new : pushed shown i s
  · rw [one.node new]
    refine ⟨⟨rfl,h.outbox,?_,h.behind.trans ahead,h.asleep,h.sound⟩,rfl,rfl⟩
    intro u held
    rw [one.last] at held
    exact Or.inr held
  · obtain ⟨same,_⟩ := one.quiet new
    rw [same]
    refine ⟨⟨h.wired,h.outbox,?_,h.behind.trans ahead,h.asleep,h.sound⟩,rfl,rfl⟩
    intro u held
    rw [one.last] at held
    exact h.synced u ((not_not.mp new).trans held)

end Control

theorem controlMirrored (h : Boundary run r s before state) (done : run.controlPhase r s = .ok s') :
    ∃ mid mid' shown, Controlled run r s before state mid mid' s'.controlPlane shown ∧
      s' = run.pushControlPlaneUpdates shown {s with controlPlane := s'.controlPlane} ∧
      Midround run r 0 shown s' shown := by
  obtain ⟨state',mid,mid',after,shown,controlled,shape⟩ := controlPhaseFacts h.ready done
  have same : state' = state :=
    Option.some.inj (controlled.start.tracked.current.symm.trans h.coherent.tracked.current)
  subst same
  obtain ⟨all,_,cp,_⟩ := pushAll shown {s with controlPlane := after} run.nodeCount
  have cpIs : s'.controlPlane = after := by
    rw [shape]
    exact cp
  refine ⟨mid,mid',shown,cpIs ▸ controlled,by rw [cpIs]; exact shape,?_⟩
  have ahead : state'.installedConfig.runId ≤ shown.installedConfig.runId := by
    rcases controlInstalled controlled with kept | grown
    · rw [kept]
    · omega
  refine ⟨cpIs ▸ controlled.sound,cpIs ▸ controlled.called,controlShown controlled,rfl,rfl,rfl,
    fun _ active => active,by simp,?_⟩
  intro i _ bound
  have one : PushedOne shown i {s with controlPlane := after} s' := shape ▸ all i bound
  have rest := h.nodes i bound
  have held : Standing i r state'.installedConfig.runId
      ({s with controlPlane := after}.lastControlPlaneUpdates i)
      ({s with controlPlane := after}.nodes i) := rest.standing
  obtain ⟨standing,status,runId⟩ := pushedSynced held ahead one
  refine ⟨one.last,standing,?_⟩
  intro down active
  have wasDown : (s.nodes i).status ≠ .running := fun up => down (status.trans up)
  rcases controlActive controlled active with was | newer
  · exact absurd was (rest.dormant wasDown)
  · rw [runId]
    exact rest.standing.behind.trans_lt newer

theorem controlPushed (h : Boundary run r s before state) (done : run.controlPhase r s = .ok s') :
    ∃ mid mid' shown, Controlled run r s before state mid mid' s'.controlPlane shown ∧
      Midround run r 0 shown s' shown ∧ ∀ i < run.nodeCount, PushedOne shown i s s' := by
  obtain ⟨mid,mid',shown,controlled,shape,midround⟩ := controlMirrored h done
  have one : ∀ i < run.nodeCount, PushedOne shown i {s with controlPlane := s'.controlPlane}
      (run.pushControlPlaneUpdates shown {s with controlPlane := s'.controlPlane}) :=
    (pushAll shown _ run.nodeCount).1
  rw [← shape] at one
  refine ⟨mid,mid',shown,controlled,midround,?_⟩
  intro i bound
  obtain ⟨last,quiet,node,history⟩ := one i bound
  exact ⟨last,quiet,node,history⟩

theorem turnMirrored (h : Midround run r k shown s state) (bound : k < run.nodeCount)
    (done : run.nodeTurn r s k = .ok s') :
    ∃ state', Midround run r (k + 1) shown s' state' ∧ Turned run r k s s' ∧
      Turn run r k shown (s.nodes k) (run.advanced r k (s.nodes k)).1 (run.advanced r k (s.nodes k)).2 ∧
      Listened (run.turnEvents r k (s.nodes k)) s.controlPlane state s'.controlPlane state' := by
  have turned := turnFacts done
  have pushed := h.todo k le_rfl bound
  have turn := turnCases run pushed h.ready
  have ended := turnEnded pushed turn
  have bounded : ∀ event ∈ run.turnEvents r k (s.nodes k), event.nodeId < run.nodeCount := by
    intro event member
    obtain ⟨raw,inside,rfl⟩ := List.mem_map.mp member
    have own : raw.nodeId = k := ended.own raw inside
    change raw.nodeId < run.nodeCount
    omega
  obtain ⟨state',coherent,sound,listened⟩ :=
    OnlineRejoinControlPlane.observeAll h.sound h.coherent bounded turned.observed
  refine ⟨state',⟨sound,coherent,h.ready,listened.installed.trans h.installed,
    listened.shown.trans h.pending,listened.logs.trans h.logs,?_,?_,?_⟩,turned,turn,listened⟩
  · intro i active
    exact h.activeOnly i (listened.activeOnly i active).1
  · intro i below
    by_cases last : i = k
    · subst i
      rw [turned.node,turned.last]
      refine ⟨?_,?_,?_⟩
      · rw [listened.installed,h.installed]
        exact ended.standing
      · intro up active
        rw [listened.installed,h.installed]
        exact (ended.config up active).1
      · intro down active
        obtain ⟨was,spared⟩ := listened.activeOnly k active
        obtain ⟨event,inside,kind,own⟩ := ended.dormant down (h.activeOnly k was)
        exact spared _ (List.mem_map.mpr ⟨event,inside,rfl⟩) kind own
    · have same := turned.others i last
      have rest := h.done i (by omega)
      rw [same.node,turned.last]
      refine ⟨?_,?_,?_⟩
      · rw [listened.installed]
        exact rest.standing
      · rw [listened.installed]
        exact rest.config
      · exact fun down active => rest.dormant down (listened.activeOnly i active).1
  · intro i above inside
    have same := turned.others i (by omega)
    rw [same.node,turned.last]
    exact h.todo i (by omega) inside

theorem undeliveredStanding {last : Option ControlPlaneUpdate} {bound : Int} {n n' : Node} {R : Int}
    (h : Standing i R bound last n) (same : Node.Undelivered n n') : Standing i R bound last n' := by
  refine ⟨?_,same.outbox.trans h.outbox,?_,?_,?_,?_⟩
  · rw [Node.Wired,same.irq,same.mailbox]
    exact h.wired
  · intro u held
    rw [same.mailbox,Mirrors,same.config,same.pending,same.state]
    exact h.synced u held
  · have runId : n'.runId = n.runId := congrArg InstalledConfig.runId same.config
    rw [runId]
    exact h.behind
  · rw [same.status,same.haltedRound]
    exact h.asleep
  · rw [same.status,same.state,same.sound]
    exact h.sound

theorem networkMirrored (h : Midround run r run.nodeCount shown s state) :
    Boundary run (r + 1) (run.advanceNetwork r s) s.controlPlane state := by
  refine ⟨soundReady h.sound,h.coherent,?_⟩
  intro i bound
  have same := networkUndelivered run r s i
  have rest := h.done i bound
  refine ⟨undeliveredStanding rest.standing same,?_,?_⟩
  · rw [same.status,same.state,same.config]
    exact rest.config
  · rw [same.status]
    exact rest.dormant

theorem stepMirrored (h : Mirrored run pt) (step : run.system.step pt phase pt') : Mirrored run pt' := by
  cases stepCases step with
  | control done =>
    obtain ⟨cp,state,boundary⟩ := h
    obtain ⟨_,_,shown,_,_,midround⟩ := controlMirrored boundary done
    exact mirroredFrom (Nat.zero_le _) midround
  | turn done =>
    obtain ⟨bound,shown,state,midround⟩ := h
    obtain ⟨state',next,_⟩ := turnMirrored midround bound done
    exact mirroredFrom bound next
  | network =>
    obtain ⟨shown,state,midround⟩ := h
    exact ⟨_,state,networkMirrored midround⟩

theorem ranMirrored (ran : Ran run.system moves pt) : Mirrored run pt := by
  induction ran with
  | start h =>
    cases h
    obtain ⟨cp,state,boundary,_⟩ := initialBoundary run
    exact ⟨cp,state,boundary⟩
  | move before h ih => exact stepMirrored ih h

end ClusterRun
end Syncons
