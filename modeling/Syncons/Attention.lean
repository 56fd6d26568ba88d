import Syncons.Mirror
import Syncons.SoundSets

/-! A running node pulls every update in the round it is pushed, so a config it has to
activate by itself is one that the control plane activates in the same round. Hence a node
that goes on as an ACTIVE member under its run id keeps its pipeline. -/
namespace Syncons
open Outcome Runs
open OnlineRejoinControlPlane (inState Coherent Listened)

namespace Node

variable {p : NodeParams} {n : Node} {r : Int}

-- A configuration part that reconfigures nothing keeps the stages and the config.
theorem unreconfigured (wired : Wired n) (same : ¬ n.reconfigures r) :
    SameStages n (n.configured p r) ∧ (n.configured p r).config = n.config := by
  have quiet : Node.pendingDue {n with currentRound := r} r = none := by
    cases due : n.pendingDue r with
    | none => exact due
    | some pending => exact absurd (Or.inl (by simp [due])) same
  cases held : n.pendingControlPlaneUpdate with
  | none =>
    have idle : n.configured p r = {n with currentRound := r} := configureEmpty p held quiet
    rw [idle]
    exact ⟨⟨rfl,rfl⟩,rfl⟩
  | some u =>
    have kept : n.updateResets u = false := by
      cases resets : n.updateResets u with
      | false => rfl
      | true => exact absurd (Or.inr ⟨u,held,resets⟩) same
    have pulled := pullFull p (show Wired {n with currentRound := r} from wired) held
    have stages := pulled.kept kept
    rw [configured,configure,activateQuiet quiet]
    exact ⟨⟨stages.current,stages.previous⟩,pulled.config.trans (keepsConfig kept).1.symm⟩

theorem dueBlank {pending : PendingConfig} (wired : Wired n) (due : n.pendingDue r = some pending) :
    Blank (n.configured p r) := by
  have due' : Node.pendingDue {n with currentRound := r} r = some pending := due
  have activated := activateDue due'
  rw [configured,configure]
  generalize {n with currentRound := r}.activatePendingConfigIfDue r = m at activated
  have wired' : Wired m := by
    rw [Wired,activated.irq,activated.mailbox]
    exact wired
  cases held : m.pendingControlPlaneUpdate with
  | none =>
    rw [pullEmpty p held]
    exact activated.blank
  | some u =>
    have pulled := pullFull p wired' held
    cases resets : m.updateResets u with
    | true => exact pulled.reset resets
    | false =>
      have stages := pulled.kept resets
      have members := pulled.config.trans (keepsConfig resets).1.symm
      simp only [Node.config,InstalledConfig.mk.injEq] at members
      exact ⟨by rw [stages.current,activated.blank.current,members.1,members.2.1],
        by rw [stages.previous,activated.blank.previous,members.1,members.2.1],pulled.soundSet⟩

theorem reconfiguredBlank (wired : Wired n) (resets : n.reconfigures r) :
    Blank (n.configured p r) := by
  cases due : n.pendingDue r with
  | some pending => exact dueBlank wired due
  | none =>
    obtain other | ⟨u,held,anew⟩ := resets
    · simp [due] at other
    · have quiet : Node.pendingDue {n with currentRound := r} r = none := due
      have pulled := pullFull p (show Wired {n with currentRound := r} from wired) held
      rw [configured,configure,activateQuiet quiet]
      exact pulled.reset anew

end Node

namespace ClusterRun

variable {run : ClusterRun} {pt pt' : Point} {s s' : Cluster} {r k i : Nat} {phase : Phase}
  {moves : List (Move Point Phase)} {state shown : ControlPlaneState} {n : Node}
  {before mid after : OnlineRejoinControlPlane} {last : Option ControlPlaneUpdate}

def Attentive (state : ControlPlaneState) (i : Nat) (n : Node) : Prop :=
  n.status = .running → n.pendingControlPlaneUpdate = none ∧ n.pendingConfig = state.pendingConfig ∧
    (inState state i .active → n.membershipState = .active)

def Renewed (r : Int) (shown : ControlPlaneState) (i : Nat) (n : Node) : Prop :=
  n.status = .running → inState shown i .active → n.runId = shown.installedConfig.runId →
    n.membershipState = .active ∧ n.config = shown.installedConfig ∧ n.pendingDue r = none

def Attending (run : ClusterRun) (i : Nat) (pt : Point) : Prop :=
  match pt.phase with
  | .control => ∃ cp state, Boundary run pt.round pt.cluster cp state ∧
      Attentive state i (pt.cluster.nodes i)
  | .turn k => k < run.nodeCount ∧ ∃ shown state, Midround run pt.round k shown pt.cluster state ∧
      (i < k → Attentive state i (pt.cluster.nodes i)) ∧
      (k ≤ i → Renewed pt.round shown i (pt.cluster.nodes i))
  | .network => ∃ shown state, Midround run pt.round run.nodeCount shown pt.cluster state ∧
      Attentive state i (pt.cluster.nodes i)

-- A committed config that is due is installed by the control phase itself.
theorem controlRenewed {r : Nat} (boundary : Boundary run r s before state) (bound : i < run.nodeCount)
    {midState : ControlPlaneState} (controlled : Controlled run r s before state mid midState after shown)
    (attentive : Attentive state i (s.nodes i)) : Renewed r shown i (s.nodes i) := by
  intro up active current
  obtain ⟨_,pending,mirrors⟩ := attentive up
  have behind := (boundary.nodes i bound).standing.behind
  have kept : shown.installedConfig = state.installedConfig := by
    rcases controlInstalled controlled with kept | grown
    · exact kept
    · omega
  have state' : (s.nodes i).membershipState = .active := by
    rcases controlActive controlled active with was | newer
    · exact mirrors was
    · rw [kept] at newer
      omega
  refine ⟨state',((boundary.nodes i bound).config up state').trans kept.symm,?_⟩
  refine Node.pendingDueNone ?_
  intro future held committed
  rw [pending,controlled.start.configured.shown] at held
  have held' : before.pendingFuture = some future := held
  have still : mid.pendingFuture = some future := by
    cases controlled.first.2.1 with
    | kept same acks => exact same.trans held'
    | prepared idle next status acks => simp [idle] at held'
    | committed other prepared acked planned kind due next =>
      cases Option.some.inj (other.symm.trans held')
      exact PendingConfigStatus.noConfusion (prepared.symm.trans committed)
    | aborted other prepared next =>
      cases Option.some.inj (other.symm.trans held')
      exact PendingConfigStatus.noConfusion (prepared.symm.trans committed)
  have second := controlled.second
  cases second with
  | quiet early rebuilt => exact early future still committed
  | @cutover future' pending' committed' due' logs rebuilt =>
    obtain ⟨_,run,_⟩ := controlled.advance.configured.next future' pending'
    have same : midState.installedConfig = state.installedConfig := controlled.first.1.installed
    have installed : future'.runId = state.installedConfig.runId := congrArg InstalledConfig.runId kept
    rw [same] at run
    omega

theorem pushedRenewed {s'' : Cluster} (one : PushedOne shown i s s'')
    (renewed : Renewed r shown i (s.nodes i)) : Renewed r shown i (s''.nodes i) := by
  by_cases new : pushed shown i s
  · rw [one.node new]
    exact renewed
  · rw [(one.quiet new).1]
    exact renewed

theorem tunedAttentive {p : NodeParams} {c n' : Node} (tuned : Tuned p shown i r n c)
    (same : state.pendingConfig = shown.pendingConfig)
    (activeOnly : inState state i .active → inState shown i .active)
    (mailbox : n'.pendingControlPlaneUpdate = c.pendingControlPlaneUpdate)
    (pending : n'.pendingConfig = c.pendingConfig) (member : n'.membershipState = c.membershipState) :
    Attentive state i n' := by
  intro _
  refine ⟨mailbox.trans tuned.mailbox,(pending.trans tuned.mirrors.2.1).trans same.symm,?_⟩
  intro active
  exact (member.trans tuned.mirrors.2.2).trans (builtActive.mpr (activeOnly active))

theorem turnAttentive {n' : Node} {result : NodeRoundResult} (turn : Turn run r i shown n n' result)
    (same : state.pendingConfig = shown.pendingConfig)
    (activeOnly : inState state i .active → inState shown i .active) :
    Attentive state i {n' with controlPlaneEventOutbox := []} := by
  cases turn with
  | down off up => exact nofun
  | idle spared inactive tuned => exact tunedAttentive tuned same activeOnly rfl rfl rfl
  | took spared active tuned crossed =>
    exact tunedAttentive tuned same activeOnly crossed.mailbox crossed.pending crossed.state

theorem attendingFrom (bound : k ≤ run.nodeCount) (h : Midround run r k shown s state)
    (done : i < k → Attentive state i (s.nodes i))
    (todo : k ≤ i → Renewed r shown i (s.nodes i)) (inside : i < run.nodeCount) :
    Attending run i ⟨r,run.turnFrom k,s⟩ := by
  unfold turnFrom
  split
  · rename_i next
    exact ⟨next,shown,state,h,done,todo⟩
  · rename_i outside
    have last : k = run.nodeCount := by omega
    subst last
    exact ⟨shown,state,h,done inside⟩

theorem stepAttending (inside : i < run.nodeCount) (h : Attending run i pt)
    (step : run.system.step pt phase pt') : Attending run i pt' := by
  cases stepCases step with
  | @control r s s' done =>
    obtain ⟨cp,state,boundary,attentive⟩ := h
    obtain ⟨mid,midState,shown,controlled,midround,one⟩ := controlPushed boundary done
    have renewed := controlRenewed boundary inside controlled attentive
    exact attendingFrom (Nat.zero_le _) midround (fun below => absurd below (Nat.not_lt_zero _))
      (fun _ => pushedRenewed (one i inside) renewed) inside
  | @turn r k s s' done =>
    obtain ⟨bound,shown,state,midround,before,after⟩ := h
    obtain ⟨state',next,turned,turn,listened⟩ := turnMirrored midround bound done
    refine attendingFrom bound next ?_ ?_ inside
    · intro below
      by_cases own : i = k
      · subst own
        rw [turned.node]
        exact turnAttentive turn next.pending (next.activeOnly i)
      · rw [(turned.others i own).node]
        intro up
        obtain ⟨empty,pending,active⟩ := before (by omega) up
        exact ⟨empty,pending.trans listened.shown.symm,fun on => active (listened.activeOnly i on).1⟩
    · intro above
      rw [(turned.others i (by omega)).node]
      exact after (by omega)
  | @network r s =>
    obtain ⟨shown,state,midround,attentive⟩ := h
    refine ⟨_,state,networkMirrored midround,?_⟩
    have same := networkUndelivered run r s i
    intro up
    rw [same.mailbox,same.pending,same.state]
    exact attentive (same.status.symm.trans up)

theorem ranAttending (inside : i < run.nodeCount) (ran : Ran run.system moves pt) :
    Attending run i pt := by
  induction ran with
  | start h =>
    cases h
    obtain ⟨cp,state,boundary,initial⟩ := initialBoundary run
    refine ⟨cp,state,boundary,?_⟩
    intro _
    exact ⟨rfl,(initial.coherent.configured.shown.trans initial.pending).symm,fun _ => rfl⟩
  | move before h ih => exact stepAttending inside ih h

end ClusterRun
end Syncons
