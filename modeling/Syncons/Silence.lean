import Syncons.Cutover

/-! Rounds in which the fault model holds a node down. A running node is masked; one
that is down already pulls its mailbox first, so an update that makes it ACTIVE or
shows it a new prepared config is enough for it to speak. -/
namespace Syncons
open Outcome Runs
open OnlineRejoinControlPlane (inState Coherent Sound Listened acknowledges Called PendingMove)

namespace Node

theorem ackDueNil {p : NodeParams} {held next : Option PendingConfig} :
    ackDue p held next = [] ↔ ∀ pending ∈ next, pending.status = .prepared → held = some pending := by
  unfold ackDue
  cases next with
  | none => simp
  | some pending =>
    by_cases due : pending.status = .prepared ∧ some pending ≠ held
    · simp only [if_pos due,List.cons_ne_nil,Option.mem_some_iff,forall_eq',false_iff]
      exact fun all => due.2 (all due.1).symm
    · simp only [if_neg due,Option.mem_some_iff,forall_eq',true_iff]
      intro prepared
      by_contra other
      exact due ⟨prepared,Ne.symm other⟩

def Uncalled (n : Node) : Prop :=
  n.status = .running ∨ ∀ u ∈ n.pendingControlPlaneUpdate, u.membershipState ≠ .active ∧
    ∀ pending ∈ u.pendingConfig, pending.status = .prepared → n.pendingConfig = some pending
instance (n : Node) : Decidable n.Uncalled := by unfold Uncalled; infer_instance

end Node

namespace ClusterRun

variable {run : ClusterRun} {pt : Point} {r i : Nat} {n n' : Node} {shown : ControlPlaneState}
  {last : Option ControlPlaneUpdate} {result : NodeRoundResult}
  {moves : List (Move Point Phase)} {m x : Move Point Phase}

def Silent (run : ClusterRun) (r : Int) (i : Nat) (n : Node) : Prop :=
  (run.advanced r i n).2 = ⟨none,[]⟩ ∧ ∀ event ∈ run.turnEvents r i n, event.kind ≠ .prepareAck
instance (run : ClusterRun) (r : Int) (i : Nat) (n : Node) : Decidable (run.Silent r i n) := by
  unfold Silent; infer_instance

theorem silentIff : run.Silent r i n ↔ (run.advanced r i n).2 = ⟨none,[]⟩ ∧
    ∀ event ∈ (run.advanced r i n).1.controlPlaneEventOutbox, event.kind ≠ .prepareAck := by
  unfold Silent turnEvents
  simp [forwarded]

theorem acksSilent {p : NodeParams} {held next : Option PendingConfig} :
    (∀ event ∈ Node.ackDue p held next, event.kind ≠ .prepareAck) ↔ Node.ackDue p held next = [] := by
  constructor
  · intro none
    by_contra some
    obtain ⟨event,member⟩ := List.exists_mem_of_ne_nil _ some
    exact none event member (ackOwn event member).2
  · intro nil
    simp [nil]

theorem idleSpeaks {p : NodeParams} (pushed : Pushed r shown i last n) (down : n.status ≠ .running)
    (inactive : ¬ inState shown i .active) :
    Node.ackDue p n.pendingConfig shown.pendingConfig = [] ↔ n.Uncalled := by
  rw [Node.ackDueNil]
  rcases pushed.standing.synced _ pushed.latest with ⟨empty,mirrors⟩ | full
  · have same : n.pendingConfig = shown.pendingConfig := mirrors.2.1
    rw [same]
    exact ⟨fun _ => Or.inr (by simp [empty]),fun _ _ held _ => held⟩
  · have passive : (buildControlPlaneUpdate i shown).membershipState ≠ .active :=
      fun active => inactive (builtActive.mp active)
    simp only [Node.Uncalled,down,full,Option.mem_some_iff,forall_eq',false_or,ne_eq,passive,
      not_false_eq_true,true_and]
    rfl

theorem tookSpeaks {p : NodeParams} {c : Node} (pushed : Pushed r shown i last n)
    (down : n.status ≠ .running) (active : inState shown i .active) (tuned : Tuned p shown i r n c)
    (crossed : Node.Crossed p c r n' result) : ¬ n.Uncalled ∧ result.outbound ≠ none := by
  have older := pushed.dormant down active
  have mirrored : c.config = shown.installedConfig := tuned.mirrors.1
  constructor
  · intro quiet
    rcases pushed.standing.synced _ pushed.latest with ⟨_,config,_⟩ | full
    · have same : n.runId = shown.installedConfig.runId := congrArg InstalledConfig.runId config
      omega
    · rcases quiet with up | none
      · exact down up
      · exact (none _ full).1 (builtActive.mpr active)
  · rcases tuned.stages with blank | ⟨_,config,_⟩
    · have verdict := crossed.verdict
      cases verdict with
      | skip early status sound outbox => simp
      | halt round status sound record outbox => simp [blank.previous,Node.blankStage] at round
      | commit judged status sound outbox => simp
    · have same : n.runId = shown.installedConfig.runId :=
        congrArg InstalledConfig.runId (config.symm.trans mirrored)
      omega

theorem silentUncalled (pushed : Pushed r shown i last n) (ready : Shown r shown)
    (off : run.nodeFaultModel i r = false) : run.Silent r i n ↔ n.Uncalled := by
  have turn := turnCases run pushed ready
  rw [silentIff]
  generalize run.advanced r i n = out at turn
  obtain ⟨n',result⟩ := out
  dsimp only at turn ⊢
  have spared (h : Faultless run r i n) : n.status ≠ .running := by
    rcases h with up | down
    · simp [off] at up
    · exact down
  cases turn with
  | down _ up =>
    simp [Node.Uncalled,up,crashedNode,pushed.standing.outbox]
  | idle faultless inactive tuned =>
    rw [tuned.outbox,acksSilent,idleSpeaks pushed (spared faultless) inactive]
    simp
  | took faultless active tuned crossed =>
    obtain ⟨called,spoke⟩ := tookSpeaks pushed (spared faultless) active tuned crossed
    constructor
    · rintro ⟨rfl,_⟩
      exact absurd rfl spoke
    · exact fun quiet => absurd quiet called

def AcknowledgedIn (run : ClusterRun) (j : Nat) (committed : PendingConfig) (x : Move Point Phase) : Prop :=
  x.op = .turn j ∧ ∃ prepared ∈ x.before.cluster.controlPlane.pendingFuture,
    committed = {prepared with effectiveRound := committed.effectiveRound, status := .committed} ∧
    ∃ event ∈ run.turnEvents x.before.round j (x.before.cluster.nodes j),
      event.kind = .prepareAck ∧ acknowledges event prepared

/- A node that the fault model holds down is silent, and every member of a committed
config acknowledged it in a round in which the fault model left that member up. -/
structure DownSilent (run : ClusterRun) (moves : List (Move Point Phase)) : Prop where
  silent : ∀ m ∈ moves, ∀ i, m.op = .turn i → run.nodeFaultModel i m.before.round = false →
    run.Silent m.before.round i (m.before.cluster.nodes i)
  up : ∀ pre m post, moves = pre ++ m :: post → ∀ committed, CommitsIn run committed m →
    ∀ j < run.nodeCount, committed.membersBitmap.testBit j = true →
      ∃ x ∈ pre, AcknowledgedIn run j committed x ∧ run.nodeFaultModel j x.before.round = true

def DownUncalled (run : ClusterRun) (moves : List (Move Point Phase)) : Prop :=
  ∀ m ∈ moves, ∀ i, m.op = .turn i → run.nodeFaultModel i m.before.round = false →
    (m.before.cluster.nodes i).Uncalled

section Acknowledgements

def Vouched (run : ClusterRun) (moves : List (Move Point Phase)) (cp : OnlineRejoinControlPlane) : Prop :=
  ∀ prepared ∈ cp.pendingFuture, prepared.status = .prepared → ∀ j ∈ cp.prepareAcks,
    ∃ x ∈ moves, x.op = .turn j ∧ prepared ∈ x.before.cluster.controlPlane.pendingFuture ∧
      ∃ event ∈ run.turnEvents x.before.round j (x.before.cluster.nodes j),
        event.kind = .prepareAck ∧ acknowledges event prepared

variable {before mid after : OnlineRejoinControlPlane} {state midState : ControlPlaneState}
  {s s' : Cluster} {committed : PendingConfig}

theorem controlVouched {r : Int} (h : Controlled run r s before state mid midState after shown)
    {prepared : PendingConfig} (held : after.pendingFuture = some prepared)
    (status : prepared.status = .prepared) {j : Nat} (acked : j ∈ after.prepareAcks) :
    before.pendingFuture = some prepared ∧ j ∈ before.prepareAcks := by
  have called : mid.pendingFuture = some prepared ∧ j ∈ mid.prepareAcks := by
    have second := h.second
    cases second with
    | quiet early rebuilt => exact ⟨held,acked⟩
    | cutover pending committed due rebuilt =>
      rw [(OnlineRejoinControlPlane.beganPending _ _).1] at held
      simp [OnlineRejoinControlPlane.afterCutover,OnlineRejoinControlPlane.clearEpisodeState] at held
  obtain ⟨heldMid,ackedMid⟩ := called
  obtain ⟨_,move,_⟩ := h.first
  cases move with
  | kept pending acks =>
    have old : before.pendingFuture = some prepared := pending.symm.trans heldMid
    rw [acks (by simp [old])] at ackedMid
    exact ⟨old,ackedMid⟩
  | prepared idle pending status' acks => simp [acks] at ackedMid
  | committed pending prepared' acked' planned kind due next =>
    cases Option.some.inj (next.symm.trans heldMid)
    simp [OnlineRejoinControlPlane.committedConfig] at status
  | aborted pending prepared' next => simp [next] at heldMid

theorem ranVouched (ran : Ran run.system moves pt) : Vouched run moves pt.cluster.controlPlane := by
  induction ran with
  | start h =>
    cases h
    intro prepared held
    simp [Cluster.init] at held
  | @move moves s op s' upTo h ih =>
    have mirrored := ranMirrored upTo
    have more {cp : OnlineRejoinControlPlane} (old : Vouched run moves cp) :
        Vouched run (moves ++ [⟨s,op,s'⟩]) cp := by
      intro prepared held status j acked
      obtain ⟨x,member,rest⟩ := old prepared held status j acked
      exact ⟨x,List.mem_append_left _ member,rest⟩
    cases stepCases h with
    | control done =>
      obtain ⟨cp,state,boundary⟩ := mirrored
      obtain ⟨mid,midState,shown,controlled,_⟩ := controlMirrored boundary done
      obtain ⟨pending,acks,_⟩ := ensurePending boundary.ready.1
      intro prepared held status j acked
      obtain ⟨held',acked'⟩ := controlVouched controlled held status acked
      exact more ih prepared (pending ▸ held') status j (acks ▸ acked')
    | @turn r k s s' done =>
      obtain ⟨bound,shown,state,midround⟩ := mirrored
      obtain ⟨state',_,turned,turn,listened⟩ := turnMirrored midround bound done
      have own := (turnEnded (midround.todo k le_rfl bound) turn).own
      intro prepared held status j acked
      have held' : prepared ∈ s.controlPlane.pendingFuture := listened.pending ▸ held
      rcases listened.acks j acked with old | ⟨event,inside,kind,same,pending,at',names⟩
      · exact more ih prepared held' status j old
      · cases Option.some.inj (at'.symm.trans held')
        obtain ⟨raw,member,rfl⟩ := List.mem_map.mp inside
        have mine : k = j := (own raw member).symm.trans same
        subst mine
        exact ⟨_,List.mem_append_right _ (List.mem_singleton.mpr rfl),rfl,held',_,inside,kind,names⟩
    | network => exact more ih

theorem commitVouched {pre post : List (Move Point Phase)} (ran : Ran run.system (pre ++ m :: post) pt)
    (commits : CommitsIn run committed m) {j : Nat} (bound : j < run.nodeCount)
    (member : committed.membersBitmap.testBit j = true) : ∃ x ∈ pre, AcknowledgedIn run j committed x := by
  obtain ⟨upTo,step,_⟩ := ranAt ran
  have mirrored := ranMirrored upTo
  have vouched := ranVouched upTo
  obtain ⟨control,status,new,mid,opened,called⟩ := commits
  obtain ⟨at',op,next⟩ := m
  cases control
  cases stepCases step with
  | control done =>
    obtain ⟨cp,state,boundary⟩ := mirrored
    obtain ⟨mid',midState,shown,controlled,_⟩ := controlMirrored boundary done
    cases Except.ok.inj (opened.symm.trans controlled.opened)
    obtain ⟨pending,acks,_⟩ := ensurePending boundary.ready.1
    obtain ⟨prepared,item,was,prepared',acked,_,_,shape⟩ :=
      controlCommits controlled called status (pending ▸ new)
    have inside : j ∈ cp.futureMembers prepared := by
      rw [shape] at member
      refine Finset.mem_filter.mpr ⟨Finset.mem_range.mpr ?_,member⟩
      rw [boundary.ready.2.nodeCount]
      exact bound
    obtain ⟨x,earlier,turn,held,event⟩ := vouched prepared (pending ▸ was) prepared' j (acks ▸ acked inside)
    exact ⟨x,earlier,turn,prepared,held,by rw [shape]; rfl,event⟩

end Acknowledgements

theorem downNodesSilent (ran : Ran run.system moves pt) :
    DownSilent run moves ↔ DownUncalled run moves := by
  have turns : ∀ m ∈ moves, ∀ i, m.op = .turn i → run.nodeFaultModel i m.before.round = false →
      (run.Silent m.before.round i (m.before.cluster.nodes i) ↔ (m.before.cluster.nodes i).Uncalled) := by
    intro m member i own off
    obtain ⟨pre,post,rfl⟩ := List.append_of_mem member
    obtain ⟨upTo,step,_⟩ := ranAt ran
    have mirrored := ranMirrored upTo
    obtain ⟨s,op,s'⟩ := m
    cases stepCases step with
    | control done => simp at own
    | network => simp at own
    | turn done =>
      cases own
      obtain ⟨bound,shown,state,midround⟩ := mirrored
      exact silentUncalled (midround.todo _ le_rfl bound) midround.ready off
  constructor
  · intro silent m member i own off
    exact (turns m member i own off).mp (silent.silent m member i own off)
  · intro uncalled
    have silent : ∀ m ∈ moves, ∀ i, m.op = .turn i → run.nodeFaultModel i m.before.round = false →
        run.Silent m.before.round i (m.before.cluster.nodes i) :=
      fun m member i own off => (turns m member i own off).mpr (uncalled m member i own off)
    refine ⟨silent,?_⟩
    intro pre m post split committed commits j bound member
    obtain ⟨x,earlier,acknowledged⟩ := commitVouched (split ▸ ran) commits bound member
    refine ⟨x,earlier,acknowledged,?_⟩
    by_contra off
    obtain ⟨own,_,_,_,event,inside,kind,_⟩ := acknowledged
    exact (silent x (by simp [split,earlier]) j own (by simpa using off)).2 event inside kind

-- The only node goes down in round 1 and is never up again; no action is delayed.
def downForever : ClusterRun :=
  { nodeCount := 1
    rounds := 3
    timing := ⟨1,0,0,0,0,0,0,0⟩
    payloadFactory := fun _ _ => ""
    networkFaultModel := fun packet _ => {deliverRound := some packet.roundId}
    nodeFaultModel := fun _ r => decide (r < 1)
    hash := ⟨fun _ => "",fun _ _ => ""⟩ }

def spokeDown (run : ClusterRun) (i : Nat) (m : Move Point Phase) : Prop :=
  m.op = .turn i ∧ run.nodeFaultModel i m.before.round = false ∧
  ¬ run.Silent m.before.round i (m.before.cluster.nodes i)
instance (run : ClusterRun) (i : Nat) (m : Move Point Phase) : Decidable (spokeDown run i m) := by
  unfold spokeDown; infer_instance

-- In round 2 the node that is down is rebooted by its mailbox and acknowledges.
theorem downNodeSpeaks :
    ¬ ∀ run moves pt, 0 < run.timing.roundLengthNs → Ran run.system moves pt → DownSilent run moves := by
  intro claim
  have value : (downForever.walk 3).toOption.map
      (fun result => result.1.any (fun m => spokeDown downForever 0 m)) = some true := by decide +kernel
  obtain ⟨moves,pt,ran,found⟩ := walkFound value
  have silent := claim downForever moves pt (by decide) ran
  simp only [List.any_eq_true,decide_eq_true_eq] at found
  obtain ⟨m,member,own,off,spoke⟩ := found
  exact spoke (silent.silent m member 0 own off)

-- With the default delays nothing reaches the node's mailbox in time.
def downUnasked : ClusterRun := {downForever with timing := {}}

theorem downNodesSilentOnce : ∃ moves pt, Ran downUnasked.system moves pt ∧
    moves.any (fun m => m.op = .turn 0 && !downUnasked.nodeFaultModel 0 m.before.round) = true ∧
    DownSilent downUnasked moves ∧ (DownSilent downUnasked moves ↔ DownUncalled downUnasked moves) := by
  have value : (downUnasked.walk 3).toOption.map (fun result =>
      result.1.any (fun m => m.op = .turn 0 && !downUnasked.nodeFaultModel 0 m.before.round) &&
      result.1.all (fun m => decide (m.op = .control ∨ m.op = .network ∨ m.op = .turn 0 ∧
        (downUnasked.nodeFaultModel 0 m.before.round || decide (m.before.cluster.nodes 0).Uncalled)))) =
        some true := by
    decide +kernel
  obtain ⟨moves,pt,ran,found⟩ := walkFound value
  obtain ⟨down,quiet⟩ := (Bool.and_eq_true _ _).mp found
  have uncalled : DownUncalled downUnasked moves := by
    intro m member i own off
    obtain control | network | ⟨turn,shown⟩ := of_decide_eq_true (List.all_eq_true.mp quiet m member)
    · cases own.symm.trans control
    · cases own.symm.trans network
    · cases own.symm.trans turn
      rw [off,Bool.false_or] at shown
      exact of_decide_eq_true shown
  exact ⟨moves,pt,ran,down,(downNodesSilent ran).mpr uncalled,downNodesSilent ran⟩

end ClusterRun
end Syncons
