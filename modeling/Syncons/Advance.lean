import Syncons.ControlSteps

/-! What a time advance can do. `Evolves` is what holds between the states before
and after any of its steps; `PendingMove` is the net effect of one whole advance on
the pending config, whatever batch of timed actions was due. -/
namespace Syncons
open Dict (Map)
open Outcome

namespace OnlineRejoinControlPlane

variable {cp cp' mid : OnlineRejoinControlPlane} {state state' : ControlPlaneState}
  {ready rest : List ScheduledAction} {timeNs : Int}

def touched (cp : OnlineRejoinControlPlane) (i : Nat) : Prop :=
  i ∈ cp.collectingTargets ∨ i ∈ cp.episodeTargets ∨ i ∈ cp.queuedInterruptions

def retired (cp : OnlineRejoinControlPlane) (id : Nat) : Prop :=
  id < cp.nextEpisodeId ∧ cp.activeEpisodeId ≠ some id

structure Evolves (cp : OnlineRejoinControlPlane) (state : ControlPlaneState)
    (cp' : OnlineRejoinControlPlane) (state' : ControlPlaneState) : Prop where
  setup : sameSetup cp cp'
  installed : state'.installedConfig = state.installedConfig
  activeOnly : ∀ i, inState state' i .active → inState state i .active
  applied : cp.applied <+: cp'.applied
  touched : ∀ i, cp'.touched i → cp.touched i
  retired : ∀ id, cp.retired id → cp'.retired id
  commits : ∀ item ∈ cp'.scheduled, item.action = .commitOnlineRejoin → item ∈ cp.scheduled

theorem evolvesRefl (cp : OnlineRejoinControlPlane) (state : ControlPlaneState) :
    Evolves cp state cp state :=
  ⟨⟨rfl,rfl,rfl⟩,rfl,fun _ h => h,List.prefix_rfl,fun _ h => h,fun _ h => h,fun _ h _ => h⟩

theorem evolvesTrans {midState : ControlPlaneState} (h : Evolves cp state mid midState)
    (k : Evolves mid midState cp' state') : Evolves cp state cp' state' where
  setup := ⟨k.setup.1.trans h.setup.1,k.setup.2.1.trans h.setup.2.1,k.setup.2.2.trans h.setup.2.2⟩
  installed := k.installed.trans h.installed
  activeOnly i active := h.activeOnly i (k.activeOnly i active)
  applied := h.applied.trans k.applied
  touched i some := h.touched i (k.touched i some)
  retired id old := k.retired id (h.retired id old)
  commits item member kind := h.commits item (k.commits item member kind) kind

theorem beginCollectionWindowEvolves (cp : OnlineRejoinControlPlane) (state : ControlPlaneState)
    (nowNs : Int) : Evolves cp state (cp.beginCollectionWindow nowNs) state := by
  rcases beginCollectionWindowCases cp nowNs with same | ⟨empty,quiet,some,same⟩
  · rw [same]
    exact evolvesRefl cp state
  · rw [same]
    refine ⟨⟨rfl,rfl,rfl⟩,rfl,fun _ h => h,List.prefix_rfl,?_,fun _ h => h,fun _ h _ => h⟩
    intro i member
    rcases member with c | e | q
    · exact Or.inr (Or.inr (Finmap.mem_keys.mp c))
    · exact Or.inr (Or.inl e)
    · exact absurd q Finmap.notMem_empty

theorem openEpisodeEvolves (cp : OnlineRejoinControlPlane) (state : ControlPlaneState)
    (deadline : Int) (membersBitmap : Nat) :
    Evolves cp state (cp.openEpisode deadline membersBitmap) state where
  setup := ⟨rfl,rfl,rfl⟩
  installed := rfl
  activeOnly _ h := h
  applied := List.prefix_rfl
  touched i member := by
    rcases member with c | e | q
    · simp [openEpisode] at c
    · exact Or.inl e
    · exact Or.inr (Or.inr q)
  retired id old := by
    obtain ⟨bound,_⟩ := old
    refine ⟨?_,?_⟩ <;> simp only [openEpisode,ne_eq,Option.some.injEq] <;> omega
  commits item member kind := by
    simp only [openEpisode,List.mem_append,List.mem_cons,List.not_mem_nil,or_false] at member
    rcases member with old | rfl | rfl | rfl
    · exact old
    all_goals simp at kind

theorem afterAbortEvolves (h : Coherent ready cp state) (active : cp.activeEpisodeId.isSome)
    (atNs : Int) :
    ∀ state', (cp.afterAbort state atNs).currentState = some state' →
      Evolves cp state (cp.afterAbort state atNs) state' := by
  intro state' shown
  cases Option.some.inj shown
  refine ⟨⟨rfl,rfl,rfl⟩,rfl,?_,⟨_,rfl⟩,?_,fun _ old => ⟨old.1,nofun⟩,fun item member _ => clearedScheduled member⟩
  · intro i held
    rw [inState,Dict.lookupTabulate] at held
    split at held
    · rename_i bound
      split at held
      · simp at held
      · rename_i spared
        exact activeOfNotRetry h active (List.mem_range.mp bound) spared
    · simp at held
  · intro i member
    rcases member with c | e | q
    · exact Or.inl c
    · simp [afterAbort,clearEpisodeState] at e
    · change i ∈ (Dict.sortedIds cp.retryTargets).foldl
        (fun queued i => Dict.setdefault queued i atNs) cp.queuedInterruptions at q
      rw [Dict.memFoldSetdefault,Dict.memSortedIds,retryTargets,Finset.mem_union,Finmap.mem_keys] at q
      rcases q with (target | queued) | queued
      · exact Or.inr (Or.inl target)
      · exact Or.inr (Or.inr queued)
      · exact Or.inr (Or.inr queued)

theorem applyActionEvolves {item : ScheduledAction} (h : Coherent (item :: ready) cp state)
    (effect : ActionEffect cp state item cp') (shown : cp'.currentState = some state') :
    Evolves cp state cp' state' := by
  have same : ∀ {s}, cp.currentState = some s → s = state := by
    intro s held
    exact Option.some.inj (held.symm.trans h.tracked.current)
  cases effect with
  | stale other => rw [same shown]; exact evolvesRefl cp state
  | settled own decided => rw [same shown]; exact evolvesRefl cp state
  | mark own =>
    cases Option.some.inj shown
    exact ⟨⟨rfl,rfl,rfl⟩,rfl,fun i active => activeTargets (Or.inl rfl) active,⟨_,rfl⟩,
      fun _ h => h,fun _ h => h,fun _ h _ => h⟩
  | prepare own round members =>
    cases Option.some.inj shown
    exact ⟨⟨rfl,rfl,rfl⟩,rfl,fun i active => activeTargets (Or.inr rfl) active,⟨_,rfl⟩,
      fun _ h => h,fun _ h => h,fun _ h _ => h⟩
  | commit own pending prepared acked some =>
    cases Option.some.inj shown
    exact ⟨⟨rfl,rfl,rfl⟩,rfl,fun _ h => h,⟨_,rfl⟩,fun _ h => h,fun _ h => h,fun _ h _ => h⟩
  | abort own pending prepared =>
    have active := h.episodic.pending (by simp [pending])
    have aborted := afterAbortEvolves h active item.timeNs _ rfl
    have began := beginCollectionWindowEvolves (cp.afterAbort state item.timeNs)
      ⟨state.installedConfig,
        Dict.tabulate (List.range cp.nodeCount)
          (fun i => if i ∈ cp.retryTargets then MembershipState.failed else .active),none,∅⟩
      item.timeNs
    have shape : ((cp.afterAbort state item.timeNs).beginCollectionWindow item.timeNs).currentState =
        (cp.afterAbort state item.timeNs).currentState := by
      rcases beginCollectionWindowCases (cp.afterAbort state item.timeNs) item.timeNs with
        same | ⟨_,_,_,same⟩ <;> rw [same]
    cases Option.some.inj ((shape.symm.trans shown).symm)
    exact evolvesTrans aborted began

inductive PendingMove (timeNs : Int) (cp cp' : OnlineRejoinControlPlane) : Prop where
  | kept (pending : cp'.pendingFuture = cp.pendingFuture)
      (acks : cp.pendingFuture.isSome → cp'.prepareAcks = cp.prepareAcks)
  | prepared {future : PendingConfig} (idle : cp.pendingFuture = none)
      (pending : cp'.pendingFuture = some future) (status : future.status = .prepared)
      (acks : cp'.prepareAcks = ∅)
  | committed {future : PendingConfig} {item : ScheduledAction}
      (pending : cp.pendingFuture = some future) (prepared : future.status = .prepared)
      (acked : cp.futureMembers future ⊆ cp.prepareAcks) (planned : item ∈ cp.scheduled)
      (kind : item.action = .commitOnlineRejoin) (due : item.timeNs ≤ timeNs)
      (next : cp'.pendingFuture = some (cp.committedConfig future item.timeNs))
  | aborted {future : PendingConfig} (pending : cp.pendingFuture = some future)
      (prepared : future.status = .prepared) (next : cp'.pendingFuture = none)

theorem pendingMoveThen (h : PendingMove timeNs cp mid) (pending : cp'.pendingFuture = mid.pendingFuture)
    (acks : cp'.prepareAcks = mid.prepareAcks) : PendingMove timeNs cp cp' := by
  cases h with
  | kept same keep => exact .kept (pending.trans same) (fun some => acks.trans (keep some))
  | prepared idle next status empty => exact .prepared idle (pending.trans next) status (acks.trans empty)
  | committed held prepared acked planned kind due next =>
    exact .committed held prepared acked planned kind due (pending.trans next)
  | aborted held prepared next => exact .aborted held prepared (pending.trans next)

structure Draining (timeNs : Int) (cp : OnlineRejoinControlPlane) (state : ControlPlaneState)
    (rest : List ScheduledAction) (mid : OnlineRejoinControlPlane) : Prop where
  coherent : ∃ midState, Coherent rest mid midState ∧ Evolves cp state mid midState ∧
    ∀ i log, midState.repairLogs.lookup i = some log → state.repairLogs.lookup i = some log
  move : PendingMove timeNs cp mid
  -- after an abort nothing of the batch belongs to a running episode
  gone : cp.pendingFuture.isSome → mid.pendingFuture = none → mid.activeEpisodeId = none
  planned : ∀ item ∈ rest, item ∈ cp.scheduled ∧ item.timeNs ≤ timeNs
  later : ∀ item ∈ mid.scheduled, item.action = .commitOnlineRejoin → timeNs < item.timeNs

theorem mineActive {action : Action} {item : ScheduledAction} (own : cp.mine action item) :
    item.action = action ∧ cp.activeEpisodeId.isSome := by
  simp only [mine,decide_eq_true_eq] at own
  exact ⟨own.1,own.2.1⟩

theorem prepareIdle {item : ScheduledAction} (h : Coherent (item :: ready) cp state)
    (own : cp.mine .prepareOnlineRejoin item) : cp.pendingFuture = none := by
  by_contra some
  have none := h.agenda.prepareFirst (Option.isSome_iff_ne_none.mpr some)
  exact absurd own (List.countP_eq_zero.mp none item (by simp))

theorem drainingMove {item : ScheduledAction} {midState : ControlPlaneState}
    (h : Draining timeNs cp state (item :: rest) mid) (coherent : Coherent (item :: rest) mid midState)
    (setup : sameSetup cp mid) (effect : ActionEffect mid midState item cp') :
    PendingMove timeNs cp cp' ∧
      (cp.pendingFuture.isSome → cp'.pendingFuture = none → cp'.activeEpisodeId = none) := by
  cases effect with
  | stale other => exact ⟨h.move,h.gone⟩
  | settled own decided => exact ⟨h.move,h.gone⟩
  | mark own => exact ⟨pendingMoveThen h.move rfl rfl,h.gone⟩
  | prepare own round members =>
    have idle := prepareIdle coherent own
    have fresh : cp.pendingFuture = none := by
      by_contra some
      have off := h.gone (Option.isSome_iff_ne_none.mpr some) idle
      have on := (mineActive own).2
      simp [off] at on
    exact ⟨.prepared fresh rfl rfl rfl,by simp [fresh]⟩
  | commit own pending prepared acked some =>
    obtain ⟨planned,due⟩ := h.planned item (by simp)
    refine ⟨?_,by simp [afterCommit]⟩
    cases h.move with
    | kept same keep =>
      have held := same.symm.trans pending
      have acks := keep (by simp [held])
      refine .committed held prepared ?_ planned (mineActive own).1 due ?_
      · rw [← acks]
        simpa only [futureMembers,setup.2.1] using acked
      · simp only [afterCommit,committedConfig,setup.1]
    | prepared idle next status empty => simp [empty] at some
    | committed held before _ _ _ _ next =>
      cases Option.some.inj (pending.symm.trans next)
      simp [committedConfig] at prepared
    | aborted held before next => simp [next] at pending
  | abort own pending prepared =>
    have parts : ((mid.afterAbort midState item.timeNs).beginCollectionWindow item.timeNs).pendingFuture =
        none ∧ ((mid.afterAbort midState item.timeNs).beginCollectionWindow
          item.timeNs).activeEpisodeId = none := by
      rcases beginCollectionWindowCases (mid.afterAbort midState item.timeNs) item.timeNs with
        same | ⟨_,_,_,same⟩ <;> rw [same] <;> exact ⟨rfl,rfl⟩
    refine ⟨?_,fun _ _ => parts.2⟩
    cases h.move with
    | kept same keep => exact .aborted (same.symm.trans pending) prepared parts.1
    | prepared idle next status empty =>
      exact .kept (parts.1.trans idle.symm) (by simp [idle])
    | committed held before _ _ _ _ next =>
      cases Option.some.inj (pending.symm.trans next)
      simp [committedConfig] at prepared
    | aborted held before next => simp [next] at pending

theorem actionLogs {item : ScheduledAction} (h : Coherent (item :: ready) cp state)
    (effect : ActionEffect cp state item cp') (shown : cp'.currentState = some state') (i : Nat)
    (log : RepairLog) (held : state'.repairLogs.lookup i = some log) :
    state.repairLogs.lookup i = some log := by
  cases effect with
  | stale other =>
    cases Option.some.inj (h.tracked.current.symm.trans shown)
    exact held
  | settled own decided =>
    cases Option.some.inj (h.tracked.current.symm.trans shown)
    exact held
  | mark own =>
    cases Option.some.inj shown
    exact held
  | prepare own round members =>
    cases Option.some.inj shown
    exact held
  | commit own pending prepared acked some =>
    cases Option.some.inj shown
    exact held
  | abort own pending prepared =>
    have shape : ((cp.afterAbort state item.timeNs).beginCollectionWindow item.timeNs).currentState =
        (cp.afterAbort state item.timeNs).currentState := by
      rcases beginCollectionWindowCases (cp.afterAbort state item.timeNs) item.timeNs with
        same | ⟨_,_,_,same⟩ <;> rw [same]
    cases Option.some.inj (shape.symm.trans shown)
    simp at held

theorem drainingStep {item : ScheduledAction} (h : Draining timeNs cp state (item :: rest) mid) :
    Meets (ZeroRound cp.timing) (Draining timeNs cp state rest) (mid.applyAction item) := by
  obtain ⟨midState,coherent,evolves,logs⟩ := h.coherent
  have effects := applyActionEffect coherent
  rw [evolves.setup.1] at effects
  refine meetsMono effects ?_
  intro next effect
  obtain ⟨nextState,after,_⟩ := applyActionCoherent coherent effect
  obtain ⟨move,gone⟩ := drainingMove h coherent evolves.setup effect
  have acted := applyActionEvolves coherent effect after.tracked.current
  exact ⟨⟨nextState,after,evolvesTrans evolves acted,
      fun i log held => logs i log (actionLogs coherent effect after.tracked.current i log held)⟩,move,gone,
    fun other member => h.planned other (List.mem_cons_of_mem _ member),
    fun other member kind => h.later other (acted.commits other member kind) kind⟩

-- The popped control plane and its batch, as `drain` starts on them.
def popped (cp : OnlineRejoinControlPlane) (timeNs : Int) : OnlineRejoinControlPlane :=
  {cp with scheduled := cp.scheduled.filter (fun item => timeNs < item.timeNs)}

def batch (cp : OnlineRejoinControlPlane) (timeNs : Int) : List ScheduledAction :=
  (cp.scheduled.filter (fun item => item.timeNs ≤ timeNs)).insertionSort ScheduledAction.le

theorem drainFold (cp : OnlineRejoinControlPlane) (timeNs : Int) :
    cp.drain timeNs = (cp.batch timeNs).foldlM applyAction (cp.popped timeNs) := rfl

theorem memBatch {item : ScheduledAction} (member : item ∈ cp.batch timeNs) :
    item ∈ cp.scheduled ∧ item.timeNs ≤ timeNs := by
  have inside := (List.perm_insertionSort ScheduledAction.le _).mem_iff.mp member
  simpa using inside

theorem batchPerm (cp : OnlineRejoinControlPlane) (timeNs : Int) :
    cp.scheduled.Perm (cp.batch timeNs ++ (cp.popped timeNs).scheduled) := by
  have split := (List.filter_append_perm (fun item => decide (item.timeNs ≤ timeNs)) cp.scheduled).symm
  refine split.trans (List.Perm.append (List.perm_insertionSort ScheduledAction.le _).symm ?_)
  refine List.Perm.of_eq (List.filter_congr ?_)
  intro item _
  rw [← decide_not]
  exact decide_eq_decide.mpr Int.not_le

theorem drainStart (h : Coherent [] cp state) (timeNs : Int) :
    Draining timeNs cp state (cp.batch timeNs) (cp.popped timeNs) := by
  have agenda : Agenda (cp.popped timeNs) (cp.batch timeNs ++ (cp.popped timeNs).scheduled) := by
    have whole := h.agenda.perm (batchPerm cp timeNs)
    exact ⟨whole.populated,whole.numbered,whole.prepareOnce,whole.prepareFirst,whole.commitOnce,
      whole.commitAcked⟩
  refine ⟨⟨state,⟨?_,?_,agenda,?_⟩,?_,fun _ _ held => held⟩,.kept rfl (fun _ => rfl),?_,fun item member => memBatch member,
    fun item member _ => by simpa using (List.mem_filter.mp member).2⟩
  · exact ⟨h.tracked.current,h.tracked.known,h.tracked.failed,h.tracked.rejoining,
      h.tracked.collectingBound,h.tracked.episodeBound,h.tracked.queuedBound,h.tracked.leftOut⟩
  · exact ⟨h.episodic.active,h.episodic.deadline,h.episodic.window,h.episodic.pending,
      h.episodic.prepareRound,h.episodic.members,h.episodic.fresh,
      fun item member => h.episodic.owned item (List.mem_of_mem_filter member)⟩
  · exact ⟨h.configured.shown,h.configured.lockstep,h.configured.next,h.configured.activeBits⟩
  · refine ⟨⟨rfl,rfl,rfl⟩,rfl,fun _ h => h,List.prefix_rfl,fun _ h => h,fun _ h => h,?_⟩
    intro item member _
    exact List.mem_of_mem_filter member
  · intro some none
    have same : cp.pendingFuture = Option.none := none
    simp [same] at some

/- Any part of a batch: the drain invariant holds between any two of its actions. -/
theorem drainPart (h : Draining timeNs cp state (ready ++ rest) mid) :
    Meets (ZeroRound cp.timing) (Draining timeNs cp state rest) (ready.foldlM applyAction mid) :=
  @meetsFold _ _ _ _ (fun part s => Draining timeNs cp state (part ++ rest) s) applyAction ready mid h
    (fun _ _ _ next => drainingStep next)

theorem closedCoherent (h : Coherent [] cp state) (empty : cp.collectingTargets = ∅) :
    Coherent [] {cp with collectionDeadlineNs := none} state where
  tracked := ⟨h.tracked.current,h.tracked.known,h.tracked.failed,h.tracked.rejoining,
    h.tracked.collectingBound,h.tracked.episodeBound,h.tracked.queuedBound,h.tracked.leftOut⟩
  episodic := ⟨h.episodic.active,by simp [empty],by simp,h.episodic.pending,
    h.episodic.prepareRound,h.episodic.members,h.episodic.fresh,h.episodic.owned⟩
  agenda := ⟨h.agenda.populated,h.agenda.numbered,h.agenda.prepareOnce,h.agenda.prepareFirst,
    h.agenda.commitOnce,h.agenda.commitAcked⟩
  configured := ⟨h.configured.shown,h.configured.lockstep,h.configured.next,h.configured.activeBits⟩

def Windowed (cp : OnlineRejoinControlPlane) (state : ControlPlaneState)
    (cp' : OnlineRejoinControlPlane) : Prop :=
  Coherent [] cp' state ∧ Evolves cp state cp' state ∧
  cp'.pendingFuture = cp.pendingFuture ∧ cp'.prepareAcks = cp.prepareAcks

theorem closeWindowed (h : Coherent [] cp state) (nowNs : Int) :
    Meets (ZeroRound cp.timing) (Windowed cp state) (cp.closeCollectionWindowIfDue nowNs) := by
  refine meetsMono (closeCollectionWindowCases h nowNs) ?_
  intro cp' cases
  rcases cases with rfl | ⟨empty,rfl⟩ | ⟨deadline,bitmap,due,_,some,members,rfl⟩
  · exact ⟨h,evolvesRefl cp' state,rfl,rfl⟩
  · exact ⟨closedCoherent h empty,
      ⟨⟨rfl,rfl,rfl⟩,rfl,fun _ h => h,List.prefix_rfl,fun _ h => h,fun _ h => h,fun _ h _ => h⟩,rfl,rfl⟩
  · exact ⟨openEpisodeCoherent h due some members,openEpisodeEvolves cp state deadline bitmap,rfl,rfl⟩

theorem beginWindowed (h : Coherent [] cp state) (nowNs : Int) :
    Windowed cp state (cp.beginCollectionWindow nowNs) := by
  refine ⟨beginCollectionWindowCoherent h nowNs,beginCollectionWindowEvolves cp state nowNs,?_⟩
  rcases beginCollectionWindowCases cp nowNs with same | ⟨_,_,_,same⟩ <;> rw [same] <;> exact ⟨rfl,rfl⟩

theorem windowMeets (h : Coherent [] cp state) (nowNs : Int) :
    Meets (ZeroRound cp.timing) (Windowed cp state)
      ((cp.beginCollectionWindow nowNs).closeCollectionWindowIfDue nowNs) := by
  obtain ⟨coherent,began,pending,acks⟩ := beginWindowed h nowNs
  have close := closeWindowed coherent nowNs
  rw [began.setup.1] at close
  refine meetsMono close ?_
  rintro cp' ⟨closed,evolved,samePending,sameAcks⟩
  exact ⟨closed,evolvesTrans began evolved,samePending.trans pending,sameAcks.trans acks⟩

theorem pendingMoveAfter (before : Windowed cp state mid) (h : PendingMove timeNs mid cp') :
    PendingMove timeNs cp cp' := by
  obtain ⟨_,evolved,pending,acks⟩ := before
  cases h with
  | kept same keep =>
    refine .kept (same.trans pending) ?_
    intro some
    exact (keep (by rw [pending]; exact some)).trans acks
  | prepared idle next status empty => exact .prepared (pending.symm.trans idle) next status empty
  | @committed future item held prepared acked planned kind due next =>
    refine .committed (pending.symm.trans held) prepared ?_ (evolved.commits item planned kind) kind due ?_
    · rw [← acks]
      simpa only [futureMembers,evolved.setup.2.1] using acked
    · rw [next]
      simp only [committedConfig,evolved.setup.1]
  | aborted held prepared next => exact .aborted (pending.symm.trans held) prepared next

structure Advanced (snapshots : List RepairSnapshot) (timeNs : Int) (cp : OnlineRejoinControlPlane)
    (state : ControlPlaneState) (cp' : OnlineRejoinControlPlane) : Prop where
  coherent : ∃ state', Coherent [] cp' state' ∧ Evolves cp state cp' state' ∧
    LogsFrom snapshots state.repairLogs state'.repairLogs
  move : PendingMove timeNs cp cp'
  later : ∀ item ∈ cp'.scheduled, item.action = .commitOnlineRejoin → timeNs < item.timeNs

theorem advanceMeets (h : Coherent [] cp state) (snapshots : List RepairSnapshot) (timeNs : Int)
    (nodeCount : Nat) :
    Meets (ZeroRound cp.timing) (Advanced snapshots timeNs cp state)
      (cp.advanceToTime snapshots timeNs nodeCount) := by
  rw [advanceToTime,ensureStateKeeps h.tracked,okBind,meetsBind]
  refine meetsMono (windowMeets h timeNs) ?_
  intro opened first
  have drained : Meets (ZeroRound opened.timing) (Draining timeNs opened state [])
      ((opened.batch timeNs).foldlM applyAction (opened.popped timeNs)) :=
    drainPart (by simpa using drainStart first.1 timeNs)
  rw [meetsBind,drainFold]
  rw [first.2.1.setup.1] at drained
  refine meetsMono drained ?_
  intro mid done
  obtain ⟨midState,coherent,evolved,held⟩ := done.coherent
  have moved := pendingMoveAfter first done.move
  have second := windowMeets coherent timeNs
  rw [evolved.setup.1,first.2.1.setup.1] at second
  rw [meetsBind]
  refine meetsMono second ?_
  rintro last ⟨closed,reopened,pending,acks⟩
  obtain ⟨logs,rebuilt,source⟩ := rebuildRepairLogsCases closed.tracked snapshots
  rw [rebuilt,meetsOk]
  have logged : Evolves last midState {last with currentState := some {midState with repairLogs := logs}}
      {midState with repairLogs := logs} :=
    ⟨⟨rfl,rfl,rfl⟩,rfl,fun _ h => h,List.prefix_rfl,fun _ h => h,fun _ h => h,fun _ h _ => h⟩
  have whole := evolvesTrans (evolvesTrans first.2.1 evolved) (evolvesTrans reopened logged)
  have from' : LogsFrom snapshots state.repairLogs logs := by
    intro i log found
    exact (source.source i log found).imp id (fun old => ⟨old.1,held i log old.2⟩)
  exact ⟨⟨_,repairLogsCoherent closed logs,whole,from'⟩,pendingMoveThen moved pending acks,
    fun item member kind => done.later item (reopened.commits item member kind) kind⟩

end OnlineRejoinControlPlane
end Syncons
