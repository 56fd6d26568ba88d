import Syncons.ControlPlane
import Syncons.Bitmap

/-! Bookkeeping of recovery episodes. `Coherent` relates the six pieces of episode
state to the node states and to the timed actions still to be applied; every
control-plane method keeps it, and under it no method raises except for a
division by a zero round length. -/
namespace Syncons
open Dict (Map)
open Outcome

namespace OnlineRejoinControlPlane

variable {cp : OnlineRejoinControlPlane} {state : ControlPlaneState}
  {ready agenda : List ScheduledAction}

def mine (cp : OnlineRejoinControlPlane) (action : Action) (item : ScheduledAction) : Bool :=
  item.action = action ∧ cp.activeEpisodeId.isSome ∧ item.episodeId = cp.activeEpisodeId

structure Tracked (cp : OnlineRejoinControlPlane) (state : ControlPlaneState) : Prop where
  current : cp.currentState = some state
  known : ∀ i, (state.nodeStates.lookup i).isSome ↔ i < cp.nodeCount
  failed : ∀ i, inState state i .failed →
    i ∈ cp.collectingTargets ∨ i ∈ cp.episodeTargets ∨ i ∈ cp.queuedInterruptions
  rejoining : ∀ i s, inState state i s → s = .recovering ∨ s = .rejoinPending →
    i ∈ cp.episodeTargets
  collectingBound : ∀ i ∈ cp.collectingTargets, i < cp.nodeCount
  episodeBound : ∀ i ∈ cp.episodeTargets, i < cp.nodeCount
  queuedBound : ∀ i ∈ cp.queuedInterruptions, i < cp.nodeCount
  -- a node left out of the future membership is waiting for the next episode
  leftOut : ∀ bitmap ∈ cp.episodeMembersBitmap, ∀ i, i < cp.nodeCount →
    bitmap.testBit i = false → i ∈ cp.queuedInterruptions

structure Episodic (cp : OnlineRejoinControlPlane) : Prop where
  active : cp.activeEpisodeId.isSome ↔ cp.episodeTargets.Nonempty
  deadline : cp.collectingTargets.Nonempty → cp.collectionDeadlineNs.isSome
  window : cp.collectionDeadlineNs.isSome → cp.activeEpisodeId = none
  pending : cp.pendingFuture.isSome → cp.activeEpisodeId.isSome
  prepareRound : cp.activeEpisodeId.isSome → cp.prepareRound.isSome
  members : cp.activeEpisodeId.isSome ↔ cp.episodeMembersBitmap.isSome
  fresh : ∀ id ∈ cp.activeEpisodeId, id < cp.nextEpisodeId
  owned : ∀ item ∈ cp.scheduled, item.episodeId = cp.activeEpisodeId

structure Agenda (cp : OnlineRejoinControlPlane) (agenda : List ScheduledAction) : Prop where
  populated : ∀ item ∈ agenda, 0 < cp.nodeCount
  numbered : ∀ item ∈ agenda, ∃ id < cp.nextEpisodeId, item.episodeId = some id
  prepareOnce : agenda.countP (cp.mine .prepareOnlineRejoin) ≤ 1
  prepareFirst : cp.pendingFuture.isSome → agenda.countP (cp.mine .prepareOnlineRejoin) = 0
  commitOnce : agenda.countP (cp.mine .commitOnlineRejoin) ≤ 1
  commitAcked : ∀ item ∈ agenda, cp.mine .commitOnlineRejoin item →
    ∃ pending ∈ cp.pendingFuture, pending.status = .prepared ∧
      cp.futureMembers pending ⊆ cp.prepareAcks ∧ cp.prepareAcks.Nonempty

structure Configured (cp : OnlineRejoinControlPlane) (state : ControlPlaneState) : Prop where
  shown : state.pendingConfig = cp.pendingFuture
  lockstep : state.installedConfig.membershipEpoch = state.installedConfig.runId
  next : ∀ pending ∈ cp.pendingFuture,
    pending.membershipEpoch = state.installedConfig.membershipEpoch + 1 ∧
    pending.runId = state.installedConfig.runId + 1 ∧
    cp.episodeMembersBitmap = some pending.membersBitmap
  activeBits : ∀ i, inState state i .active → state.installedConfig.membersBitmap.testBit i = true

structure Coherent (ready : List ScheduledAction) (cp : OnlineRejoinControlPlane)
    (state : ControlPlaneState) : Prop where
  tracked : Tracked cp state
  episodic : Episodic cp
  agenda : Agenda cp (ready ++ cp.scheduled)
  configured : Configured cp state

-- What no method changes once the first call has set the node count.
def sameSetup (cp cp' : OnlineRejoinControlPlane) : Prop :=
  cp'.timing = cp.timing ∧ cp'.nodeCount = cp.nodeCount ∧
  cp'.cutoverSlackRounds = cp.cutoverSlackRounds

-- The one error left: `// round_length_ns` with a zero round length.
def ZeroRound (timing : SimulationTiming) (e : PyError) : Prop :=
  e = .zeroDivisionError ∧ timing.roundLengthNs = 0

theorem floorDivMeets {timing : SimulationTiming} {a : Int} :
    Meets (ZeroRound timing) (fun q => q = a.fdiv timing.roundLengthNs)
      (floorDiv a timing.roundLengthNs) := by
  unfold floorDiv
  split
  · rename_i zero
    exact ⟨rfl,zero⟩
  · rfl

theorem Agenda.perm {other : List ScheduledAction} (h : Agenda cp agenda) (p : agenda.Perm other) :
    Agenda cp other where
  populated item member := h.populated item (p.mem_iff.mpr member)
  numbered item member := h.numbered item (p.mem_iff.mpr member)
  prepareOnce := p.countP_eq _ ▸ h.prepareOnce
  prepareFirst pending := p.countP_eq _ ▸ h.prepareFirst pending
  commitOnce := p.countP_eq _ ▸ h.commitOnce
  commitAcked item member := h.commitAcked item (p.mem_iff.mpr member)

theorem Agenda.idle (none : cp.activeEpisodeId = none)
    (populated : ∀ item ∈ agenda, 0 < cp.nodeCount)
    (numbered : ∀ item ∈ agenda, ∃ id < cp.nextEpisodeId, item.episodeId = some id) :
    Agenda cp agenda := by
  have nothing : ∀ action, agenda.countP (cp.mine action) = 0 := by
    intro action
    rw [List.countP_eq_zero]
    simp [mine,none]
  refine ⟨populated,numbered,?_,?_,?_,?_⟩
  · rw [nothing]; omega
  · intro _; exact nothing _
  · rw [nothing]; omega
  · intro item _ own
    simp [mine,none] at own

theorem idleOfPending (h : Episodic cp) (idle : cp.activeEpisodeId = none) :
    cp.pendingFuture = none ∧ cp.episodeTargets = ∅ := by
  constructor
  · cases held : cp.pendingFuture with
    | none => rfl
    | some p =>
      have running := h.pending (by simp [held])
      simp [idle] at running
  · rw [← Finset.not_nonempty_iff_eq_empty,← h.active,idle]
    simp

theorem clearedOwned (owned : ∀ item ∈ cp.scheduled, item.episodeId = cp.activeEpisodeId) :
    ∀ item ∈ cp.clearEpisodeState.scheduled, item.episodeId = none := by
  intro item member
  unfold clearEpisodeState at member
  cases running : cp.activeEpisodeId with
  | none =>
    simp only [running] at member
    exact (owned item member).trans running
  | some id =>
    simp only [running] at member
    have own := (owned item (List.mem_of_mem_filter member)).trans running
    simp [own] at member

theorem notEpisodeActive (h : Episodic cp) : ¬ cp.episodeActive ↔ cp.activeEpisodeId = none := by
  constructor
  · intro quiet
    cases running : cp.activeEpisodeId with
    | none => rfl
    | some id => exact absurd (Or.inr (Or.inr (by simp [running]))) quiet
  · intro idle
    have rest := idleOfPending h idle
    simp [episodeActive,idle,rest.1,rest.2]

section Window

theorem beginCollectionWindowCases (cp : OnlineRejoinControlPlane) (nowNs : Int) :
    cp.beginCollectionWindow nowNs = cp ∨
    cp.collectingTargets = ∅ ∧ ¬ cp.episodeActive ∧ cp.queuedInterruptions.keys.Nonempty ∧
      cp.beginCollectionWindow nowNs =
        { cp with
          collectingTargets := cp.queuedInterruptions.keys
          queuedInterruptions := ∅
          collectionDeadlineNs := some (nowNs + cp.timing.cpCollectionDelayNs) } := by
  unfold beginCollectionWindow
  split
  · exact Or.inl rfl
  · rename_i quiet
    rw [not_or,Finset.not_nonempty_iff_eq_empty] at quiet
    split
    · exact Or.inl rfl
    · rename_i some
      exact Or.inr ⟨quiet.1,quiet.2,Finset.nonempty_iff_ne_empty.mpr some,rfl⟩

theorem beginCollectionWindowCoherent (h : Coherent ready cp state) (nowNs : Int) :
    Coherent ready (cp.beginCollectionWindow nowNs) state := by
  rcases beginCollectionWindowCases cp nowNs with same | ⟨empty,quiet,some,same⟩
  · rw [same]; exact h
  · rw [same]
    have idle := (notEpisodeActive h.episodic).mp quiet
    refine ⟨?_,?_,?_,?_⟩
    · refine ⟨h.tracked.current,h.tracked.known,?_,h.tracked.rejoining,?_,h.tracked.episodeBound,?_,?_⟩
      · intro i failed
        rcases h.tracked.failed i failed with c | e | q
        · simp [empty] at c
        · exact Or.inr (Or.inl e)
        · exact Or.inl (Finmap.mem_keys.mpr q)
      · intro i member
        exact h.tracked.queuedBound i (Finmap.mem_keys.mp member)
      · intro i member
        exact absurd member Finmap.notMem_empty
      · intro bitmap held
        have running := h.episodic.members.mpr (Option.isSome_of_mem held)
        simp [idle] at running
    · exact ⟨h.episodic.active,fun _ => rfl,fun _ => idle,h.episodic.pending,
        h.episodic.prepareRound,h.episodic.members,h.episodic.fresh,h.episodic.owned⟩
    · exact ⟨h.agenda.populated,h.agenda.numbered,h.agenda.prepareOnce,h.agenda.prepareFirst,
        h.agenda.commitOnce,h.agenda.commitAcked⟩
    · exact ⟨h.configured.shown,h.configured.lockstep,h.configured.next,h.configured.activeBits⟩

def openEpisode (cp : OnlineRejoinControlPlane) (deadline : Int) (membersBitmap : Nat) :
    OnlineRejoinControlPlane :=
  let episode := some cp.nextEpisodeId
  let repairStart := deadline + cp.timing.cpDecisionDelayNs
  let prepareAt := repairStart + cp.timing.repairDelayNs
  { cp with
    activeEpisodeId := episode
    nextEpisodeId := cp.nextEpisodeId + 1
    episodeTargets := cp.collectingTargets
    collectingTargets := ∅
    collectionDeadlineNs := none
    episodeMembersBitmap := some membersBitmap
    prepareRound := some (prepareAt.fdiv cp.timing.roundLengthNs + 1)
    scheduled := cp.scheduled ++
      [⟨repairStart,.markRecovering,episode⟩,⟨prepareAt,.prepareOnlineRejoin,episode⟩,
        ⟨prepareAt + cp.timing.installDelayNs,.abortOnlineRejoin,episode⟩] }

theorem closeCollectionWindowCases (h : Coherent ready cp state) (nowNs : Int) :
    Meets (ZeroRound cp.timing)
      (fun cp' =>
        cp' = cp ∨
        cp.collectingTargets = ∅ ∧ cp' = {cp with collectionDeadlineNs := none} ∨
        ∃ deadline membersBitmap, cp.collectionDeadlineNs = some deadline ∧ deadline ≤ nowNs ∧
          cp.collectingTargets.Nonempty ∧
          (∀ i, membersBitmap.testBit i = true ↔
            inState state i .active ∨ i ∈ cp.collectingTargets) ∧
          cp' = cp.openEpisode deadline membersBitmap)
      (cp.closeCollectionWindowIfDue nowNs) := by
  unfold closeCollectionWindowIfDue
  split
  · exact Or.inl rfl
  · rename_i deadline due
    split
    · exact Or.inl rfl
    · rename_i late
      split
      · rename_i empty
        exact Or.inr (Or.inl ⟨empty,rfl⟩)
      · rename_i some
        have member : ∀ i, i ∈ Dict.sortedIds
            (episodeMembers {cp with episodeTargets := cp.collectingTargets} state) ↔
            inState state i .active ∨ i ∈ cp.collectingTargets := by
          intro i
          simp only [Dict.memSortedIds,episodeMembers,Finset.mem_union,Finset.mem_filter,
            Finmap.mem_keys]
          constructor
          · rintro (⟨_,active⟩ | target)
            · exact Or.inl active
            · exact Or.inr target
          · rintro (active | target)
            · exact Or.inl ⟨Finmap.mem_of_lookup_eq_some active,active⟩
            · exact Or.inr target
        have bound : ∀ i ∈ Dict.sortedIds
            (episodeMembers {cp with episodeTargets := cp.collectingTargets} state), i < cp.nodeCount := by
          intro i inside
          rcases (member i).mp inside with active | target
          · exact (h.tracked.known i).mp (by rw [active]; rfl)
          · exact h.tracked.collectingBound i target
        simp only [scheduleEpisode,require,h.tracked.current,due,meetsBind,meetsOk]
        refine meetsMono (bitmapSetMeets bound) ?_
        intro bitmap exact
        refine meetsMono floorDivMeets ?_
        rintro q rfl
        refine Or.inr (Or.inr ⟨deadline,bitmap,rfl,by omega,Finset.nonempty_iff_ne_empty.mpr some,
          fun i => (exact i).trans (member i),?_⟩)
        simp [openEpisode,scheduleAction,h.tracked.current]

theorem openEpisodeCoherent (h : Coherent [] cp state) {deadline : Int} {membersBitmap : Nat}
    (due : cp.collectionDeadlineNs = some deadline) (some : cp.collectingTargets.Nonempty)
    (members : ∀ i, membersBitmap.testBit i = true ↔
      inState state i .active ∨ i ∈ cp.collectingTargets) :
    Coherent [] (cp.openEpisode deadline membersBitmap) state := by
  have idle := h.episodic.window (by simp [due])
  have rest := idleOfPending h.episodic idle
  have populated : 0 < cp.nodeCount := by
    obtain ⟨i,member⟩ := some
    have := h.tracked.collectingBound i member
    omega
  have old : ∀ action, cp.scheduled.countP ((cp.openEpisode deadline membersBitmap).mine action) = 0 := by
    intro action
    rw [List.countP_eq_zero]
    intro item member own
    obtain ⟨id,bound,same⟩ := h.agenda.numbered item (by simpa using member)
    simp only [mine,openEpisode,same,decide_eq_true_eq,Option.some.injEq] at own
    omega
  refine ⟨?_,?_,?_,?_⟩
  · refine ⟨h.tracked.current,h.tracked.known,?_,?_,?_,h.tracked.collectingBound,
      h.tracked.queuedBound,?_⟩
    · intro i failed
      rcases h.tracked.failed i failed with c | e | q
      · exact Or.inr (Or.inl c)
      · simp [rest.2] at e
      · exact Or.inr (Or.inr q)
    · intro i s held kind
      have gone := h.tracked.rejoining i s held kind
      simp [rest.2] at gone
    · intro i member
      simp [openEpisode] at member
    · intro bitmap held i bound out
      cases Option.some.inj held
      have neither : ¬ (inState state i .active ∨ i ∈ cp.collectingTargets) := by
        rw [← members i,out]
        simp
      obtain ⟨s,known⟩ := Option.isSome_iff_exists.mp ((h.tracked.known i).mpr bound)
      cases s with
      | active => exact absurd (Or.inl known) neither
      | failed =>
        rcases h.tracked.failed i known with c | e | q
        · exact absurd (Or.inr c) neither
        · simp [rest.2] at e
        · exact q
      | recovering =>
        have gone := h.tracked.rejoining i _ known (Or.inl rfl)
        simp [rest.2] at gone
      | rejoinPending =>
        have gone := h.tracked.rejoining i _ known (Or.inr rfl)
        simp [rest.2] at gone
  · refine ⟨?_,?_,?_,?_,?_,?_,?_,?_⟩
    case refine_8 =>
      intro item member
      simp only [openEpisode,List.mem_append,List.mem_cons,List.not_mem_nil,or_false] at member
      rcases member with inside | rfl | rfl | rfl
      · obtain ⟨id,_,numbered⟩ := h.agenda.numbered item (by simpa using inside)
        have free := h.episodic.owned item inside
        simp [numbered,idle] at free
      all_goals rfl
    all_goals simp [openEpisode,some,rest.1]
  · refine ⟨fun _ _ => populated,?_,?_,?_,?_,?_⟩
    · intro item member
      simp only [openEpisode,List.nil_append,List.mem_append,List.mem_cons,List.not_mem_nil,
        or_false] at member
      rcases member with inside | rfl | rfl | rfl
      · obtain ⟨id,bound,same⟩ := h.agenda.numbered item (by simpa using inside)
        exact ⟨id,by simp [openEpisode]; omega,same⟩
      all_goals exact ⟨cp.nextEpisodeId,by simp [openEpisode],rfl⟩
    · change List.countP _ ([] ++ (cp.scheduled ++ _)) ≤ 1
      rw [List.nil_append,List.countP_append,old]
      simp [mine,openEpisode]
    · intro pending
      simp [openEpisode,rest.1] at pending
    · change List.countP _ ([] ++ (cp.scheduled ++ _)) ≤ 1
      rw [List.nil_append,List.countP_append,old]
      simp [mine,openEpisode]
    · intro item member own
      have none : ([] ++ (cp.openEpisode deadline membersBitmap).scheduled).countP
          ((cp.openEpisode deadline membersBitmap).mine .commitOnlineRejoin) = 0 := by
        change List.countP _ ([] ++ (cp.scheduled ++ _)) = 0
        rw [List.nil_append,List.countP_append,old]
        simp [mine,openEpisode]
      exact absurd own (by simpa using List.countP_eq_zero.mp none item member)
  · refine ⟨h.configured.shown,h.configured.lockstep,?_,h.configured.activeBits⟩
    intro pending held
    simp [openEpisode,rest.1] at held

end Window

section Actions

def afterMark (cp : OnlineRejoinControlPlane) (state : ControlPlaneState) (atNs : Int) :
    OnlineRejoinControlPlane :=
  { cp with
    currentState := some {state with nodeStates := cp.nodeStatesWithTargets state .recovering}
    applied := cp.applied ++
      [⟨atNs,.scheduled .markRecovering,Dict.sortedIds cp.episodeTargets,none,none⟩] }

def preparedConfig (cp : OnlineRejoinControlPlane) (state : ControlPlaneState)
    (prepareRound : Int) (membersBitmap : Nat) : PendingConfig :=
  ⟨state.installedConfig.membershipEpoch + 1,membersBitmap,prepareRound + cp.cutoverSlackRounds,
    state.installedConfig.runId + 1,.prepared⟩

def afterPrepare (cp : OnlineRejoinControlPlane) (state : ControlPlaneState) (atNs : Int)
    (pending : PendingConfig) : OnlineRejoinControlPlane :=
  { cp with
    prepareAcks := ∅
    pendingFuture := some pending
    currentState := some
      { state with
        nodeStates := cp.nodeStatesWithTargets state .rejoinPending
        pendingConfig := some pending }
    applied := cp.applied ++
      [⟨atNs,.scheduled .prepareOnlineRejoin,Dict.sortedIds cp.episodeTargets,
        some pending.membersBitmap,some pending.effectiveRound⟩] }

def committedConfig (cp : OnlineRejoinControlPlane) (future : PendingConfig) (atNs : Int) :
    PendingConfig :=
  { future with
    effectiveRound := max future.effectiveRound (atNs.fdiv cp.timing.roundLengthNs + 1 + 1)
    status := .committed }

def afterCommit (cp : OnlineRejoinControlPlane) (state : ControlPlaneState) (atNs : Int)
    (committed : PendingConfig) : OnlineRejoinControlPlane :=
  { cp with
    pendingFuture := some committed
    currentState := some {state with pendingConfig := some committed}
    applied := cp.applied ++
      [⟨atNs,.scheduled .commitOnlineRejoin,Dict.sortedIds cp.episodeTargets,none,
        some committed.effectiveRound⟩] }

def retryTargets (cp : OnlineRejoinControlPlane) : Finset Nat :=
  cp.episodeTargets ∪ cp.queuedInterruptions.keys

def afterAbort (cp : OnlineRejoinControlPlane) (state : ControlPlaneState) (atNs : Int) :
    OnlineRejoinControlPlane :=
  clearEpisodeState
    { cp with
      currentState := some
        ⟨state.installedConfig,
          Dict.tabulate (List.range cp.nodeCount)
            (fun i => if i ∈ cp.retryTargets then MembershipState.failed else .active),none,∅⟩
      applied := cp.applied ++
        [⟨atNs,.scheduled .abortOnlineRejoin,Dict.sortedIds cp.episodeTargets,none,none⟩]
      queuedInterruptions := (Dict.sortedIds cp.retryTargets).foldl
        (fun queued i => Dict.setdefault queued i atNs) cp.queuedInterruptions
      pendingFuture := none }

inductive ActionEffect (cp : OnlineRejoinControlPlane) (state : ControlPlaneState)
    (item : ScheduledAction) : OnlineRejoinControlPlane → Prop where
  | stale (other : item.episodeId ≠ cp.activeEpisodeId) : ActionEffect cp state item cp
  | mark (own : cp.mine .markRecovering item) :
      ActionEffect cp state item (cp.afterMark state item.timeNs)
  | prepare (own : cp.mine .prepareOnlineRejoin item) {prepareRound membersBitmap}
      (round : cp.prepareRound = some prepareRound)
      (members : cp.episodeMembersBitmap = some membersBitmap) :
      ActionEffect cp state item
        (cp.afterPrepare state item.timeNs (cp.preparedConfig state prepareRound membersBitmap))
  | commit (own : cp.mine .commitOnlineRejoin item) {future}
      (pending : cp.pendingFuture = some future) (prepared : future.status = .prepared)
      (acked : cp.futureMembers future ⊆ cp.prepareAcks) (some : cp.prepareAcks.Nonempty) :
      ActionEffect cp state item
        (cp.afterCommit state item.timeNs (cp.committedConfig future item.timeNs))
  | settled (own : cp.mine .abortOnlineRejoin item)
      (decided : ∀ future ∈ cp.pendingFuture, future.status ≠ .prepared) :
      ActionEffect cp state item cp
  | abort (own : cp.mine .abortOnlineRejoin item) {future}
      (pending : cp.pendingFuture = some future) (prepared : future.status = .prepared) :
      ActionEffect cp state item ((cp.afterAbort state item.timeNs).beginCollectionWindow item.timeNs)

theorem applyActionEffect {item : ScheduledAction} (h : Coherent (item :: ready) cp state) :
    Meets (ZeroRound cp.timing) (ActionEffect cp state item) (cp.applyAction item) := by
  have populated := h.agenda.populated item (by simp)
  obtain ⟨id,_,numbered⟩ := h.agenda.numbered item (by simp)
  simp only [applyAction,require,h.tracked.current,assertThat,gt_iff_lt,populated,if_true,meetsBind,meetsOk]
  split
  · rename_i other
    exact .stale other.2
  · rename_i current
    have active : cp.activeEpisodeId = some id := by
      by_contra different
      exact current ⟨by simp [numbered],fun same => different (by rw [← same,numbered])⟩
    have own : ∀ action, item.action = action → cp.mine action item = true := by
      intro action same
      simp [mine,same,active,numbered]
    have targets : cp.episodeTargets.Nonempty := h.episodic.active.mp (by simp [active])
    cases kind : item.action with
    | markRecovering =>
      simp only [applyMarkRecovering,require,h.tracked.current,assertThat,targets,if_true,
        updateNodeStates,meetsBind,meetsOk]
      exact .mark (own _ kind)
    | prepareOnlineRejoin =>
      obtain ⟨r,round⟩ := Option.isSome_iff_exists.mp (h.episodic.prepareRound (by simp [active]))
      obtain ⟨b,members⟩ := Option.isSome_iff_exists.mp (h.episodic.members.mp (by simp [active]))
      have shape : ActionEffect cp state item
          (cp.afterPrepare state item.timeNs (cp.preparedConfig state r b)) :=
        .prepare (own _ kind) round members
      simp only [applyPrepare,require,h.tracked.current,round,members,installPendingFuture,
        updateNodeStates,meetsBind,meetsOk]
      simpa [afterPrepare,preparedConfig,nodeStatesWithTargets,recordAppliedAction,round,members]
        using shape
    | commitOnlineRejoin =>
      obtain ⟨future,held,prepared,acked,some⟩ := h.agenda.commitAcked item (by simp) (own _ kind)
      have pending : cp.pendingFuture = .some future := held
      have shape : ActionEffect cp state item
          (cp.afterCommit state item.timeNs (cp.committedConfig future item.timeNs)) :=
        .commit (own _ kind) pending prepared acked some
      change Meets _ _ (cp.applyCommit item.timeNs)
      unfold applyCommit
      split
      · rename_i none
        simp [none] at pending
      · rename_i other some
        cases Option.some.inj (pending.symm.trans some)
        simp only [require,h.tracked.current,installPendingFuture,meetsBind,meetsOk]
        refine meetsMono floorDivMeets ?_
        rintro q rfl
        exact shape
    | abortOnlineRejoin =>
      simp only [applyAbort,require,h.tracked.current,meetsBind,meetsOk]
      split
      · rename_i none
        exact .settled (own _ kind) (by simp [none])
      · rename_i future pending
        split
        · rename_i decided
          exact .settled (own _ kind) (by simpa [pending] using decided)
        · rename_i prepared
          exact .abort (own _ kind) pending (not_not.mp prepared)

theorem Agenda.tail {item : ScheduledAction} (h : Agenda cp (item :: agenda)) : Agenda cp agenda where
  populated other member := h.populated other (List.mem_cons_of_mem _ member)
  numbered other member := h.numbered other (List.mem_cons_of_mem _ member)
  prepareOnce := (List.sublist_cons_self item agenda).countP_le.trans h.prepareOnce
  prepareFirst pending := Nat.le_zero.mp
    ((List.sublist_cons_self item agenda).countP_le.trans (h.prepareFirst pending).le)
  commitOnce := (List.sublist_cons_self item agenda).countP_le.trans h.commitOnce
  commitAcked other member := h.commitAcked other (List.mem_cons_of_mem _ member)

theorem noneLeft {p : ScheduledAction → Bool} {item : ScheduledAction}
    (once : (item :: agenda).countP p ≤ 1) (own : p item = true) : agenda.countP p = 0 := by
  rw [List.countP_cons_of_pos own] at once
  omega

theorem lookupTargets (cp : OnlineRejoinControlPlane) (state : ControlPlaneState)
    (s : MembershipState) (i : Nat) :
    (cp.nodeStatesWithTargets state s).lookup i =
      if i ∈ cp.episodeTargets then some s else state.nodeStates.lookup i := by
  simp only [nodeStatesWithTargets,Dict.lookupSetAll,Dict.memSortedIds]

theorem notCollecting (h : Coherent ready cp state) (active : cp.activeEpisodeId.isSome) :
    cp.collectingTargets = ∅ := by
  by_contra some
  have open' := h.episodic.deadline (Finset.nonempty_iff_ne_empty.mpr some)
  have idle := h.episodic.window open'
  simp [idle] at active

theorem activeOfNotRetry (h : Coherent ready cp state) (active : cp.activeEpisodeId.isSome)
    {i : Nat} (bound : i < cp.nodeCount) (spared : i ∉ cp.retryTargets) : inState state i .active := by
  rw [retryTargets,Finset.mem_union,not_or,Finmap.mem_keys] at spared
  obtain ⟨s,held⟩ := Option.isSome_iff_exists.mp ((h.tracked.known i).mpr bound)
  cases s with
  | active => exact held
  | failed =>
    rcases h.tracked.failed i held with c | e | q
    · simp [notCollecting h active] at c
    · exact absurd e spared.1
    · exact absurd q spared.2
  | recovering => exact absurd (h.tracked.rejoining i _ held (Or.inl rfl)) spared.1
  | rejoinPending => exact absurd (h.tracked.rejoining i _ held (Or.inr rfl)) spared.1

theorem trackedTargets {cp' : OnlineRejoinControlPlane} {state' : ControlPlaneState}
    {s : MembershipState} (h : Tracked cp state) (notFailed : s ≠ .failed)
    (current : cp'.currentState = some state')
    (states : state'.nodeStates = cp.nodeStatesWithTargets state s)
    (count : cp'.nodeCount = cp.nodeCount) (collecting : cp'.collectingTargets = cp.collectingTargets)
    (episode : cp'.episodeTargets = cp.episodeTargets)
    (queued : cp'.queuedInterruptions = cp.queuedInterruptions)
    (bitmap : cp'.episodeMembersBitmap = cp.episodeMembersBitmap) : Tracked cp' state' := by
  refine ⟨current,?_,?_,?_,?_,?_,?_,?_⟩
  · intro i
    rw [states,lookupTargets,count]
    split
    · rename_i target
      simp [h.episodeBound i target]
    · exact h.known i
  · intro i failed
    rw [inState,states,lookupTargets] at failed
    rw [collecting,episode,queued]
    split at failed
    · exact absurd (Option.some.inj failed) notFailed
    · exact h.failed i failed
  · intro i s' held kind'
    rw [inState,states,lookupTargets] at held
    rw [episode]
    split at held
    · assumption
    · exact h.rejoining i s' held kind'
  · rw [collecting,count]; exact h.collectingBound
  · rw [episode,count]; exact h.episodeBound
  · rw [queued,count]; exact h.queuedBound
  · rw [queued,count,bitmap]; exact h.leftOut

theorem activeTargets {s : MembershipState} (kind : s = .recovering ∨ s = .rejoinPending) {i : Nat}
    (active : (cp.nodeStatesWithTargets state s).lookup i = some .active) : inState state i .active := by
  rw [lookupTargets] at active
  split at active
  · rcases kind with rfl | rfl <;> simp at active
  · exact active

theorem afterMarkCoherent {item : ScheduledAction} (h : Coherent (item :: ready) cp state) (atNs : Int) :
    ∃ state', Coherent ready (cp.afterMark state atNs) state' ∧
      state'.installedConfig = state.installedConfig := by
  refine ⟨{state with nodeStates := cp.nodeStatesWithTargets state .recovering},⟨?_,?_,?_,?_⟩,rfl⟩
  · exact trackedTargets h.tracked (by decide) rfl rfl rfl rfl rfl rfl rfl
  · exact ⟨h.episodic.active,h.episodic.deadline,h.episodic.window,h.episodic.pending,
      h.episodic.prepareRound,h.episodic.members,h.episodic.fresh,h.episodic.owned⟩
  · have rest := h.agenda.tail
    exact ⟨rest.populated,rest.numbered,rest.prepareOnce,rest.prepareFirst,rest.commitOnce,rest.commitAcked⟩
  · exact ⟨h.configured.shown,h.configured.lockstep,h.configured.next,
      fun i active => h.configured.activeBits i (activeTargets (Or.inl rfl) active)⟩

theorem afterPrepareCoherent {item : ScheduledAction} (h : Coherent (item :: ready) cp state)
    (own : cp.mine .prepareOnlineRejoin item) {prepareRound : Int} {membersBitmap : Nat}
    (members : cp.episodeMembersBitmap = some membersBitmap) (atNs : Int) :
    ∃ state', Coherent ready
        (cp.afterPrepare state atNs (cp.preparedConfig state prepareRound membersBitmap)) state' ∧
      state'.installedConfig = state.installedConfig := by
  have running : cp.activeEpisodeId.isSome := by
    simp only [mine,decide_eq_true_eq] at own
    exact own.2.1
  have unpending : cp.pendingFuture = none := by
    by_contra some
    have none := h.agenda.prepareFirst (Option.isSome_iff_ne_none.mpr some)
    exact absurd own (List.countP_eq_zero.mp none item (by simp))
  have rest := h.agenda.tail
  have last := noneLeft h.agenda.prepareOnce own
  refine ⟨
    { state with
      nodeStates := cp.nodeStatesWithTargets state .rejoinPending
      pendingConfig := some (cp.preparedConfig state prepareRound membersBitmap) },⟨?_,?_,?_,?_⟩,rfl⟩
  · exact trackedTargets h.tracked (by decide) rfl rfl rfl rfl rfl rfl rfl
  · exact ⟨h.episodic.active,h.episodic.deadline,h.episodic.window,fun _ => running,
      h.episodic.prepareRound,h.episodic.members,h.episodic.fresh,h.episodic.owned⟩
  · refine ⟨rest.populated,rest.numbered,rest.prepareOnce,fun _ => last,rest.commitOnce,?_⟩
    intro other member ownCommit
    obtain ⟨pending,held,_⟩ := rest.commitAcked other member ownCommit
    simp [unpending] at held
  · refine ⟨rfl,h.configured.lockstep,?_,?_⟩
    · intro pending held
      cases Option.some.inj held
      exact ⟨rfl,rfl,members⟩
    · exact fun i active => h.configured.activeBits i (activeTargets (Or.inr rfl) active)

theorem afterCommitCoherent {item : ScheduledAction} (h : Coherent (item :: ready) cp state)
    (own : cp.mine .commitOnlineRejoin item) {future : PendingConfig}
    (pending : cp.pendingFuture = some future) (atNs : Int) :
    ∃ state', Coherent ready (cp.afterCommit state atNs (cp.committedConfig future atNs)) state' ∧
      state'.installedConfig = state.installedConfig := by
  have rest := h.agenda.tail
  have last := noneLeft h.agenda.commitOnce own
  refine ⟨{state with pendingConfig := some (cp.committedConfig future atNs)},⟨?_,?_,?_,?_⟩,rfl⟩
  · exact ⟨rfl,h.tracked.known,h.tracked.failed,h.tracked.rejoining,h.tracked.collectingBound,
      h.tracked.episodeBound,h.tracked.queuedBound,h.tracked.leftOut⟩
  · exact ⟨h.episodic.active,h.episodic.deadline,h.episodic.window,
      fun _ => h.episodic.pending (by simp [pending]),h.episodic.prepareRound,h.episodic.members,
      h.episodic.fresh,h.episodic.owned⟩
  · refine ⟨rest.populated,rest.numbered,rest.prepareOnce,
      fun _ => rest.prepareFirst (by simp [pending]),rest.commitOnce,?_⟩
    intro other member ownCommit
    exact absurd ownCommit (List.countP_eq_zero.mp last other member)
  · refine ⟨rfl,h.configured.lockstep,?_,h.configured.activeBits⟩
    intro committed held
    cases Option.some.inj held
    exact h.configured.next future pending

theorem clearedScheduled {item : ScheduledAction} (member : item ∈ cp.clearEpisodeState.scheduled) :
    item ∈ cp.scheduled := by
  unfold clearEpisodeState at member
  cases running : cp.activeEpisodeId with
  | none => simpa [running] using member
  | some id =>
    simp only [running] at member
    exact List.mem_of_mem_filter member

theorem afterAbortCoherent {item : ScheduledAction} (h : Coherent (item :: ready) cp state)
    (active : cp.activeEpisodeId.isSome) (atNs : Int) :
    ∃ state', Coherent ready ((cp.afterAbort state atNs).beginCollectionWindow atNs) state' ∧
      state'.installedConfig = state.installedConfig := by
  have empty := notCollecting h active
  have closed : cp.collectionDeadlineNs = none := by
    by_contra some
    have idle := h.episodic.window (Option.isSome_iff_ne_none.mpr some)
    simp [idle] at active
  have states : ∀ i, (Dict.tabulate (List.range cp.nodeCount)
      (fun i => if i ∈ cp.retryTargets then MembershipState.failed else .active)).lookup i =
      if i < cp.nodeCount then some (if i ∈ cp.retryTargets then .failed else .active) else none := by
    intro i
    simp only [Dict.lookupTabulate,List.mem_range]
  have cleared : Coherent ready (cp.afterAbort state atNs)
      ⟨state.installedConfig,
        Dict.tabulate (List.range cp.nodeCount)
          (fun i => if i ∈ cp.retryTargets then MembershipState.failed else .active),none,∅⟩ := by
    refine ⟨?_,?_,?_,?_⟩
    · refine ⟨rfl,?_,?_,?_,?_,?_,?_,?_⟩
      · intro i
        rw [states]
        split <;> simp_all [afterAbort,clearEpisodeState]
      · intro i failed
        rw [inState,states] at failed
        refine Or.inr (Or.inr ?_)
        change i ∈ (Dict.sortedIds cp.retryTargets).foldl
          (fun queued i => Dict.setdefault queued i atNs) cp.queuedInterruptions
        rw [Dict.memFoldSetdefault,Dict.memSortedIds]
        split at failed
        · split at failed
          · exact Or.inl (by assumption)
          · simp at failed
        · simp at failed
      · intro i s held kind
        rw [inState,states] at held
        split at held
        · split at held <;> rcases kind with rfl | rfl <;> simp at held
        · simp at held
      · intro i member
        simp [afterAbort,clearEpisodeState,empty] at member
      · intro i member
        simp [afterAbort,clearEpisodeState] at member
      · intro i member
        change i ∈ (Dict.sortedIds cp.retryTargets).foldl
          (fun queued i => Dict.setdefault queued i atNs) cp.queuedInterruptions at member
        rw [Dict.memFoldSetdefault,Dict.memSortedIds,retryTargets,Finset.mem_union,Finmap.mem_keys] at member
        rcases member with (target | queued) | queued
        · exact h.tracked.episodeBound i target
        · exact h.tracked.queuedBound i queued
        · exact h.tracked.queuedBound i queued
      · intro bitmap held
        simp [afterAbort,clearEpisodeState] at held
    · refine ⟨?_,?_,?_,?_,?_,?_,?_,clearedOwned h.episodic.owned⟩ <;>
        simp [afterAbort,clearEpisodeState,empty,closed]
    · have sub : ∀ other ∈ ready ++ (cp.afterAbort state atNs).scheduled,
          other ∈ item :: ready ++ cp.scheduled := by
        intro other member
        rcases List.mem_append.mp member with inside | inside
        · simp [inside]
        · have := clearedScheduled inside
          simp [this]
      exact Agenda.idle rfl (fun other member => h.agenda.populated other (sub other member))
        (fun other member => h.agenda.numbered other (sub other member))
    · refine ⟨rfl,h.configured.lockstep,?_,?_⟩
      · intro pending held
        simp [afterAbort,clearEpisodeState] at held
      · intro i held
        rw [inState,states] at held
        split at held
        · rename_i bound
          split at held
          · simp at held
          · rename_i spared
            exact h.configured.activeBits i (activeOfNotRetry h active bound spared)
        · simp at held
  exact ⟨_,beginCollectionWindowCoherent cleared atNs,rfl⟩

theorem applyActionCoherent {item : ScheduledAction} (h : Coherent (item :: ready) cp state)
    {cp' : OnlineRejoinControlPlane} (effect : ActionEffect cp state item cp') :
    ∃ state', Coherent ready cp' state' ∧ state'.installedConfig = state.installedConfig := by
  have kept : Coherent ready cp state := ⟨h.tracked,h.episodic,h.agenda.tail,h.configured⟩
  cases effect with
  | stale other => exact ⟨state,kept,rfl⟩
  | mark own => exact afterMarkCoherent h item.timeNs
  | prepare own round members => exact afterPrepareCoherent h own members item.timeNs
  | commit own pending prepared acked some => exact afterCommitCoherent h own pending item.timeNs
  | settled own decided => exact ⟨state,kept,rfl⟩
  | abort own pending prepared =>
    exact afterAbortCoherent h (h.episodic.pending (by simp [pending])) item.timeNs

end Actions

end OnlineRejoinControlPlane
end Syncons
