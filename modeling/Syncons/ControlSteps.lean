import Syncons.Episode

/-! The three entry points of the control plane under `Coherent`: what a time
advance, a round call and an observed event can do, and that each keeps it. -/
namespace Syncons
open Dict (Map)
open Outcome

namespace OnlineRejoinControlPlane

variable {cp cp' : OnlineRejoinControlPlane} {state : ControlPlaneState}
  {ready : List ScheduledAction}

section Call

-- Logs come from the selected prefix; an empty prefix leaves the old ones.
def LogsFrom (snapshots : List RepairSnapshot) (old new : Map Nat RepairLog) : Prop :=
  ∀ i log, new.lookup i = some log →
    log = selectRepairPrefix snapshots ∧ log.entries ≠ [] ∨
    (selectRepairPrefix snapshots).entries = [] ∧ old.lookup i = some log

structure Rebuilt (snapshots : List RepairSnapshot) (state : ControlPlaneState)
    (logs : Map Nat RepairLog) : Prop where
  source : LogsFrom snapshots state.repairLogs logs
  target : ∀ i, inState state i .recovering ∨ inState state i .rejoinPending →
    (selectRepairPrefix snapshots).entries ≠ [] → logs.lookup i = some (selectRepairPrefix snapshots)
  keyed : ∀ i log, logs.lookup i = some log → (selectRepairPrefix snapshots).entries ≠ [] →
    inState state i .recovering ∨ inState state i .rejoinPending

theorem rebuildRepairLogsCases (h : Tracked cp state) (snapshots : List RepairSnapshot) :
    ∃ logs, cp.rebuildRepairLogs snapshots =
      .ok {cp with currentState := some {state with repairLogs := logs}} ∧
      Rebuilt snapshots state logs := by
  have unchanged : {cp with currentState := some {state with repairLogs := state.repairLogs}} = cp := by
    rw [← h.current]
  have member : ∀ i, i ∈ state.nodeStates.keys.filter
      (fun i => inState state i .recovering ∨ inState state i .rejoinPending) ↔
      inState state i .recovering ∨ inState state i .rejoinPending := by
    intro i
    simp only [Finset.mem_filter,Finmap.mem_keys,and_iff_right_iff_imp]
    intro rejoining
    rcases rejoining with held | held <;> exact Finmap.mem_of_lookup_eq_some held
  simp only [rebuildRepairLogs,require,h.current,okBind]
  split
  · rename_i none
    have absent : ∀ i, ¬ (inState state i .recovering ∨ inState state i .rejoinPending) := by
      intro i rejoining
      have inside := (member i).mpr rejoining
      rw [none] at inside
      simp at inside
    split
    · rename_i empty
      have bare : ∀ i log, state.repairLogs.lookup i ≠ some log := by
        intro i log held
        have inside := Finmap.mem_keys.mpr (Finmap.mem_of_lookup_eq_some held)
        rw [empty] at inside
        simp at inside
      exact ⟨state.repairLogs,by rw [unchanged],fun i log held => absurd held (bare i log),
        fun i rejoining => absurd rejoining (absent i),fun i log held => absurd held (bare i log)⟩
    · exact ⟨∅,rfl,fun i log held => by simp at held,fun i rejoining => absurd rejoining (absent i),
        fun i log held => by simp at held⟩
  · split
    · rename_i empty
      exact ⟨state.repairLogs,by rw [unchanged],fun i log held => Or.inr ⟨empty,held⟩,
        fun i _ some => absurd empty some,fun i _ _ some => absurd empty some⟩
    · rename_i some
      refine ⟨_,rfl,?_,?_,?_⟩
      · intro i log held
        rw [Dict.lookupTabulate] at held
        split at held
        · cases Option.some.inj held
          exact Or.inl ⟨rfl,some⟩
        · simp at held
      · intro i rejoining _
        rw [Dict.lookupTabulate,if_pos ((Dict.memSortedIds _ i).mpr ((member i).mpr rejoining))]
      · intro i log held _
        rw [Dict.lookupTabulate] at held
        split at held
        · rename_i inside
          exact (member i).mp ((Dict.memSortedIds _ i).mp inside)
        · simp at held

theorem repairLogsCoherent (h : Coherent ready cp state) (logs : Map Nat RepairLog) :
    Coherent ready {cp with currentState := some {state with repairLogs := logs}}
      {state with repairLogs := logs} where
  tracked := ⟨rfl,h.tracked.known,h.tracked.failed,h.tracked.rejoining,h.tracked.collectingBound,
    h.tracked.episodeBound,h.tracked.queuedBound,h.tracked.leftOut⟩
  episodic := ⟨h.episodic.active,h.episodic.deadline,h.episodic.window,h.episodic.pending,
    h.episodic.prepareRound,h.episodic.members,h.episodic.fresh,h.episodic.owned⟩
  agenda := ⟨h.agenda.populated,h.agenda.numbered,h.agenda.prepareOnce,h.agenda.prepareFirst,
    h.agenda.commitOnce,h.agenda.commitAcked⟩
  configured := ⟨h.configured.shown,h.configured.lockstep,h.configured.next,h.configured.activeBits⟩

theorem cutoverDueCases (cp : OnlineRejoinControlPlane) (roundId : Int) :
    cp.cutoverDue roundId = none ∧
      (∀ future ∈ cp.pendingFuture, future.status = .committed → roundId < future.effectiveRound) ∨
    ∃ future, cp.cutoverDue roundId = some future ∧ cp.pendingFuture = some future ∧
      future.status = .committed ∧ future.effectiveRound ≤ roundId := by
  unfold cutoverDue
  cases held : cp.pendingFuture with
  | none => exact Or.inl ⟨rfl,by simp⟩
  | some future =>
    by_cases decided : future.status = .committed
    · by_cases early : roundId < future.effectiveRound
      · exact Or.inl ⟨by simp [decided,early],by simpa using fun _ => early⟩
      · exact Or.inr ⟨future,by simp [decided,early],rfl,decided,by omega⟩
    · exact Or.inl ⟨by simp [decided],by simpa using fun same => absurd same decided⟩

def cutoverState (cp : OnlineRejoinControlPlane) (future : PendingConfig) : ControlPlaneState :=
  ⟨⟨future.membershipEpoch,future.membersBitmap,future.runId⟩,
    Dict.tabulate (List.range cp.nodeCount)
      (fun i => if future.membersBitmap.testBit i then MembershipState.active else .failed),none,∅⟩

-- The cutover up to its last step, the next collection window.
def afterCutover (cp : OnlineRejoinControlPlane) (roundId : Int) (future : PendingConfig) :
    OnlineRejoinControlPlane :=
  clearEpisodeState
    { cp with
      currentState := some (cp.cutoverState future)
      applied := cp.applied ++
        [⟨roundId * cp.timing.roundLengthNs,.activateOnlineRejoin,Dict.sortedIds cp.episodeTargets,
          none,some future.effectiveRound⟩]
      pendingFuture := none }

theorem maybeActivateCutoverDue {roundId : Int} {future : PendingConfig}
    (due : cp.cutoverDue roundId = some future) :
    cp.maybeActivateCutover roundId = (cp.afterCutover roundId future).beginCollectionWindow
      (roundId * cp.timing.roundLengthNs) := by
  simp only [maybeActivateCutover,due]
  rfl

theorem lookupCutover (cp : OnlineRejoinControlPlane) (future : PendingConfig) (i : Nat) :
    (cp.cutoverState future).nodeStates.lookup i =
      if i < cp.nodeCount then
        some (if future.membersBitmap.testBit i then MembershipState.active else .failed)
      else none := by
  simp only [cutoverState,Dict.lookupTabulate,List.mem_range]

theorem afterCutoverCoherent (h : Coherent [] cp state) {roundId : Int} {future : PendingConfig}
    (pending : cp.pendingFuture = some future) :
    Coherent [] (cp.afterCutover roundId future) (cp.cutoverState future) := by
  have active := h.episodic.pending (by simp [pending])
  have empty := notCollecting h active
  have closed : cp.collectionDeadlineNs = none := by
    by_contra some
    have idle := h.episodic.window (Option.isSome_iff_ne_none.mpr some)
    simp [idle] at active
  obtain ⟨epoch,run,members⟩ := h.configured.next future pending
  refine ⟨?_,?_,?_,?_⟩
  · refine ⟨rfl,?_,?_,?_,?_,?_,h.tracked.queuedBound,?_⟩
    · intro i
      rw [lookupCutover]
      split <;> simp_all [afterCutover,clearEpisodeState]
    · intro i failed
      rw [inState,lookupCutover] at failed
      split at failed
      · rename_i bound
        have out : future.membersBitmap.testBit i = false := by
          by_contra inside
          simp [inside] at failed
        exact Or.inr (Or.inr (h.tracked.leftOut _ members i bound out))
      · simp at failed
    · intro i s held kind
      rw [inState,lookupCutover] at held
      split at held
      · split at held <;> rcases kind with rfl | rfl <;> simp at held
      · simp at held
    · intro i member
      simp [afterCutover,clearEpisodeState,empty] at member
    · intro i member
      simp [afterCutover,clearEpisodeState] at member
    · intro bitmap held
      simp [afterCutover,clearEpisodeState] at held
  · refine ⟨?_,?_,?_,?_,?_,?_,?_,clearedOwned h.episodic.owned⟩ <;>
      simp [afterCutover,clearEpisodeState,empty,closed]
  · have sub : ∀ item ∈ [] ++ (cp.afterCutover roundId future).scheduled, item ∈ [] ++ cp.scheduled :=
      fun item member => clearedScheduled member
    exact Agenda.idle rfl (fun item member => h.agenda.populated item (sub item member))
      (fun item member => h.agenda.numbered item (sub item member))
  · refine ⟨rfl,?_,?_,?_⟩
    · change future.membershipEpoch = future.runId
      rw [epoch,run,h.configured.lockstep]
    · intro next held
      simp [afterCutover,clearEpisodeState] at held
    · intro i held
      rw [inState,lookupCutover] at held
      split at held
      · split at held
        · assumption
        · simp at held
      · simp at held

end Call

section Events

def observed (cp : OnlineRejoinControlPlane) (event : ControlPlaneEvent) : OnlineRejoinControlPlane :=
  {cp with observedEvents := cp.observedEvents ++ [event]}

theorem observedCoherent (h : Coherent ready cp state) (event : ControlPlaneEvent) :
    Coherent ready (cp.observed event) state where
  tracked := ⟨h.tracked.current,h.tracked.known,h.tracked.failed,h.tracked.rejoining,
    h.tracked.collectingBound,h.tracked.episodeBound,h.tracked.queuedBound,h.tracked.leftOut⟩
  episodic := ⟨h.episodic.active,h.episodic.deadline,h.episodic.window,h.episodic.pending,
    h.episodic.prepareRound,h.episodic.members,h.episodic.fresh,h.episodic.owned⟩
  agenda := ⟨h.agenda.populated,h.agenda.numbered,h.agenda.prepareOnce,h.agenda.prepareFirst,
    h.agenda.commitOnce,h.agenda.commitAcked⟩
  configured := ⟨h.configured.shown,h.configured.lockstep,h.configured.next,h.configured.activeBits⟩

def failedState (state : ControlPlaneState) (target : Nat) : ControlPlaneState :=
  if inState state target .failed then state
  else {state with nodeStates := state.nodeStates.insert target .failed}

theorem lookupFailed (state : ControlPlaneState) (target i : Nat) :
    (failedState state target).nodeStates.lookup i =
      if i = target then some .failed else state.nodeStates.lookup i := by
  unfold failedState
  split
  · rename_i failed
    split
    · rename_i same
      rw [same]
      exact failed
    · rfl
  · exact Dict.lookupInsert state.nodeStates target i .failed

theorem failedInstalled (state : ControlPlaneState) (target : Nat) :
    (failedState state target).installedConfig = state.installedConfig ∧
    (failedState state target).pendingConfig = state.pendingConfig ∧
    (failedState state target).repairLogs = state.repairLogs := by
  unfold failedState
  split <;> exact ⟨rfl,rfl,rfl⟩

-- Both branches of an interruption, up to the next collection window.
def collected (cp : OnlineRejoinControlPlane) (state : ControlPlaneState) (target : Nat) :
    OnlineRejoinControlPlane :=
  { cp with
    currentState := some (failedState state target)
    collectingTargets := insert target cp.collectingTargets }

def queuedUp (cp : OnlineRejoinControlPlane) (state : ControlPlaneState) (target : Nat)
    (availableAtNs : Int) : OnlineRejoinControlPlane :=
  { cp with
    currentState := some (failedState state target)
    queuedInterruptions := Dict.setdefault cp.queuedInterruptions target availableAtNs }

theorem noteInterruptionCases (h : Tracked cp state) (target : Nat) (availableAtNs : Int) :
    cp.collects availableAtNs ∧
      cp.noteInterruption target availableAtNs = .ok (cp.collected state target) ∨
    ¬ cp.collects availableAtNs ∧ cp.noteInterruption target availableAtNs =
      .ok ((cp.queuedUp state target availableAtNs).beginCollectionWindow availableAtNs) := by
  have marked : cp.markNodeFailed target =
      .ok {cp with currentState := some (failedState state target)} := by
    simp only [markNodeFailed,require,h.current,failedState,okBind]
    split
    · simp only [← h.current]
    · rfl
  have same : ∀ t, ({cp with currentState := some (failedState state target)} :
      OnlineRejoinControlPlane).collects t ↔ cp.collects t := fun _ => Iff.rfl
  simp only [noteInterruption,marked,okBind]
  by_cases collects : cp.collects availableAtNs
  · exact Or.inl ⟨collects,if_pos ((same _).mpr collects)⟩
  · exact Or.inr ⟨collects,if_neg (fun other => collects ((same _).mp other))⟩

theorem knownFailed (h : Tracked cp state) {target : Nat} (bound : target < cp.nodeCount) (i : Nat) :
    ((failedState state target).nodeStates.lookup i).isSome ↔ i < cp.nodeCount := by
  rw [lookupFailed]
  split
  · rename_i same
    subst i
    simp [bound]
  · exact h.known i

theorem configuredFailed (h : Configured cp state) (target : Nat)
    (pending : cp'.pendingFuture = cp.pendingFuture)
    (members : cp'.episodeMembersBitmap = cp.episodeMembersBitmap) :
    Configured cp' (failedState state target) := by
  obtain ⟨installed,shown,_⟩ := failedInstalled state target
  refine ⟨?_,?_,?_,?_⟩
  · rw [shown,pending]; exact h.shown
  · rw [installed]; exact h.lockstep
  · rw [installed,pending,members]; exact h.next
  · intro i active
    rw [inState,lookupFailed] at active
    rw [installed]
    split at active
    · simp at active
    · exact h.activeBits i active

theorem collectedCoherent (h : Coherent [] cp state) {target : Nat} (bound : target < cp.nodeCount)
    {availableAtNs : Int} (collects : cp.collects availableAtNs) :
    Coherent [] (cp.collected state target) (failedState state target) := by
  obtain ⟨⟨deadline,due,_⟩,empty⟩ := collects
  refine ⟨?_,?_,?_,?_⟩
  · refine ⟨rfl,knownFailed h.tracked bound,?_,?_,?_,h.tracked.episodeBound,h.tracked.queuedBound,
      h.tracked.leftOut⟩
    · intro i failed
      rw [inState,lookupFailed] at failed
      split at failed
      · rename_i same
        exact Or.inl (by simp [collected,same])
      · rcases h.tracked.failed i failed with c | e | q
        · exact Or.inl (Finset.mem_insert_of_mem c)
        · exact Or.inr (Or.inl e)
        · exact Or.inr (Or.inr q)
    · intro i s held kind
      rw [inState,lookupFailed] at held
      split at held
      · rcases kind with rfl | rfl <;> simp at held
      · exact h.tracked.rejoining i s held kind
    · intro i member
      rcases Finset.mem_insert.mp member with rfl | inside
      · exact bound
      · exact h.tracked.collectingBound i inside
  · have open' : cp.collectionDeadlineNs.isSome := Option.isSome_of_mem due
    exact ⟨h.episodic.active,fun _ => open',h.episodic.window,h.episodic.pending,
      h.episodic.prepareRound,h.episodic.members,h.episodic.fresh,h.episodic.owned⟩
  · exact ⟨h.agenda.populated,h.agenda.numbered,h.agenda.prepareOnce,h.agenda.prepareFirst,
      h.agenda.commitOnce,h.agenda.commitAcked⟩
  · exact configuredFailed h.configured target rfl rfl

theorem queuedUpCoherent (h : Coherent [] cp state) {target : Nat} (bound : target < cp.nodeCount)
    (availableAtNs : Int) :
    Coherent [] (cp.queuedUp state target availableAtNs) (failedState state target) := by
  have grows : ∀ i, i ∈ (cp.queuedUp state target availableAtNs).queuedInterruptions ↔
      i = target ∨ i ∈ cp.queuedInterruptions :=
    fun i => Dict.memSetdefault cp.queuedInterruptions target i availableAtNs
  refine ⟨?_,?_,?_,?_⟩
  · refine ⟨rfl,knownFailed h.tracked bound,?_,?_,h.tracked.collectingBound,h.tracked.episodeBound,?_,?_⟩
    · intro i failed
      rw [inState,lookupFailed] at failed
      split at failed
      · rename_i same
        exact Or.inr (Or.inr ((grows i).mpr (Or.inl same)))
      · rcases h.tracked.failed i failed with c | e | q
        · exact Or.inl c
        · exact Or.inr (Or.inl e)
        · exact Or.inr (Or.inr ((grows i).mpr (Or.inr q)))
    · intro i s held kind
      rw [inState,lookupFailed] at held
      split at held
      · rcases kind with rfl | rfl <;> simp at held
      · exact h.tracked.rejoining i s held kind
    · intro i member
      rcases (grows i).mp member with rfl | inside
      · exact bound
      · exact h.tracked.queuedBound i inside
    · intro bitmap held i inside out
      exact (grows i).mpr (Or.inr (h.tracked.leftOut bitmap held i inside out))
  · exact ⟨h.episodic.active,h.episodic.deadline,h.episodic.window,h.episodic.pending,
      h.episodic.prepareRound,h.episodic.members,h.episodic.fresh,h.episodic.owned⟩
  · exact ⟨h.agenda.populated,h.agenda.numbered,h.agenda.prepareOnce,h.agenda.prepareFirst,
      h.agenda.commitOnce,h.agenda.commitAcked⟩
  · exact configuredFailed h.configured target rfl rfl

-- What an acknowledgement adds: acks, and at most one commit item.
structure Acked (cp : OnlineRejoinControlPlane) (event : ControlPlaneEvent) (pending : PendingConfig)
    (cp' : OnlineRejoinControlPlane) : Prop where
  names : acknowledges event pending
  shape : ∃ last extra, cp' =
    { cp with
      prepareAcks := insert event.nodeId cp.prepareAcks
      lastPrepareAcks := last
      scheduled := cp.scheduled ++ extra } ∧
    (extra = [] ∨
      extra = [⟨event.availableAtNs + cp.timing.cpDecisionDelayNs,.commitOnlineRejoin,
        cp.activeEpisodeId⟩] ∧ ¬ cp.commitScheduled ∧
      cp.futureMembers pending ⊆ insert event.nodeId cp.prepareAcks)

theorem notePrepareAckCases (cp : OnlineRejoinControlPlane) (event : ControlPlaneEvent)
    (pending : PendingConfig) :
    ¬ acknowledges event pending ∧ cp.notePrepareAck event pending = cp ∨
    Acked cp event pending (cp.notePrepareAck event pending) := by
  unfold notePrepareAck
  split
  · rename_i names
    right
    refine ⟨names,?_⟩
    dsimp only
    split
    · rename_i all
      split
      · exact ⟨insert event.nodeId cp.prepareAcks,[],by simp,Or.inl rfl⟩
      · rename_i new
        exact ⟨insert event.nodeId cp.prepareAcks,_,rfl,Or.inr ⟨rfl,new,all⟩⟩
    · exact ⟨cp.lastPrepareAcks,[],by simp,Or.inl rfl⟩
  · rename_i other
    exact Or.inl ⟨other,rfl⟩

theorem activePopulated (h : Coherent ready cp state) (active : cp.activeEpisodeId.isSome) :
    0 < cp.nodeCount := by
  obtain ⟨i,member⟩ := h.episodic.active.mp active
  have bound := h.tracked.episodeBound i member
  omega

theorem ackedCoherent (h : Coherent [] cp state) {event : ControlPlaneEvent} {pending : PendingConfig}
    (held : cp.pendingFuture = some pending) (prepared : pending.status = .prepared)
    (acked : Acked cp event pending cp') : Coherent [] cp' state := by
  obtain ⟨_,last,extra,rfl,added⟩ := acked
  have active := h.episodic.pending (by simp [held])
  obtain ⟨id,running⟩ := Option.isSome_iff_exists.mp active
  have populated := activePopulated h active
  refine ⟨?_,?_,?_,?_⟩
  · exact ⟨h.tracked.current,h.tracked.known,h.tracked.failed,h.tracked.rejoining,
      h.tracked.collectingBound,h.tracked.episodeBound,h.tracked.queuedBound,h.tracked.leftOut⟩
  · refine ⟨h.episodic.active,h.episodic.deadline,h.episodic.window,h.episodic.pending,
      h.episodic.prepareRound,h.episodic.members,h.episodic.fresh,?_⟩
    intro item member
    rcases List.mem_append.mp member with old | fresh
    · exact h.episodic.owned item old
    · rcases added with rfl | ⟨rfl,_⟩
      · simp at fresh
      · cases List.mem_singleton.mp fresh
        rfl
  · have grown : ∀ item ∈ cp.scheduled, cp.mine .commitOnlineRejoin item →
        ∃ pending ∈ cp.pendingFuture, pending.status = .prepared ∧
          cp.futureMembers pending ⊆ insert event.nodeId cp.prepareAcks ∧
          (insert event.nodeId cp.prepareAcks).Nonempty := by
      intro item member own
      obtain ⟨future,some,status,sub,_⟩ := h.agenda.commitAcked item member own
      exact ⟨future,some,status,sub.trans (Finset.subset_insert _ _),Finset.insert_nonempty _ _⟩
    rcases added with rfl | ⟨rfl,new,all⟩
    · rw [List.append_nil]
      exact ⟨h.agenda.populated,h.agenda.numbered,h.agenda.prepareOnce,h.agenda.prepareFirst,
        h.agenda.commitOnce,grown⟩
    · have free : cp.scheduled.countP (cp.mine .commitOnlineRejoin) = 0 := by
        rw [List.countP_eq_zero]
        intro item member own
        simp only [mine,decide_eq_true_eq] at own
        exact new ⟨item,member,own.1,own.2.2⟩
      have same : ∀ action, mine { cp with
          prepareAcks := insert event.nodeId cp.prepareAcks
          lastPrepareAcks := last
          scheduled := cp.scheduled ++
            [⟨event.availableAtNs + cp.timing.cpDecisionDelayNs,.commitOnlineRejoin,
              cp.activeEpisodeId⟩] } action = cp.mine action := fun _ => rfl
      refine ⟨?_,?_,?_,?_,?_,?_⟩
      · exact fun _ _ => populated
      · intro item member
        rcases List.mem_append.mp member with old | old
        · simp at old
        rcases List.mem_append.mp old with old | fresh
        · exact h.agenda.numbered item old
        · cases List.mem_singleton.mp fresh
          exact ⟨id,h.episodic.fresh id running,running⟩
      · rw [same,List.nil_append,List.countP_append]
        simpa [mine] using h.agenda.prepareOnce
      · intro some
        rw [same,List.nil_append,List.countP_append]
        simpa [mine] using h.agenda.prepareFirst some
      · rw [same,List.nil_append,List.countP_append,free,Nat.zero_add]
        exact List.countP_le_length
      · intro item member own
        rcases List.mem_append.mp member with old | old
        · simp at old
        rcases List.mem_append.mp old with old | _
        · exact grown item old own
        · exact ⟨pending,held,prepared,all,Finset.insert_nonempty _ _⟩
  · exact ⟨h.configured.shown,h.configured.lockstep,h.configured.next,h.configured.activeBits⟩

end Events

section Entries

theorem ensureStateKeeps (h : Tracked cp state) (nodeCount : Nat) : cp.ensureState nodeCount = .ok cp := by
  simp only [ensureState,h.current]

inductive Called (snapshots : List RepairSnapshot) (roundId : Int) (cp : OnlineRejoinControlPlane) (state : ControlPlaneState) :
    OnlineRejoinControlPlane → ControlPlaneState → Prop where
  | quiet (early : ∀ future ∈ cp.pendingFuture, future.status = .committed →
      roundId < future.effectiveRound) {logs : Map Nat RepairLog}
      (rebuilt : Rebuilt snapshots state logs) :
      Called snapshots roundId cp state {cp with currentState := some {state with repairLogs := logs}}
        {state with repairLogs := logs}
  | cutover {future : PendingConfig} (pending : cp.pendingFuture = some future)
      (committed : future.status = .committed) (due : future.effectiveRound ≤ roundId)
      {logs : Map Nat RepairLog} (rebuilt : Rebuilt snapshots (cp.cutoverState future) logs) :
      Called snapshots roundId cp state
        { (cp.afterCutover roundId future).beginCollectionWindow (roundId * cp.timing.roundLengthNs) with
          currentState := some {cp.cutoverState future with repairLogs := logs} }
        {cp.cutoverState future with repairLogs := logs}

theorem callMeets (h : Coherent [] cp state) (snapshots : List RepairSnapshot) (roundId : Int)
    (nodeCount : Nat) :
    ∃ cp' state', cp.call snapshots roundId nodeCount = .ok cp' ∧ Coherent [] cp' state' ∧
      Called snapshots roundId cp state cp' state' := by
  rw [call,ensureStateKeeps h.tracked,okBind]
  rcases cutoverDueCases cp roundId with ⟨none,early⟩ | ⟨future,due,pending,committed,reached⟩
  · have same : cp.maybeActivateCutover roundId = cp := by
      simp only [maybeActivateCutover,none]
    obtain ⟨logs,rebuilt,source⟩ := rebuildRepairLogsCases h.tracked snapshots
    rw [same,rebuilt]
    exact ⟨_,_,rfl,repairLogsCoherent h logs,.quiet early source⟩
  · rw [maybeActivateCutoverDue due]
    have cut : Coherent [] (cp.afterCutover roundId future) (cp.cutoverState future) :=
      afterCutoverCoherent h pending
    have next := beginCollectionWindowCoherent cut (roundId * cp.timing.roundLengthNs)
    obtain ⟨logs,rebuilt,source⟩ := rebuildRepairLogsCases next.tracked snapshots
    rw [rebuilt]
    exact ⟨_,_,rfl,repairLogsCoherent next logs,.cutover pending committed reached source⟩

def interruption (event : NodeEvent) : Prop := event.kind = .nodeCrashed ∨ event.kind = .nodeHalted
instance (event) : Decidable (interruption event) := by unfold interruption; infer_instance

inductive Noticed (event : ControlPlaneEvent) (cp : OnlineRejoinControlPlane)
    (state : ControlPlaneState) : OnlineRejoinControlPlane → ControlPlaneState → Prop where
  | ignored (other : ¬ interruption event.toNodeEvent) :
      Noticed event cp state (cp.observed event) state
  | acked {pending : PendingConfig} {cp'} (kind : event.kind = .prepareAck)
      (held : cp.pendingFuture = some pending) (prepared : pending.status = .prepared)
      (acked : Acked (cp.observed event) event pending cp') : Noticed event cp state cp' state
  | collected (kind : interruption event.toNodeEvent) (collects : cp.collects event.availableAtNs) :
      Noticed event cp state ((cp.observed event).collected state event.nodeId)
        (failedState state event.nodeId)
  | queued (kind : interruption event.toNodeEvent) (late : ¬ cp.collects event.availableAtNs) :
      Noticed event cp state
        (((cp.observed event).queuedUp state event.nodeId event.availableAtNs).beginCollectionWindow
          event.availableAtNs)
        (failedState state event.nodeId)

theorem interruptionMeets (h : Coherent [] cp state) {event : ControlPlaneEvent}
    (bound : event.nodeId < cp.nodeCount) (kind : interruption event.toNodeEvent) :
    ∃ cp' state', (cp.observed event).noteInterruption event.nodeId event.availableAtNs = .ok cp' ∧
      Coherent [] cp' state' ∧ Noticed event cp state cp' state' := by
  have seen := observedCoherent h event
  rcases noteInterruptionCases seen.tracked event.nodeId event.availableAtNs with
    ⟨collects,noted⟩ | ⟨late,noted⟩
  · exact ⟨_,_,noted,collectedCoherent seen bound collects,.collected kind collects⟩
  · exact ⟨_,_,noted,beginCollectionWindowCoherent (queuedUpCoherent seen bound event.availableAtNs)
      event.availableAtNs,.queued kind late⟩

theorem observeEventMeets (h : Coherent [] cp state) {event : ControlPlaneEvent}
    (bound : interruption event.toNodeEvent → event.nodeId < cp.nodeCount) :
    ∃ cp' state', cp.observeEvent event = .ok cp' ∧ Coherent [] cp' state' ∧
      Noticed event cp state cp' state' := by
  have seen := observedCoherent h event
  unfold observeEvent
  cases kind : event.kind with
  | nodeCrashed => exact interruptionMeets h (bound (Or.inl kind)) (Or.inl kind)
  | nodeHalted => exact interruptionMeets h (bound (Or.inr kind)) (Or.inr kind)
  | other name =>
    have quiet : ¬ interruption event.toNodeEvent := by simp [interruption,kind]
    exact ⟨_,state,rfl,seen,.ignored quiet⟩
  | prepareAck =>
    have quiet : ¬ interruption event.toNodeEvent := by simp [interruption,kind]
    dsimp only
    split
    · exact ⟨_,state,rfl,seen,.ignored quiet⟩
    · rename_i pending held
      split
      · exact ⟨_,state,rfl,seen,.ignored quiet⟩
      · rename_i prepared
        rcases notePrepareAckCases (cp.observed event) event pending with ⟨_,same⟩ | acked
        · exact ⟨_,state,rfl,same ▸ seen,same ▸ .ignored quiet⟩
        · exact ⟨_,state,rfl,ackedCoherent seen held (not_not.mp prepared) acked,
            .acked kind held (not_not.mp prepared) acked⟩

structure Initial (timing : SimulationTiming) (nodeCount : Nat) (cp : OnlineRejoinControlPlane)
    (state : ControlPlaneState) : Prop where
  coherent : Coherent [] cp state
  timed : cp.timing = timing
  counted : cp.nodeCount = nodeCount
  pending : cp.pendingFuture = none
  scheduled : cp.scheduled = []
  untouched : cp.collectingTargets = ∅ ∧ cp.episodeTargets = ∅ ∧ cp.queuedInterruptions = ∅
  installed : state.installedConfig = ⟨0,bit nodeCount - 1,0⟩
  logs : state.repairLogs = ∅
  active : ∀ i < nodeCount, inState state i .active

theorem initialMeets (slack : Int) (timing : SimulationTiming) (nodeCount : Nat) :
    ∃ cp state, ensureState {cutoverSlackRounds := slack, timing := timing} nodeCount = .ok cp ∧
      Initial timing nodeCount cp state := by
  have members : Meets (fun _ => False) (fun bitmap => ∀ i, bitmap.testBit i = true ↔
      i ∈ List.range nodeCount) (bitmapSet nodeCount (List.range nodeCount)) :=
    bitmapSetMeets (fun i member => List.mem_range.mp member)
  obtain ⟨bitmap,value,exact⟩ := meetsTotal members (fun _ h => h)
  have states : ∀ i, (Dict.tabulate (List.range nodeCount)
      (fun _ => MembershipState.active)).lookup i = if i < nodeCount then some .active else none := by
    intro i
    simp only [Dict.lookupTabulate,List.mem_range]
  refine ⟨_,
    ⟨⟨0,bitmap,0⟩,Dict.tabulate (List.range nodeCount) (fun _ => MembershipState.active),none,∅⟩,
    by simp only [ensureState,initialState,value,okBind]; rfl,
    ⟨?_,rfl,rfl,rfl,rfl,⟨rfl,rfl,rfl⟩,?_,rfl,?_⟩⟩
  · refine ⟨?_,?_,?_,?_⟩
    · refine ⟨rfl,?_,?_,?_,?_,?_,?_,?_⟩
      · intro i
        rw [states]
        split <;> simp [*]
      · intro i failed
        rw [inState,states] at failed
        split at failed <;> simp at failed
      · intro i s held kind
        rw [inState,states] at held
        split at held <;> rcases kind with rfl | rfl <;> simp at held
      · simp
      · simp
      · exact fun i member => absurd member Finmap.notMem_empty
      · simp
    · refine ⟨?_,?_,?_,?_,?_,?_,?_,?_⟩ <;> simp
    · exact Agenda.idle rfl (by simp) (by simp)
    · refine ⟨rfl,rfl,by simp,?_⟩
      intro i active
      rw [inState,states] at active
      split at active
      · rename_i bound
        exact (exact i).mpr (List.mem_range.mpr bound)
      · simp at active
  · have full : bitmap = bit nodeCount - 1 := by
      apply bitmapEq
      intro i
      rw [fullBitmap,Bool.eq_iff_iff,exact i,decide_eq_true_eq,List.mem_range]
    rw [full]
  · intro i bound
    rw [inState,states,if_pos bound]

end Entries

end OnlineRejoinControlPlane
end Syncons
