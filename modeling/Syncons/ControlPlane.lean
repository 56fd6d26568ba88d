import Syncons.Types
import Mathlib.Data.List.Sort
import Mathlib.Order.Interval.Finset.Nat

/-! The online-rejoin control plane: interruption collection, episodes with timed
actions, prepare/ack/commit of the future config, and the cutover. Every method
that asserts returns `Py`; the snapshot source is the list it would return. -/
namespace Syncons
open Dict (Map)
open Outcome

/- The four scheduled actions, in the alphabetical order of their names, by
which the source breaks ties between actions due at the same time. -/
inductive Action where
  | abortOnlineRejoin | commitOnlineRejoin | markRecovering | prepareOnlineRejoin
  deriving DecidableEq, Repr

def Action.rank : Action → Nat
  | .abortOnlineRejoin => 0
  | .commitOnlineRejoin => 1
  | .markRecovering => 2
  | .prepareOnlineRejoin => 3

structure ScheduledAction where
  timeNs : Int
  action : Action
  episodeId : Option Nat
  deriving DecidableEq, Repr

def ScheduledAction.le (a b : ScheduledAction) : Prop :=
  a.timeNs < b.timeNs ∨ a.timeNs = b.timeNs ∧
    (a.action.rank < b.action.rank ∨ a.action.rank = b.action.rank ∧
      (a.episodeId.map Int.ofNat).getD (-1) ≤ (b.episodeId.map Int.ofNat).getD (-1))
instance : DecidableRel ScheduledAction.le := fun a b => by
  unfold ScheduledAction.le; infer_instance

inductive AppliedKind where
  | scheduled (action : Action) | activateOnlineRejoin
  deriving DecidableEq, Repr

structure AppliedAction where
  timeNs : Int
  action : AppliedKind
  nodeIds : List Nat
  membersBitmap : Option Nat := none
  effectiveRound : Option Int := none
  deriving DecidableEq, Repr

-- A repair prefix keeps the recorded times: both arguments are absent.
def cloneRepairPrefix (rounds : List CommittedRoundRecord) : RepairLog :=
  ⟨rounds.map (fun entry => entry.withTiming)⟩

-- `max` by `(length, -node_id)` keeps the first of equal keys.
def longerSnapshot (best node : RepairSnapshot) : RepairSnapshot :=
  if best.committedRounds.length < node.committedRounds.length ∨
      best.committedRounds.length = node.committedRounds.length ∧ node.nodeId < best.nodeId
  then node
  else best

def selectRepairPrefix : List RepairSnapshot → RepairLog
  | [] => {}
  | first :: rest => cloneRepairPrefix (rest.foldl longerSnapshot first).committedRounds

structure OnlineRejoinControlPlane where
  cutoverSlackRounds : Int := 10
  timing : SimulationTiming := {}
  nodeCount : Nat := 0
  currentState : Option ControlPlaneState := none
  scheduled : List ScheduledAction := []
  applied : List AppliedAction := []
  observedEvents : List ControlPlaneEvent := []
  collectingTargets : Finset Nat := ∅
  episodeTargets : Finset Nat := ∅
  queuedInterruptions : Map Nat Int := ∅
  collectionDeadlineNs : Option Int := none
  nextEpisodeId : Nat := 1
  activeEpisodeId : Option Nat := none
  episodeMembersBitmap : Option Nat := none
  prepareRound : Option Int := none
  prepareAcks : Finset Nat := ∅
  lastPrepareAcks : Finset Nat := ∅
  pendingFuture : Option PendingConfig := none

namespace OnlineRejoinControlPlane

def scheduleAction (cp : OnlineRejoinControlPlane) (timeNs : Int) (action : Action)
    (episodeId : Option Nat) : OnlineRejoinControlPlane :=
  {cp with scheduled := cp.scheduled ++ [⟨timeNs,action,episodeId⟩]}

def recordAppliedAction (cp : OnlineRejoinControlPlane) (record : AppliedAction) :
    OnlineRejoinControlPlane :=
  {cp with applied := cp.applied ++ [record]}

def initialState (nodeCount : Nat) : Py ControlPlaneState := do
  let fullMembership ← bitmapSet nodeCount (List.range nodeCount)
  .ok
    { installedConfig := ⟨0,fullMembership,0⟩
      nodeStates := Dict.tabulate (List.range nodeCount) (fun _ => .active) }

-- First call of `advance_to_time` or `__call__`.
def ensureState (cp : OnlineRejoinControlPlane) (nodeCount : Nat) : Py OnlineRejoinControlPlane :=
  match cp.currentState with
  | some _ => .ok cp
  | none => do
    let state ← initialState nodeCount
    .ok {cp with nodeCount := nodeCount, currentState := some state}

def inState (state : ControlPlaneState) (nodeId : Nat) (s : MembershipState) : Prop :=
  state.nodeStates.lookup nodeId = some s
instance (state nodeId s) : Decidable (inState state nodeId s) := by
  unfold inState; infer_instance

def rebuildRepairLogs (cp : OnlineRejoinControlPlane) (snapshots : List RepairSnapshot) :
    Py OnlineRejoinControlPlane := do
  let state ← require cp.currentState
  let repairTargets := state.nodeStates.keys.filter
    (fun i => inState state i .recovering ∨ inState state i .rejoinPending)
  if repairTargets = ∅ then
    if state.repairLogs.keys = ∅ then .ok cp
    else
      .ok {cp with currentState := some ⟨state.installedConfig,state.nodeStates,state.pendingConfig,∅⟩}
  else
    let repairPrefix := selectRepairPrefix snapshots
    if repairPrefix.entries = [] then .ok cp
    else
      let repairLogs := Dict.tabulate (Dict.sortedIds repairTargets) (fun _ => repairPrefix)
      .ok
        { cp with
          currentState :=
            some ⟨state.installedConfig,state.nodeStates,state.pendingConfig,repairLogs⟩ }

def futureMembers (cp : OnlineRejoinControlPlane) (pending : PendingConfig) : Finset Nat :=
  (Finset.range cp.nodeCount).filter (fun i => pending.membersBitmap.testBit i)

def episodeActive (cp : OnlineRejoinControlPlane) : Prop :=
  cp.episodeTargets.Nonempty ∨ cp.pendingFuture.isSome ∨ cp.activeEpisodeId.isSome
instance (cp : OnlineRejoinControlPlane) : Decidable cp.episodeActive := by
  unfold episodeActive; infer_instance

def markNodeFailed (cp : OnlineRejoinControlPlane) (nodeId : Nat) : Py OnlineRejoinControlPlane := do
  let state ← require cp.currentState
  if inState state nodeId .failed then .ok cp
  else
    .ok {cp with currentState := some {state with nodeStates := state.nodeStates.insert nodeId .failed}}

def beginCollectionWindow (cp : OnlineRejoinControlPlane) (currentTimeNs : Int) :
    OnlineRejoinControlPlane :=
  if cp.collectingTargets.Nonempty ∨ cp.episodeActive then cp
  else if cp.queuedInterruptions.keys = ∅ then cp
  else
    { cp with
      collectingTargets := cp.queuedInterruptions.keys
      queuedInterruptions := ∅
      collectionDeadlineNs := some (currentTimeNs + cp.timing.cpCollectionDelayNs) }

def episodeMembers (cp : OnlineRejoinControlPlane) (state : ControlPlaneState) : Finset Nat :=
  state.nodeStates.keys.filter (fun i => inState state i .active) ∪ cp.episodeTargets

def scheduleEpisode (cp : OnlineRejoinControlPlane) : Py OnlineRejoinControlPlane := do
  let deadline ← require cp.collectionDeadlineNs
  let episode := some cp.nextEpisodeId
  let cp := {cp with activeEpisodeId := episode, nextEpisodeId := cp.nextEpisodeId + 1}
  let state ← require cp.currentState
  let membersBitmap ← bitmapSet cp.nodeCount (Dict.sortedIds (cp.episodeMembers state))
  let cp := {cp with episodeMembersBitmap := some membersBitmap}
  let repairStart := deadline + cp.timing.cpDecisionDelayNs
  let prepareAt := repairStart + cp.timing.repairDelayNs
  let prepareRound ← floorDiv prepareAt cp.timing.roundLengthNs
  let cp := {cp with prepareRound := some (prepareRound + 1)}
  let cp := cp.scheduleAction repairStart .markRecovering episode
  let cp := cp.scheduleAction prepareAt .prepareOnlineRejoin episode
  .ok (cp.scheduleAction (prepareAt + cp.timing.installDelayNs) .abortOnlineRejoin episode)

def closeCollectionWindowIfDue (cp : OnlineRejoinControlPlane) (currentTimeNs : Int) :
    Py OnlineRejoinControlPlane :=
  match cp.collectionDeadlineNs with
  | none => .ok cp
  | some deadline =>
    if currentTimeNs < deadline then .ok cp
    else if cp.collectingTargets = ∅ then .ok {cp with collectionDeadlineNs := none}
    else do
      let _ ← require cp.currentState
      let cp := {cp with episodeTargets := cp.collectingTargets, collectingTargets := ∅}
      let cp ← cp.scheduleEpisode
      .ok {cp with collectionDeadlineNs := none}

def nodeStatesWithTargets (cp : OnlineRejoinControlPlane) (state : ControlPlaneState)
    (targetState : MembershipState) : Map Nat MembershipState :=
  Dict.setAll state.nodeStates (Dict.sortedIds cp.episodeTargets) targetState

def clearEpisodeState (cp : OnlineRejoinControlPlane) : OnlineRejoinControlPlane :=
  { cp with
    episodeTargets := ∅
    activeEpisodeId := none
    episodeMembersBitmap := none
    prepareRound := none
    prepareAcks := ∅
    scheduled :=
      match cp.activeEpisodeId with
      | none => cp.scheduled
      | some cleared => cp.scheduled.filter (fun item => item.episodeId ≠ some cleared) }

def installPendingFuture (cp : OnlineRejoinControlPlane) (pending : PendingConfig) :
    Py OnlineRejoinControlPlane := do
  let state ← require cp.currentState
  .ok
    { cp with
      pendingFuture := some pending
      currentState := some {state with pendingConfig := some pending} }

def updateNodeStates (cp : OnlineRejoinControlPlane) (nodeStates : Map Nat MembershipState)
    (pendingConfig : Option PendingConfig := none) : Py OnlineRejoinControlPlane := do
  let state ← require cp.currentState
  .ok
    { cp with
      currentState := some
        {state with nodeStates := nodeStates, pendingConfig := pendingConfig} }

def applyMarkRecovering (cp : OnlineRejoinControlPlane) (atNs : Int) : Py OnlineRejoinControlPlane := do
  let state ← require cp.currentState
  assertThat cp.episodeTargets.Nonempty
  let cp ← cp.updateNodeStates (cp.nodeStatesWithTargets state .recovering) state.pendingConfig
  .ok (cp.recordAppliedAction
    ⟨atNs,.scheduled .markRecovering,Dict.sortedIds cp.episodeTargets,none,none⟩)

def applyPrepare (cp : OnlineRejoinControlPlane) (atNs : Int) : Py OnlineRejoinControlPlane := do
  let state ← require cp.currentState
  let prepareRound ← require cp.prepareRound
  let membersBitmap ← require cp.episodeMembersBitmap
  let pending : PendingConfig :=
    { membershipEpoch := state.installedConfig.membershipEpoch + 1
      membersBitmap := membersBitmap
      effectiveRound := prepareRound + cp.cutoverSlackRounds
      runId := state.installedConfig.runId + 1
      status := .prepared }
  let cp := {cp with prepareAcks := ∅}
  let cp ← cp.installPendingFuture pending
  let state ← require cp.currentState
  let cp ← cp.updateNodeStates (cp.nodeStatesWithTargets state .rejoinPending) (some pending)
  .ok (cp.recordAppliedAction
    ⟨atNs,.scheduled .prepareOnlineRejoin,Dict.sortedIds cp.episodeTargets,some membersBitmap,
      some pending.effectiveRound⟩)

def applyCommit (cp : OnlineRejoinControlPlane) (atNs : Int) : Py OnlineRejoinControlPlane :=
  match cp.pendingFuture with
  | none => .ok cp
  | some future => do
    let commitRound ← floorDiv atNs cp.timing.roundLengthNs
    let commitVisibleRound := commitRound + 1
    let committed :=
      { future with
        effectiveRound := max future.effectiveRound (commitVisibleRound + 1)
        status := .committed }
    let cp ← cp.installPendingFuture committed
    .ok (cp.recordAppliedAction
      ⟨atNs,.scheduled .commitOnlineRejoin,Dict.sortedIds cp.episodeTargets,none,
        some committed.effectiveRound⟩)

def applyAbort (cp : OnlineRejoinControlPlane) (atNs : Int) : Py OnlineRejoinControlPlane := do
  let state ← require cp.currentState
  match cp.pendingFuture with
  | none => .ok cp
  | some future =>
    if future.status ≠ .prepared then .ok cp
    else
      let retryTargets := cp.episodeTargets ∪ cp.queuedInterruptions.keys
      let updatedStates := Dict.tabulate (List.range cp.nodeCount)
        (fun i => if i ∈ retryTargets then MembershipState.failed else .active)
      let cp := {cp with currentState := some ⟨state.installedConfig,updatedStates,none,∅⟩}
      let cp := cp.recordAppliedAction
        ⟨atNs,.scheduled .abortOnlineRejoin,Dict.sortedIds cp.episodeTargets,none,none⟩
      let queued := (Dict.sortedIds retryTargets).foldl
        (fun queued i => Dict.setdefault queued i atNs) cp.queuedInterruptions
      let cp := {cp with queuedInterruptions := queued, pendingFuture := none}
      .ok (cp.clearEpisodeState.beginCollectionWindow atNs)

def applyAction (cp : OnlineRejoinControlPlane) (item : ScheduledAction) : Py OnlineRejoinControlPlane := do
  let _ ← require cp.currentState
  assertThat (cp.nodeCount > 0)
  if item.episodeId ≠ none ∧ item.episodeId ≠ cp.activeEpisodeId then .ok cp
  else
    match item.action with
    | .markRecovering => cp.applyMarkRecovering item.timeNs
    | .prepareOnlineRejoin => cp.applyPrepare item.timeNs
    | .commitOnlineRejoin => cp.applyCommit item.timeNs
    | .abortOnlineRejoin => cp.applyAbort item.timeNs

def cutoverDue (cp : OnlineRejoinControlPlane) (roundId : Int) : Option PendingConfig :=
  match cp.pendingFuture with
  | none => none
  | some future =>
    if future.status ≠ .committed then none
    else if roundId < future.effectiveRound then none
    else some future

def maybeActivateCutover (cp : OnlineRejoinControlPlane) (roundId : Int) : OnlineRejoinControlPlane :=
  match cp.cutoverDue roundId with
  | none => cp
  | some future =>
    let installed : InstalledConfig := ⟨future.membershipEpoch,future.membersBitmap,future.runId⟩
    let nodeStates := Dict.tabulate (List.range cp.nodeCount)
      (fun i => if future.membersBitmap.testBit i then MembershipState.active else .failed)
    let startNs := roundId * cp.timing.roundLengthNs
    let cp := {cp with currentState := some ⟨installed,nodeStates,none,∅⟩}
    let cp := cp.recordAppliedAction
      ⟨startNs,.activateOnlineRejoin,Dict.sortedIds cp.episodeTargets,none,some future.effectiveRound⟩
    let cp := {cp with pendingFuture := none}
    cp.clearEpisodeState.beginCollectionWindow startNs

def collects (cp : OnlineRejoinControlPlane) (availableAtNs : Int) : Prop :=
  (∃ deadline ∈ cp.collectionDeadlineNs, availableAtNs ≤ deadline) ∧ cp.episodeTargets = ∅
instance (cp : OnlineRejoinControlPlane) (availableAtNs) : Decidable (cp.collects availableAtNs) := by
  unfold collects; infer_instance

def noteInterruption (cp : OnlineRejoinControlPlane) (target : Nat) (availableAtNs : Int) :
    Py OnlineRejoinControlPlane := do
  let cp ← cp.markNodeFailed target
  if cp.collects availableAtNs then
    .ok {cp with collectingTargets := insert target cp.collectingTargets}
  else
    let cp :=
      {cp with queuedInterruptions := Dict.setdefault cp.queuedInterruptions target availableAtNs}
    .ok (cp.beginCollectionWindow availableAtNs)

-- An acknowledgement counts when it names the pending run id and effective round.
def acknowledges (event : ControlPlaneEvent) (pending : PendingConfig) : Prop :=
  let config := event.config.getD {}
  config.runId.getD (-1) = pending.runId ∧ config.effectiveRound.getD (-1) = pending.effectiveRound
instance (event pending) : Decidable (acknowledges event pending) := by
  unfold acknowledges; infer_instance

def commitScheduled (cp : OnlineRejoinControlPlane) : Prop :=
  ∃ item ∈ cp.scheduled, item.action = .commitOnlineRejoin ∧ item.episodeId = cp.activeEpisodeId
instance (cp : OnlineRejoinControlPlane) : Decidable cp.commitScheduled := by
  unfold commitScheduled; infer_instance

def notePrepareAck (cp : OnlineRejoinControlPlane) (event : ControlPlaneEvent)
    (pending : PendingConfig) : OnlineRejoinControlPlane :=
  if acknowledges event pending then
    let cp := {cp with prepareAcks := insert event.nodeId cp.prepareAcks}
    if cp.futureMembers pending ⊆ cp.prepareAcks then
      let cp := {cp with lastPrepareAcks := cp.prepareAcks}
      if cp.commitScheduled then cp
      else
        cp.scheduleAction (event.availableAtNs + cp.timing.cpDecisionDelayNs) .commitOnlineRejoin
          cp.activeEpisodeId
    else cp
  else cp

def drain (cp : OnlineRejoinControlPlane) (timeNs : Int) : Py OnlineRejoinControlPlane :=
  let ready := cp.scheduled.filter (fun item => item.timeNs ≤ timeNs)
  let cp := {cp with scheduled := cp.scheduled.filter (fun item => timeNs < item.timeNs)}
  (ready.insertionSort ScheduledAction.le).foldlM applyAction cp

def advanceToTime (cp : OnlineRejoinControlPlane) (snapshots : List RepairSnapshot)
    (timeNs : Int) (nodeCount : Nat) : Py OnlineRejoinControlPlane := do
  let cp ← cp.ensureState nodeCount
  let cp ← (cp.beginCollectionWindow timeNs).closeCollectionWindowIfDue timeNs
  let cp ← cp.drain timeNs
  let cp ← (cp.beginCollectionWindow timeNs).closeCollectionWindowIfDue timeNs
  cp.rebuildRepairLogs snapshots

def observeEvent (cp : OnlineRejoinControlPlane) (event : ControlPlaneEvent) :
    Py OnlineRejoinControlPlane :=
  let cp := {cp with observedEvents := cp.observedEvents ++ [event]}
  match event.kind with
  | .nodeCrashed | .nodeHalted => cp.noteInterruption event.nodeId event.availableAtNs
  | .prepareAck =>
    match cp.pendingFuture with
    | none => .ok cp
    | some pending =>
      if pending.status ≠ .prepared then .ok cp else .ok (cp.notePrepareAck event pending)
  | .other _ => .ok cp

def call (cp : OnlineRejoinControlPlane) (snapshots : List RepairSnapshot) (roundId : Int)
    (nodeCount : Nat) : Py OnlineRejoinControlPlane := do
  let cp ← cp.ensureState nodeCount
  (cp.maybeActivateCutover roundId).rebuildRepairLogs snapshots

end OnlineRejoinControlPlane
end Syncons
