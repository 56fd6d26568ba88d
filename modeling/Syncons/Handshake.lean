import Syncons.Histories

/-! The installed configuration along a run: a config is prepared, acknowledged by
every member while it is prepared, committed, and installed at its effective round.
The invariant of a run keeps the moves at which each of these happened. -/
namespace Syncons
open Outcome Runs

namespace OnlineRejoinControlPlane

variable {slack : Int} {timing : SimulationTiming} {nodeCount : Nat}
  {cp cp' mid : OnlineRejoinControlPlane} {state state' : ControlPlaneState} {op : Op}
  {moves pre post since : List (Move OnlineRejoinControlPlane Op)}
  {m : Move OnlineRejoinControlPlane Op} {prepared committed : PendingConfig} {id : Nat}

def installedConfig (cp : OnlineRejoinControlPlane) : Option InstalledConfig :=
  cp.currentState.map ControlPlaneState.installedConfig

def PreparedSince (moves : List (Move OnlineRejoinControlPlane Op)) (prepared : PendingConfig)
    (since : List (Move OnlineRejoinControlPlane Op)) : Prop :=
  ∃ before p, moves = before ++ p :: since ∧ p.before.pendingFuture = none ∧
    p.after.pendingFuture = some prepared ∧ prepared.status = .prepared ∧
    ∀ x ∈ since, x.after.pendingFuture = some prepared

def AckedIn (since : List (Move OnlineRejoinControlPlane Op)) (prepared : PendingConfig) (i : Nat) : Prop :=
  ∃ x ∈ since, ∃ event, x.op = .observe event ∧ event.kind = .prepareAck ∧ event.nodeId = i ∧
    acknowledges event prepared

structure CommittedAt (nodeCount : Nat) (start : List (Move OnlineRejoinControlPlane Op))
    (c : Move OnlineRejoinControlPlane Op) (committed : PendingConfig) : Prop where
  next : c.after.pendingFuture = some committed
  status : committed.status = .committed
  handshake : ∃ prepared since, PreparedSince start prepared since ∧
    committed = {prepared with effectiveRound := committed.effectiveRound, status := .committed} ∧
    prepared.effectiveRound ≤ committed.effectiveRound ∧
    ∀ i < nodeCount, prepared.membersBitmap.testBit i = true → AckedIn since prepared i

def CommittedSince (nodeCount : Nat) (moves : List (Move OnlineRejoinControlPlane Op))
    (committed : PendingConfig) : Prop :=
  ∃ start c since, moves = start ++ c :: since ∧ CommittedAt nodeCount start c committed ∧
    ∀ x ∈ since, x.after.pendingFuture = some committed

inductive PendingStep (m : Move OnlineRejoinControlPlane Op) : Prop where
  | kept (pending : m.after.pendingFuture = m.before.pendingFuture)
      (acks : ∀ prepared ∈ m.before.pendingFuture, ∀ i ∈ m.after.prepareAcks,
        i ∈ m.before.prepareAcks ∨ AckedIn [m] prepared i)
  | prepared {future : PendingConfig} (idle : m.before.pendingFuture = none)
      (pending : m.after.pendingFuture = some future) (status : future.status = .prepared)
      (acks : m.after.prepareAcks = ∅)
  | committed {future : PendingConfig} {atNs : Int} (pending : m.before.pendingFuture = some future)
      (prepared : future.status = .prepared)
      (acked : m.before.futureMembers future ⊆ m.before.prepareAcks)
      (next : m.after.pendingFuture = some (m.before.committedConfig future atNs))
  | cleared (next : m.after.pendingFuture = none)

theorem beganPending (cp : OnlineRejoinControlPlane) (nowNs : Int) :
    (cp.beginCollectionWindow nowNs).pendingFuture = cp.pendingFuture ∧
    (cp.beginCollectionWindow nowNs).prepareAcks = cp.prepareAcks ∧
    (cp.beginCollectionWindow nowNs).currentState = cp.currentState ∧
    (cp.beginCollectionWindow nowNs).nextEpisodeId = cp.nextEpisodeId ∧
    (cp.beginCollectionWindow nowNs).activeEpisodeId = cp.activeEpisodeId := by
  rcases beginCollectionWindowCases cp nowNs with same | ⟨_,_,_,same⟩ <;> rw [same] <;>
    exact ⟨rfl,rfl,rfl,rfl,rfl⟩

theorem effectPending (h : Effect cp state op cp' state') : PendingStep ⟨cp,op,cp'⟩ := by
  have still {a b : OnlineRejoinControlPlane} (pending : b.pendingFuture = a.pendingFuture)
      (acks : b.prepareAcks = a.prepareAcks) : PendingStep ⟨a,op,b⟩ :=
    .kept pending (fun _ _ i member => Or.inl (acks ▸ member))
  cases op with
  | advance snapshots timeNs =>
    obtain ⟨_,move,_⟩ := h
    cases move with
    | kept same keep =>
      refine .kept same ?_
      intro prepared held i member
      exact Or.inl (keep (Option.isSome_of_mem held) ▸ member)
    | prepared idle pending status acks => exact .prepared idle pending status acks
    | committed pending status acked planned kind due next => exact .committed pending status acked next
    | aborted pending status next => exact .cleared next
  | call snapshots roundId =>
    cases h with
    | quiet early rebuilt => exact still rfl rfl
    | cutover pending committed due rebuilt => exact .cleared (beganPending _ _).1
  | observe event =>
    cases h with
    | ignored other => exact still rfl rfl
    | acked kind held status acked =>
      obtain ⟨names,last,extra,rfl,_⟩ := acked
      refine .kept rfl ?_
      intro prepared some i member
      cases Option.some.inj (held.symm.trans some)
      rcases Finset.mem_insert.mp member with rfl | old
      · exact Or.inr ⟨_,List.mem_singleton.mpr rfl,event,rfl,kind,rfl,names⟩
      · exact Or.inl old
    | collected kind collects => exact still rfl rfl
    | queued kind late =>
      obtain ⟨pending,acks,_⟩ :=
        beganPending ((cp.observed event).queuedUp state event.nodeId event.availableAtNs)
          event.availableAtNs
      exact still pending acks

theorem pendingReplaced {old new : PendingConfig} (step : PendingStep m)
    (before : m.before.pendingFuture = some old) (after : m.after.pendingFuture = some new)
    (changed : new ≠ old) :
    old.status = .prepared ∧ old.effectiveRound ≤ new.effectiveRound ∧
      new = {old with effectiveRound := new.effectiveRound, status := .committed} := by
  cases step with
  | kept same acks => exact absurd (Option.some.inj (after.symm.trans (same.trans before))) changed
  | prepared idle _ _ _ => simp [idle] at before
  | committed pending status _ next =>
    cases Option.some.inj (pending.symm.trans before)
    cases Option.some.inj (next.symm.trans after)
    exact ⟨status,Int.le_max_left _ _,rfl⟩
  | cleared next => simp [next] at after

theorem preparedSinceMore (h : PreparedSince moves prepared since)
    (same : m.after.pendingFuture = some prepared) : PreparedSince (moves ++ [m]) prepared (since ++ [m]) := by
  obtain ⟨before,p,rfl,idle,next,status,kept⟩ := h
  refine ⟨before,p,by simp,idle,next,status,?_⟩
  intro x member
  rcases List.mem_append.mp member with old | last
  · exact kept x old
  · rw [List.mem_singleton.mp last]
    exact same

theorem committedSinceMore (h : CommittedSince nodeCount moves committed)
    (same : m.after.pendingFuture = some committed) : CommittedSince nodeCount (moves ++ [m]) committed := by
  obtain ⟨start,c,since,rfl,at',kept⟩ := h
  refine ⟨start,c,since ++ [m],by simp,at',?_⟩
  intro x member
  rcases List.mem_append.mp member with old | last
  · exact kept x old
  · rw [List.mem_singleton.mp last]
    exact same

structure Handshaking (nodeCount : Nat) (moves : List (Move OnlineRejoinControlPlane Op))
    (cp : OnlineRejoinControlPlane) : Prop where
  prepared : ∀ pending ∈ cp.pendingFuture, pending.status = .prepared →
    ∃ since, PreparedSince moves pending since ∧ ∀ i ∈ cp.prepareAcks, AckedIn since pending i
  committed : ∀ pending ∈ cp.pendingFuture, pending.status = .committed →
    CommittedSince nodeCount moves pending

theorem handshakingStep (h : Handshaking nodeCount moves m.before) (count : m.before.nodeCount = nodeCount)
    (step : PendingStep m) : Handshaking nodeCount (moves ++ [m]) m.after := by
  cases step with
  | kept same acks =>
    constructor
    · intro pending held status
      have before : m.before.pendingFuture = some pending := same.symm.trans held
      obtain ⟨since,prepared,acked⟩ := h.prepared pending before status
      refine ⟨since ++ [m],preparedSinceMore prepared held,?_⟩
      intro i member
      rcases acks pending before i member with old | ⟨x,last,rest⟩
      · obtain ⟨x,inside,rest⟩ := acked i old
        exact ⟨x,List.mem_append_left _ inside,rest⟩
      · exact ⟨x,List.mem_append_right _ last,rest⟩
    · intro pending held status
      exact committedSinceMore (h.committed pending (same.symm.trans held) status) held
  | @prepared future idle next status acks =>
    constructor
    · intro pending held _
      cases Option.some.inj (next.symm.trans held)
      exact ⟨[],⟨moves,m,rfl,idle,next,status,by simp⟩,by simp [acks]⟩
    · intro pending held decided
      cases Option.some.inj (next.symm.trans held)
      simp [status] at decided
  | @committed future atNs pending status acked next =>
    constructor
    · intro other held prepared
      cases Option.some.inj (next.symm.trans held)
      simp [committedConfig] at prepared
    · intro other held _
      cases Option.some.inj (next.symm.trans held)
      obtain ⟨since,prepared,every⟩ := h.prepared future pending status
      refine ⟨moves,m,[],rfl,⟨next,rfl,future,since,prepared,rfl,Int.le_max_left _ _,?_⟩,by simp⟩
      intro i bound bit
      apply every i
      apply acked
      simp [futureMembers,count,bound,bit]
  | cleared next =>
    constructor <;> intro pending held <;> simp [next] at held

theorem ranHandshaking (ran : Ran (runs slack timing nodeCount) moves cp) :
    Handshaking nodeCount moves cp := by
  induction ran with
  | @start cp h =>
    obtain ⟨first,_,ready,initial⟩ := initialMeets slack timing nodeCount
    have same : first = cp := Except.ok.inj (ready.symm.trans h)
    subst same
    constructor <;> intro pending held <;> simp [initial.pending] at held
  | @move moves s op s' before h ih =>
    obtain ⟨_,_,_,_,effect⟩ := stepEffect (ranSound before) h
    have step : PendingStep ⟨s,op,s'⟩ := effectPending effect
    exact handshakingStep ih (ranSound before).nodeCount step

theorem effectInstalled (h : Effect cp state op cp' state') :
    state'.installedConfig = state.installedConfig ∨
    ∃ snapshots roundId future, op = .call snapshots roundId ∧ cp.pendingFuture = some future ∧
      future.status = .committed ∧ future.effectiveRound ≤ roundId ∧
      state'.installedConfig = ⟨future.membershipEpoch,future.membersBitmap,future.runId⟩ := by
  cases op with
  | advance snapshots timeNs => exact Or.inl h.1.installed
  | call snapshots roundId =>
    cases h with
    | quiet early rebuilt => exact Or.inl rfl
    | cutover pending status due rebuilt =>
      exact Or.inr ⟨snapshots,roundId,_,rfl,pending,status,due,rfl⟩
  | observe event =>
    cases h with
    | ignored other => exact Or.inl rfl
    | acked kind held status acked => exact Or.inl rfl
    | collected kind collects => exact Or.inl (failedInstalled state event.nodeId).1
    | queued kind late => exact Or.inl (failedInstalled state event.nodeId).1

structure Handshake (nodeCount : Nat) (pre : List (Move OnlineRejoinControlPlane Op))
    (m : Move OnlineRejoinControlPlane Op) : Prop where
  cutover : ∃ snapshots roundId committed config, m.op = .call snapshots roundId ∧
    m.before.installedConfig = some config ∧ CommittedSince nodeCount pre committed ∧
    committed.effectiveRound ≤ roundId ∧
    committed.membershipEpoch = config.membershipEpoch + 1 ∧ committed.runId = config.runId + 1 ∧
    m.after.installedConfig =
      some ⟨committed.membershipEpoch,committed.membersBitmap,committed.runId⟩

theorem installedByHandshake (ran : Ran (runs slack timing nodeCount) (pre ++ m :: post) cp)
    (changed : m.after.installedConfig ≠ m.before.installedConfig) : Handshake nodeCount pre m := by
  obtain ⟨before,step,_⟩ := ranAt ran
  obtain ⟨state,state',coherent,coherent',effect⟩ := stepEffect (ranSound before) step
  have was : m.before.installedConfig = some state.installedConfig := by
    simp only [installedConfig,coherent.tracked.current,Option.map_some]
  have now : m.after.installedConfig = some state'.installedConfig := by
    simp only [installedConfig,coherent'.tracked.current,Option.map_some]
  have new : state'.installedConfig ≠ state.installedConfig := by
    intro same
    exact changed (by rw [was,now,same])
  rcases effectInstalled effect with same | ⟨snapshots,roundId,future,call,pending,status,due,installed⟩
  · exact absurd same new
  · obtain ⟨epoch,run,_⟩ := coherent.configured.next future pending
    exact ⟨snapshots,roundId,future,state.installedConfig,call,was,
      (ranHandshaking before).committed future pending status,due,epoch,run,by rw [now,installed]⟩

section Episodes

theorem effectRetired (h : Effect cp state op cp' state') (old : cp.retired id) : cp'.retired id := by
  cases op with
  | advance snapshots timeNs => exact h.1.retired id old
  | call snapshots roundId =>
    cases h with
    | quiet early rebuilt => exact old
    | @cutover future pending committed due rebuilt =>
      obtain ⟨_,_,_,next,active⟩ := beganPending (cp.afterCutover roundId future)
        (roundId * cp.timing.roundLengthNs)
      refine ⟨?_,?_⟩
      · change id < ((cp.afterCutover roundId future).beginCollectionWindow _).nextEpisodeId
        rw [next]
        exact old.1
      · change ((cp.afterCutover roundId future).beginCollectionWindow _).activeEpisodeId ≠ _
        rw [active]
        exact nofun
  | observe event =>
    cases h with
    | ignored other => exact old
    | acked kind held status acked =>
      obtain ⟨_,last,extra,rfl,_⟩ := acked
      exact old
    | collected kind collects => exact old
    | queued kind late =>
      obtain ⟨_,_,_,next,active⟩ :=
        beganPending ((cp.observed event).queuedUp state event.nodeId event.availableAtNs)
          event.availableAtNs
      simp only [retired,next,active]
      exact old

theorem ranRetired (ran : Ran (runs slack timing nodeCount) (pre ++ m :: post) cp)
    (ended : m.after.retired id) : cp.retired id := by
  refine @ranOnwards _ _ _ _ _ _ _ (fun a b => a.retired id → b.retired id) (fun _ h => h)
    (fun _ _ _ f g h => g (f h)) ran ?_ ended
  intro a x b _ before step
  obtain ⟨_,_,_,_,effect⟩ := stepEffect (ranSound before) step
  exact effectRetired effect

-- One pending config, shown to the nodes, and one episode, which owns every timer.
structure Exclusive (cp : OnlineRejoinControlPlane) : Prop where
  shown : ∀ state ∈ cp.currentState, state.pendingConfig = cp.pendingFuture
  episode : cp.pendingFuture.isSome → cp.activeEpisodeId.isSome
  timers : ∀ item ∈ cp.scheduled, cp.activeEpisodeId.isSome ∧ item.episodeId = cp.activeEpisodeId

theorem coherentExclusive (h : Coherent [] cp state) : Exclusive cp where
  shown := by
    intro other held
    cases Option.some.inj (h.tracked.current.symm.trans held)
    exact h.configured.shown
  episode := h.episodic.pending
  timers := by
    intro item member
    have own := h.episodic.owned item member
    obtain ⟨id,_,numbered⟩ := h.agenda.numbered item member
    exact ⟨by simp [← own,numbered],own⟩

theorem drainRetired {timeNs : Int} {part rest : List ScheduledAction}
    (h : Draining timeNs cp state (part ++ rest) mid) (old : mid.retired id) :
    Meets (ZeroRound cp.timing) (fun last => Draining timeNs cp state rest last ∧ last.retired id)
      (part.foldlM applyAction mid) := by
  have whole := @meetsFold _ _ _ (ZeroRound cp.timing)
    (fun part s => Draining timeNs cp state (part ++ rest) s ∧ s.retired id) applyAction part mid ⟨h,old⟩
    (by
      rintro s item others ⟨draining,ended⟩
      obtain ⟨sState,coherent,evolves,_⟩ := draining.coherent
      have effects := applyActionEffect coherent
      rw [evolves.setup.1] at effects
      refine meetsMono (meetsAnd (drainingStep draining) effects) ?_
      rintro next ⟨kept,effect⟩
      obtain ⟨nextState,after,_⟩ := kept.coherent
      exact ⟨kept,(applyActionEvolves coherent effect after.tracked.current).retired id ended⟩)
  exact whole

theorem applyActionEnded {item : ScheduledAction} {ready : List ScheduledAction}
    (h : Coherent (item :: ready) cp state) (ended : cp.retired id) (numbered : item.episodeId = some id) :
    cp.applyAction item = .ok cp := by
  have populated := h.agenda.populated item (by simp)
  have other : item.episodeId ≠ none ∧ item.episodeId ≠ cp.activeEpisodeId := by
    rw [numbered]
    exact ⟨by simp,fun same => ended.2 same.symm⟩
  simp only [applyAction,require,h.tracked.current,assertThat,gt_iff_lt,populated,if_true,okBind,
    if_pos other]

/- The next advance from a state: once an episode has ended, before the advance or
at any action of its batch, the later actions of that episode change nothing. -/
def Inert (cp : OnlineRejoinControlPlane) : Prop :=
  ∀ timeNs opened first second item later ended last id,
    (cp.beginCollectionWindow timeNs).closeCollectionWindowIfDue timeNs = .ok opened →
    opened.batch timeNs = first ++ (second ++ item :: later) →
    first.foldlM applyAction (opened.popped timeNs) = .ok ended → ended.retired id →
    second.foldlM applyAction ended = .ok last →
    item.episodeId = some id → last.applyAction item = .ok last

theorem coherentInert (h : Coherent [] cp state) : Inert cp := by
  intro timeNs opened first second item later ended last id start split before retired between numbered
  have opening := meetsValue (windowMeets h timeNs) start
  have draining := drainStart opening.1 timeNs
  rw [split] at draining
  have half := meetsValue (drainPart draining) before
  obtain ⟨rest,old⟩ := meetsValue (drainRetired half retired) between
  obtain ⟨lastState,coherent,_⟩ := rest.coherent
  exact applyActionEnded coherent old numbered

theorem configsAdvanceByHandshake (ran : Ran (runs slack timing nodeCount) moves cp) :
    (∀ pre m post, moves = pre ++ m :: post →
      m.after.installedConfig ≠ m.before.installedConfig → Handshake nodeCount pre m) ∧
    (∀ pre m post old new, moves = pre ++ m :: post → m.before.pendingFuture = some old →
      m.after.pendingFuture = some new → new ≠ old →
        old.status = .prepared ∧ old.effectiveRound ≤ new.effectiveRound ∧
        new = {old with effectiveRound := new.effectiveRound, status := .committed}) ∧
    (∀ pre m post id, moves = pre ++ m :: post → m.after.retired id →
      cp.retired id ∧ ∀ item ∈ cp.scheduled, item.episodeId ≠ some id) ∧
    Exclusive cp ∧ Inert cp := by
  obtain ⟨state,coherent⟩ := (ranSound ran).coherent
  have exclusive := coherentExclusive coherent
  refine ⟨?_,?_,?_,exclusive,coherentInert coherent⟩
  · intro pre m post split changed
    exact installedByHandshake (split ▸ ran) changed
  · intro pre m post old new split before after changed
    obtain ⟨upTo,step,_⟩ := ranAt (split ▸ ran)
    obtain ⟨_,_,_,_,effect⟩ := stepEffect (ranSound upTo) step
    exact pendingReplaced (effectPending effect) before after changed
  · intro pre m post id split ended
    have retired := ranRetired (split ▸ ran) ended
    refine ⟨retired,?_⟩
    intro item member same
    exact retired.2 ((exclusive.timers item member).2.symm.trans same)

def ackOf (nodeId : Nat) (runId effectiveRound round availableAtNs : Int) : ControlPlaneEvent :=
  ⟨⟨.prepareAck,nodeId,some {runId := some runId, effectiveRound := some effectiveRound},none⟩,
    some round,availableAtNs⟩

def crashOf (nodeId : Nat) (round availableAtNs : Int) : ControlPlaneEvent :=
  ⟨⟨.nodeCrashed,nodeId,none,none⟩,some round,availableAtNs⟩

-- The only node crashes, is prepared, acknowledges, and rejoins at round 34.
def rejoined : List Op :=
  [.advance [] 0,.observe (crashOf 0 0 10000),.advance [] 32000,.advance [] 96000,
    .observe (ackOf 0 1 34 24 96000),.advance [] 112000,.call [] 34]

theorem rejoinedOnce :
    ∃ moves cp, Ran (runs 10 {} 1) moves cp ∧ cp.installedConfig = some ⟨1,1,1⟩ := by
  have value : (recorded 10 {} 1 rejoined).toOption.map (fun r => r.2.installedConfig) =
      some (some ⟨1,1,1⟩) := by decide +kernel
  obtain ⟨⟨moves,cp⟩,done,installed⟩ := okFound value
  exact ⟨moves,cp,recordedRan (by decide) done,installed⟩

theorem configsAdvanceByHandshakeOnce :
    ∃ moves cp, Ran (runs 10 {} 1) moves cp ∧ cp.installedConfig = some ⟨1,1,1⟩ ∧
      (∀ pre m post, moves = pre ++ m :: post →
        m.after.installedConfig ≠ m.before.installedConfig → Handshake 1 pre m) ∧
      (∀ pre m post old new, moves = pre ++ m :: post → m.before.pendingFuture = some old →
        m.after.pendingFuture = some new → new ≠ old →
          old.status = .prepared ∧ old.effectiveRound ≤ new.effectiveRound ∧
          new = {old with effectiveRound := new.effectiveRound, status := .committed}) ∧
      (∀ pre m post id, moves = pre ++ m :: post → m.after.retired id →
        cp.retired id ∧ ∀ item ∈ cp.scheduled, item.episodeId ≠ some id) ∧
      Exclusive cp ∧ Inert cp := by
  obtain ⟨moves,cp,ran,installed⟩ := rejoinedOnce
  exact ⟨moves,cp,ran,installed,configsAdvanceByHandshake ran⟩

end Episodes

end OnlineRejoinControlPlane
end Syncons
