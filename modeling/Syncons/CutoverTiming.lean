import Syncons.Cutover

/-! How soon a cutover can come. An episode that collects interruptions reported from time
`reported` on is prepared after the collection, decision and repair delays have passed, and
its config takes effect the cutover slack later. -/
namespace Syncons
open Outcome Runs

namespace OnlineRejoinControlPlane

variable {reported : Int} {slack : Int} {timing : SimulationTiming} {nodeCount : Nat}
  {cp cp' mid : OnlineRejoinControlPlane} {state state' : ControlPlaneState} {op : Op}
  {ready agenda : List ScheduledAction} {snapshots : List RepairSnapshot} {nowNs : Int}
  {moves : List (Move OnlineRejoinControlPlane Op)}

-- The round after the prepare action of the earliest episode.
def firstPrepareRound (timing : SimulationTiming) (reported : Int) : Int :=
  (reported + timing.cpCollectionDelayNs + timing.cpDecisionDelayNs + timing.repairDelayNs).fdiv
    timing.roundLengthNs + 1

-- A positive round length, and no delay that runs backwards.
structure Forward (timing : SimulationTiming) (slack : Int) : Prop where
  length : 0 < timing.roundLengthNs
  collection : 0 ≤ timing.cpCollectionDelayNs
  decision : 0 ≤ timing.cpDecisionDelayNs
  repair : 0 ≤ timing.repairDelayNs
  install : 0 ≤ timing.installDelayNs
  slack : 0 ≤ slack

structure Dated (reported : Int) (agenda : List ScheduledAction) (cp : OnlineRejoinControlPlane) :
    Prop where
  forward : Forward cp.timing cp.cutoverSlackRounds
  deadline : ∀ d ∈ cp.collectionDeadlineNs, reported + cp.timing.cpCollectionDelayNs ≤ d
  aborts : ∀ item ∈ agenda, item.action = .abortOnlineRejoin → reported ≤ item.timeNs
  round : ∀ r ∈ cp.prepareRound, firstPrepareRound cp.timing reported ≤ r
  pending : ∀ future ∈ cp.pendingFuture,
    firstPrepareRound cp.timing reported + cp.cutoverSlackRounds ≤ future.effectiveRound

-- Nothing is queued while no window is open and no episode runs.
def Attended (cp : OnlineRejoinControlPlane) : Prop :=
  cp.queuedInterruptions.keys.Nonempty → cp.collectingTargets.Nonempty ∨ cp.activeEpisodeId.isSome

structure Paced (reported : Int) (ready : List ScheduledAction) (cp : OnlineRejoinControlPlane) :
    Prop where
  dated : Dated reported (ready ++ cp.scheduled) cp
  attended : Attended cp

theorem floorGrows {a b : Int} (positive : 0 < timing.roundLengthNs) (le : a ≤ b) :
    a.fdiv timing.roundLengthNs ≤ b.fdiv timing.roundLengthNs := by
  rw [Int.fdiv_eq_ediv_of_nonneg _ positive.le,Int.fdiv_eq_ediv_of_nonneg _ positive.le]
  exact Int.ediv_le_ediv positive le

theorem beganPaced (episode : ¬ cp.episodeActive ↔ cp.activeEpisodeId = none)
    (dated : Dated reported (ready ++ cp.scheduled) cp) (due : Attended cp ∨ reported ≤ nowNs) :
    Paced reported ready (cp.beginCollectionWindow nowNs) := by
  unfold beginCollectionWindow
  split
  · rename_i open'
    refine ⟨dated,fun _ => open'.imp id (fun running => ?_)⟩
    exact Option.isSome_iff_ne_none.mpr (fun none => episode.mpr none running)
  · rename_i quiet
    split
    · rename_i empty
      exact ⟨dated,fun some => absurd empty some.ne_empty⟩
    · rename_i some
      have idle : cp.activeEpisodeId = none := episode.mp (fun running => quiet (Or.inr running))
      have late : reported ≤ nowNs := by
        rcases due with attended | late
        · rcases attended (Finset.nonempty_iff_ne_empty.mpr some) with collecting | running
          · exact absurd (Or.inl collecting) quiet
          · simp [idle] at running
        · exact late
      refine ⟨⟨dated.forward,?_,dated.aborts,dated.round,dated.pending⟩,fun none => ?_⟩
      · intro d held
        cases Option.some.inj held
        exact Int.add_le_add_right late _
      · simp at none

theorem openedPaced (h : Paced reported ready cp) {deadline : Int} {bitmap : Nat}
    (due : cp.collectionDeadlineNs = some deadline) :
    Paced reported ready (cp.openEpisode deadline bitmap) := by
  obtain ⟨⟨forward,deadlines,aborts,round,pending⟩,attended⟩ := h
  have late := deadlines deadline due
  have decision := forward.decision
  have repair := forward.repair
  have install := forward.install
  have collection := forward.collection
  refine ⟨⟨forward,by simp [openEpisode],?_,?_,pending⟩,fun _ => Or.inr rfl⟩
  · intro item member kind
    simp only [openEpisode,← List.append_assoc,List.mem_append] at member
    rcases member with old | new
    · exact aborts item (List.mem_append.mpr old) kind
    · simp only [List.mem_cons,List.not_mem_nil,or_false] at new
      rcases new with rfl | rfl | rfl
      · simp at kind
      · simp at kind
      · dsimp only
        omega
  · intro r held
    cases Option.some.inj held
    refine Int.add_le_add_right (floorGrows forward.length ?_) _
    dsimp only [openEpisode]
    omega

theorem closedPaced (h : Coherent ready cp state) (paced : Paced reported ready cp) :
    Meets (ZeroRound cp.timing) (Paced reported ready) (cp.closeCollectionWindowIfDue nowNs) := by
  refine meetsMono (closeCollectionWindowCases h nowNs) ?_
  rintro cp' (rfl | ⟨_,rfl⟩ | ⟨deadline,bitmap,due,_,_,_,rfl⟩)
  · exact paced
  · exact ⟨⟨paced.dated.forward,by simp,paced.dated.aborts,paced.dated.round,paced.dated.pending⟩,
      paced.attended⟩
  · exact openedPaced paced due

theorem windowPaced (h : Coherent [] cp state) (paced : Paced reported [] cp) :
    Meets (ZeroRound cp.timing) (fun cp' => Paced reported [] cp' ∧ Windowed cp state cp')
      ((cp.beginCollectionWindow nowNs).closeCollectionWindowIfDue nowNs) := by
  obtain ⟨coherent,began,_⟩ := beginWindowed h nowNs
  have paced' : Paced reported [] (cp.beginCollectionWindow nowNs) :=
    beganPaced (notEpisodeActive h.episodic) paced.dated (Or.inl paced.attended)
  have closes : Meets _ _ ((cp.beginCollectionWindow nowNs).closeCollectionWindowIfDue nowNs) :=
    closedPaced coherent paced'
  rw [began.setup.1] at closes
  exact meetsAnd closes (windowMeets h nowNs)

theorem actionPaced {item : ScheduledAction} (paced : Paced reported (item :: ready) cp)
    (effect : ActionEffect cp state item cp') : Paced reported ready cp' := by
  obtain ⟨⟨forward,deadline,aborts,round,pending⟩,attended⟩ := paced
  have later : ∀ other ∈ ready ++ cp.scheduled, other.action = .abortOnlineRejoin →
      reported ≤ other.timeNs := fun other member => aborts other (List.mem_cons_of_mem _ member)
  cases effect with
  | stale other => exact ⟨⟨forward,deadline,later,round,pending⟩,attended⟩
  | settled own decided => exact ⟨⟨forward,deadline,later,round,pending⟩,attended⟩
  | mark own => exact ⟨⟨forward,deadline,later,round,pending⟩,attended⟩
  | prepare own held members =>
    refine ⟨⟨forward,deadline,later,round,?_⟩,attended⟩
    intro future some
    cases Option.some.inj some
    exact Int.add_le_add_right (round _ held) _
  | commit own held prepared acked some =>
    refine ⟨⟨forward,deadline,later,round,?_⟩,attended⟩
    intro future made
    cases Option.some.inj made
    exact (pending _ held).trans (le_max_left _ _)
  | abort own held prepared =>
    have due := aborts item (by simp) (mineActive own).1
    refine beganPaced (by simp [afterAbort,clearEpisodeState,episodeActive]) ⟨forward,deadline,?_,by simp [afterAbort,clearEpisodeState],?_⟩ (Or.inr due)
    · intro other member kind
      refine later other (List.mem_append.mpr ?_) kind
      exact (List.mem_append.mp member).imp id clearedScheduled
    · intro future none
      simp [afterAbort,clearEpisodeState] at none

theorem drainPaced (h : Coherent [] cp state) (paced : Paced reported [] cp) :
    Meets (ZeroRound cp.timing)
      (fun mid => Paced reported [] mid ∧ Draining nowNs cp state [] mid) (cp.drain nowNs) := by
  have starts : Paced reported (cp.batch nowNs) (cp.popped nowNs) := by
    refine ⟨⟨paced.dated.forward,paced.dated.deadline,?_,paced.dated.round,paced.dated.pending⟩,
      paced.attended⟩
    intro item member kind
    exact paced.dated.aborts item ((batchPerm cp nowNs).mem_iff.mpr member) kind
  have start := drainStart h nowNs
  refine @meetsFold _ _ _ _ (fun rest mid => Paced reported rest mid ∧ Draining nowNs cp state rest mid)
    applyAction _ _ ⟨starts,start⟩ ?_
  rintro mid item rest ⟨before,draining⟩
  obtain ⟨midState,coherent,evolves,_⟩ := draining.coherent
  have effects := applyActionEffect coherent
  rw [evolves.setup.1] at effects
  exact meetsMono (meetsAnd effects (drainingStep draining))
    (fun next acted => ⟨actionPaced before acted.1,acted.2⟩)

theorem advancePaced (h : Coherent [] cp state) (paced : Paced reported [] cp) :
    Meets (ZeroRound cp.timing) (Paced reported []) (cp.advanceToTime snapshots nowNs nodeCount) := by
  rw [advanceToTime,ensureStateKeeps h.tracked,okBind,meetsBind]
  refine meetsMono (windowPaced h paced) ?_
  rintro opened ⟨paced,windowed⟩
  rw [meetsBind,← windowed.2.1.setup.1]
  refine meetsMono (drainPaced windowed.1 paced) ?_
  rintro mid ⟨paced,drained⟩
  obtain ⟨midState,coherent,evolved,_⟩ := drained.coherent
  rw [meetsBind,← evolved.setup.1]
  refine meetsMono (windowPaced coherent paced) ?_
  rintro last ⟨paced,closed⟩
  obtain ⟨logs,rebuilt,_⟩ := rebuildRepairLogsCases closed.1.tracked snapshots
  rw [rebuilt,meetsOk]
  exact ⟨⟨paced.dated.forward,paced.dated.deadline,paced.dated.aborts,paced.dated.round,
    paced.dated.pending⟩,paced.attended⟩

theorem firstRoundLate (forward : Forward timing slack) {r : Int}
    (late : firstPrepareRound timing reported + slack ≤ r) : reported ≤ r * timing.roundLengthNs := by
  have positive := forward.length
  have slack := forward.slack
  have collection := forward.collection
  have decision := forward.decision
  have repair := forward.repair
  unfold firstPrepareRound at late
  rw [Int.fdiv_eq_ediv_of_nonneg _ positive.le] at late
  have below : (reported + timing.cpCollectionDelayNs + timing.cpDecisionDelayNs +
      timing.repairDelayNs) / timing.roundLengthNs < r := by omega
  have := (Int.ediv_lt_iff_lt_mul positive).mp below
  omega

theorem calledPaced {r : Int} (paced : Paced reported [] cp) (called : Called snapshots r cp state cp' state') :
    Paced reported [] cp' := by
  obtain ⟨⟨forward,deadline,aborts,round,pending⟩,attended⟩ := paced
  cases called with
  | quiet early rebuilt => exact ⟨⟨forward,deadline,aborts,round,pending⟩,attended⟩
  | @cutover future held committed due logs rebuilt =>
    have late := firstRoundLate forward ((pending _ held).trans due)
    have began : Paced reported [] ((cp.afterCutover r future).beginCollectionWindow
        (r * cp.timing.roundLengthNs)) := by
      refine beganPaced (by simp [afterCutover,clearEpisodeState,episodeActive])
        ⟨forward,deadline,?_,by simp [afterCutover,clearEpisodeState],by simp [afterCutover,clearEpisodeState]⟩
        (Or.inr late)
      intro item member kind
      exact aborts item (clearedScheduled member) kind
    exact ⟨⟨began.dated.forward,began.dated.deadline,began.dated.aborts,began.dated.round,
      began.dated.pending⟩,began.attended⟩

theorem noticedPaced {event : ControlPlaneEvent} (h : Coherent [] cp state) (paced : Paced reported [] cp)
    (late : interruption event.toNodeEvent → reported ≤ event.availableAtNs)
    (noticed : Noticed event cp state cp' state') : Paced reported [] cp' := by
  obtain ⟨⟨forward,deadline,aborts,round,pending⟩,attended⟩ := paced
  cases noticed with
  | ignored other => exact ⟨⟨forward,deadline,aborts,round,pending⟩,attended⟩
  | collected kind collects =>
    exact ⟨⟨forward,deadline,aborts,round,pending⟩,fun _ => Or.inl (by simp [collected])⟩
  | queued kind other =>
    have episode := notEpisodeActive h.episodic
    exact beganPaced (by exact episode) ⟨forward,deadline,aborts,round,pending⟩ (Or.inr (late kind))
  | acked kind held prepared acked =>
    obtain ⟨_,last,extra,rfl,news⟩ := acked
    refine ⟨⟨forward,deadline,?_,round,pending⟩,attended⟩
    intro item member other
    have member : item ∈ cp.scheduled ++ extra := member
    rcases List.mem_append.mp member with old | new
    · exact aborts item old other
    · rcases news with rfl | ⟨rfl,_⟩
      · cases new
      · rw [List.mem_singleton.mp new] at other
        cases other

theorem startPaced (forward : Forward timing slack) (h : (fresh slack timing).ensureState nodeCount = .ok cp) :
    Paced reported [] cp := by
  simp only [ensureState,fresh] at h
  obtain ⟨state,_,made⟩ := bindOk.mp h
  cases made
  refine ⟨⟨forward,?_,?_,?_,?_⟩,?_⟩
  · simp
  · simp
  · simp
  · simp
  · simp [Attended]

theorem observedPaced {events : List ControlPlaneEvent} (sound : Sound slack timing nodeCount cp)
    (h : Coherent [] cp state) (paced : Paced reported [] cp)
    (bounded : ∀ event ∈ events, event.nodeId < nodeCount)
    (late : ∀ event ∈ events, interruption event.toNodeEvent → reported ≤ event.availableAtNs)
    (done : events.foldlM observeEvent cp = .ok cp') : Paced reported [] cp' := by
  induction events generalizing cp state with
  | nil =>
    cases done
    exact paced
  | cons event rest ih =>
    rw [List.foldlM_cons] at done
    obtain ⟨next,first,others⟩ := bindOk.mp done
    have bound := bounded event (by simp)
    obtain ⟨mid,midState,noted,coherent,noticed⟩ := observeEventMeets h
      (fun _ => sound.nodeCount ▸ bound)
    have same : mid = next := Except.ok.inj (noted.symm.trans first)
    subst same
    have soundMid := meetsValue (stepSound sound (show Op.admissible nodeCount (.observe event) from bound))
      first
    exact ih soundMid coherent (noticedPaced h paced (late event (by simp)) noticed)
      (fun other member => bounded other (by simp [member]))
      (fun other member => late other (by simp [member])) others

end OnlineRejoinControlPlane

namespace ClusterRun
open OnlineRejoinControlPlane (Paced Forward firstPrepareRound interruption)

variable {run : ClusterRun} {pt : Point} {at' : Nat} {phase : Phase} {moves pre post : List (Move Point Phase)} {m : Move Point Phase}

def PacedAt (run : ClusterRun) (pt : Point) : Prop :=
  ∀ cp, pt.cluster.controlPlane.ensureState run.nodeCount = .ok cp →
    Paced run.timing.haltReportDelayNs [] cp

theorem turnReports (positive : 0 < run.timing.roundLengthNs) {r i : Nat} {n : Node} :
    ∀ event ∈ run.turnEvents r i n, interruption event.toNodeEvent →
      run.timing.haltReportDelayNs ≤ event.availableAtNs := by
  intro event member kind
  obtain ⟨raw,_,rfl⟩ := List.mem_map.mp member
  have kind : raw.kind = .nodeCrashed ∨ raw.kind = .nodeHalted := kind
  have start : 0 ≤ run.roundStartNs r := Int.mul_nonneg (Int.natCast_nonneg r) positive.le
  change _ ≤ if raw.kind = .nodeHalted ∨ raw.kind = .nodeCrashed then _ else _
  rw [if_pos kind.symm]
  omega

theorem controlPaced {r : Int} {s : Cluster} {before mid after : OnlineRejoinControlPlane}
    {state midState shown : ControlPlaneState} (boundary : Boundary run r s before state)
    (controlled : Controlled run r s before state mid midState after shown) (paced : PacedAt run ⟨at',phase,s⟩) :
    Paced run.timing.haltReportDelayNs [] mid ∧ Paced run.timing.haltReportDelayNs [] after := by
  have opened : before.advanceToTime (run.repairLogSnapshots s) (run.roundStartNs r) run.nodeCount =
      .ok mid := by
    rw [← controlled.opened,OnlineRejoinControlPlane.advanceToTime,
      OnlineRejoinControlPlane.advanceToTime,boundary.ready.1,
      OnlineRejoinControlPlane.ensureStateKeeps boundary.coherent.tracked]
  have advanced := meetsValue
    (OnlineRejoinControlPlane.advancePaced boundary.coherent (paced before boundary.ready.1)) opened
  exact ⟨advanced,OnlineRejoinControlPlane.calledPaced advanced controlled.second⟩

theorem ranPacedAt (forward : Forward run.timing 10) (ran : Ran run.system moves pt) : PacedAt run pt := by
  induction ran with
  | start h =>
    cases h
    intro cp ready
    exact OnlineRejoinControlPlane.startPaced forward ready
  | move upTo h ih =>
    have mirrored := ranMirrored upTo
    cases stepCases h with
    | @control r s s' done =>
      obtain ⟨before,state,boundary⟩ := mirrored
      obtain ⟨mid,midState,shown,controlled,_⟩ := controlMirrored boundary done
      intro cp ready
      rw [OnlineRejoinControlPlane.ensureStateKeeps controlled.called.tracked] at ready
      cases ready
      exact (controlPaced boundary controlled ih).2
    | @turn r k s s' done =>
      obtain ⟨bound,shown,state,midround⟩ := mirrored
      obtain ⟨state',next,turned,turn,_⟩ := turnMirrored midround bound done
      have ended := turnEnded (midround.todo k le_rfl bound) turn
      have paced := ih _ (OnlineRejoinControlPlane.ensureStateKeeps midround.coherent.tracked _)
      have bounded : ∀ event ∈ run.turnEvents r k (s.nodes k), event.nodeId < run.nodeCount := by
        intro event member
        obtain ⟨raw,inside,rfl⟩ := List.mem_map.mp member
        have own : raw.nodeId = k := ended.own raw inside
        change raw.nodeId < run.nodeCount
        omega
      intro cp ready
      rw [OnlineRejoinControlPlane.ensureStateKeeps next.coherent.tracked] at ready
      cases ready
      exact OnlineRejoinControlPlane.observedPaced midround.sound midround.coherent paced bounded
        (turnReports forward.length) turned.observed
    | network => exact ih

def firstConfig (run : ClusterRun) : InstalledConfig := ⟨0,bit run.nodeCount - 1,0⟩

def cutoverFloor (run : ClusterRun) : Int :=
  firstPrepareRound run.timing run.timing.haltReportDelayNs + 10

theorem cutoverDue {r : Int} {s : Cluster} {before mid after : OnlineRejoinControlPlane}
    {state midState shown : ControlPlaneState} (boundary : Boundary run r s before state)
    (controlled : Controlled run r s before state mid midState after shown) (paced : PacedAt run ⟨at',phase,s⟩)
    (moved : shown.installedConfig ≠ state.installedConfig) : run.cutoverFloor ≤ r := by
  obtain ⟨timing,_,slack⟩ := controlled.first.1.setup
  have kept : midState.installedConfig = state.installedConfig := controlled.first.1.installed
  rcases OnlineRejoinControlPlane.effectInstalled controlled.second with
    same | ⟨_,_,future,call,pending,_,due,_⟩
  · exact absurd (same.trans kept) moved
  · cases call
    have first := (controlPaced boundary controlled paced).1.dated.pending future pending
    rw [timing,slack,boundary.ready.2.timing,boundary.ready.2.slack] at first
    exact first.trans due

theorem reconfiguredNotBefore (forward : Forward run.timing 10)
    (ran : Ran run.system (pre ++ m :: post) pt) {old new : InstalledConfig}
    (held : installedAt m.before = some old) (next : installedAt m.after = some new) (changed : new ≠ old) :
    m.op = .control ∧ run.cutoverFloor ≤ m.before.round := by
  obtain ⟨upTo,step,_⟩ := ranAt ran
  have mirrored := ranMirrored upTo
  have paced := ranPacedAt forward upTo
  have control : m.op = .control := by
    by_contra other
    have same := (stepKeeps mirrored step other).1
    rw [held,next] at same
    exact changed (Option.some.inj same)
  refine ⟨control,?_⟩
  obtain ⟨at',op,after⟩ := m
  cases control
  cases stepCases step with
  | @control r s s' done =>
    obtain ⟨before,state,boundary⟩ := mirrored
    obtain ⟨mid,midState,shown,controlled,_,midround⟩ := controlMirrored boundary done
    refine cutoverDue boundary controlled paced ?_
    intro same
    rw [boundaryInstalled boundary held] at same
    have shownNow := (midroundInstalled midround).symm.trans next
    exact changed ((Option.some.inj shownNow).symm.trans same)

def cutsInto (old new : InstalledConfig) (m : Move Point Phase) : Prop :=
  installedAt m.before = some old ∧ installedAt m.after = some new
instance (old new : InstalledConfig) (m : Move Point Phase) : Decidable (cutsInto old new m) := by
  unfold cutsInto; infer_instance

def delayedRejoin : ClusterRun := {loneRejoin 0 with rounds := 18, timing := ⟨1,1,1,1,1,20,1,1⟩}

theorem reconfiguredNotBeforeOnce : ∃ pre m post pt, Ran delayedRejoin.system (pre ++ m :: post) pt ∧
    cutsInto ⟨0,1,0⟩ ⟨1,1,1⟩ m ∧ delayedRejoin.cutoverFloor = 15 ∧ m.op = .control ∧
      delayedRejoin.cutoverFloor ≤ m.before.round := by
  have forward : Forward delayedRejoin.timing 10 := by constructor <;> decide
  have value : (delayedRejoin.walk 18).toOption.map
      (fun result => result.1.any (fun m => cutsInto ⟨0,1,0⟩ ⟨1,1,1⟩ m)) = some true := by decide +kernel
  obtain ⟨moves,pt,ran,found⟩ := walkFound value
  simp only [List.any_eq_true,decide_eq_true_eq] at found
  obtain ⟨m,member,cuts⟩ := found
  obtain ⟨pre,post,rfl⟩ := List.append_of_mem member
  exact ⟨pre,m,post,pt,ran,cuts,rfl,reconfiguredNotBefore forward ran cuts.1 cuts.2 (by decide)⟩

def Steady (run : ClusterRun) (r : Int) (s : Cluster) : Prop :=
  ∀ before state mid midState after shown, Boundary run r s before state →
    Controlled run r s before state mid midState after shown → shown.installedConfig = state.installedConfig

def firstHeld (run : ClusterRun) (s : Cluster) : Prop :=
  ∀ cp, s.controlPlane.ensureState run.nodeCount = .ok cp → cp.installedConfig = some run.firstConfig

theorem firstConfigHeld (ran : Ran run.system moves pt)
    (steady : ∀ pre m post, moves = pre ++ m :: post → m.op = .control →
      Steady run m.before.round m.before.cluster) : firstHeld run pt.cluster := by
  induction ran with
  | start h =>
    cases h
    intro cp ready
    obtain ⟨cp',state,ready',initial⟩ := OnlineRejoinControlPlane.initialMeets 10 run.timing run.nodeCount
    cases Except.ok.inj (ready'.symm.trans ready)
    rw [OnlineRejoinControlPlane.installedConfig,initial.coherent.tracked.current,Option.map_some,
      initial.installed]
    rfl
  | @move moves at' op next upTo h ih =>
    have before := ih (fun pre m post split => steady pre m (post ++ [⟨at',op,next⟩]) (by simp [split]))
    have now := steady moves ⟨at',op,next⟩ [] rfl
    have mirrored := ranMirrored upTo
    cases stepCases h with
    | @control r s s' done =>
      obtain ⟨opened,state,boundary⟩ := mirrored
      obtain ⟨mid,midState,shown,controlled,_⟩ := controlMirrored boundary done
      have first := before opened boundary.ready.1
      intro cp ready
      rw [OnlineRejoinControlPlane.ensureStateKeeps controlled.called.tracked] at ready
      cases ready
      have kept := now rfl _ _ _ _ _ _ boundary controlled
      rw [OnlineRejoinControlPlane.installedConfig,boundary.coherent.tracked.current] at first
      rw [OnlineRejoinControlPlane.installedConfig,controlled.called.tracked.current]
      exact (congrArg some kept).trans first
    | @turn r k s s' done =>
      obtain ⟨bound,shown,state,midround⟩ := mirrored
      obtain ⟨state',next,_⟩ := turnMirrored midround bound done
      have first := before _ (OnlineRejoinControlPlane.ensureStateKeeps midround.coherent.tracked _)
      intro cp ready
      rw [OnlineRejoinControlPlane.ensureStateKeeps next.coherent.tracked] at ready
      cases ready
      exact (midroundInstalled next).trans ((midroundInstalled midround).symm.trans first)
    | network => exact before

theorem heldInstalled (held : firstHeld run pt.cluster) :
    ∀ config ∈ installedAt pt, config = run.firstConfig := by
  intro config shown
  obtain ⟨state,current,_⟩ := Option.map_eq_some_iff.mp shown
  have ready : pt.cluster.controlPlane.ensureState run.nodeCount = .ok pt.cluster.controlPlane := by
    simp only [OnlineRejoinControlPlane.ensureState,current]
  exact (Option.some.inj ((held _ ready).symm.trans shown)).symm

-- A run that ends before a cutover could come keeps the first config.
theorem firstConfigShort (forward : Forward run.timing 10) (ran : Ran run.system moves pt)
    (short : (run.rounds : Int) ≤ run.cutoverFloor) : ∀ config ∈ installedAt pt, config = run.firstConfig := by
  refine heldInstalled (firstConfigHeld ran ?_)
  rintro pre m post rfl _ before state mid midState after shown boundary controlled
  obtain ⟨upTo,step,_⟩ := ranAt ran
  by_contra moved
  have due := cutoverDue boundary controlled (ranPacedAt forward upTo) moved
  have below : m.before.round < run.rounds := step.1
  omega

end ClusterRun
end Syncons
