import Syncons.CutoverTiming
import Syncons.Rejoin
import Syncons.Streams
import Syncons.StoredLogs

/-! Simulations as a whole. With a positive round length a simulation always completes, and
up to its first cutover every stored history holds the rounds from 0 on without a gap: a
node's own commits, or a copy of another node's history that it never adds to. -/
namespace Syncons
open Outcome Runs
open OnlineRejoinControlPlane (inState Coherent Sound Forward)

namespace ClusterRun

variable {run : ClusterRun} {pt : Point} {s s' : Cluster} {r i k : Nat} {moves : List (Move Point Phase)}
  {before : OnlineRejoinControlPlane} {state shown : ControlPlaneState} {events : List ControlPlaneEvent}

section Completion

theorem controlCompletes (positive : 0 < run.timing.roundLengthNs) (boundary : Boundary run r s before state) :
    ∃ s', run.controlPhase r s = .ok s' := by
  have noError : ∀ e, ¬ OnlineRejoinControlPlane.ZeroRound before.timing e := by
    rintro e ⟨_,zero⟩
    rw [boundary.ready.2.timing] at zero
    omega
  obtain ⟨mid,opened,advanced⟩ := meetsTotal (OnlineRejoinControlPlane.advanceMeets boundary.coherent
    (run.repairLogSnapshots s) (run.roundStartNs r) run.nodeCount) noError
  obtain ⟨midState,coherent,_⟩ := advanced.coherent
  obtain ⟨after,shown,called,coherent',_⟩ := OnlineRejoinControlPlane.callMeets coherent
    (run.repairLogSnapshots s) r run.nodeCount
  have first : s.controlPlane.advanceToTime (run.repairLogSnapshots s) (run.roundStartNs r) run.nodeCount =
      .ok mid := by
    rw [← opened,OnlineRejoinControlPlane.advanceToTime,OnlineRejoinControlPlane.advanceToTime,
      boundary.ready.1,OnlineRejoinControlPlane.ensureStateKeeps boundary.coherent.tracked]
  refine ⟨run.pushControlPlaneUpdates shown {s with controlPlane := after},?_⟩
  simp only [controlPhase,first,called,okBind,require,coherent'.tracked.current]

theorem submitCompletes (h : Coherent [] s.controlPlane state) (sound : Sound 10 run.timing run.nodeCount s.controlPlane)
    (bounded : ∀ event ∈ events, event.nodeId < run.nodeCount) :
    ∃ s', events.foldlM submitControlPlaneEvent s = .ok s' := by
  induction events generalizing s state with
  | nil => exact ⟨s,rfl⟩
  | cons event rest ih =>
    have bound := bounded event (by simp)
    obtain ⟨cp,next,noted,coherent,_⟩ := OnlineRejoinControlPlane.observeEventMeets h
      (fun _ => sound.nodeCount ▸ bound)
    have soundNext := meetsValue (OnlineRejoinControlPlane.stepSound sound
      (show OnlineRejoinControlPlane.Op.admissible run.nodeCount (.observe event) from bound)) noted
    obtain ⟨s',done⟩ := @ih
      {s with controlPlaneEvents := s.controlPlaneEvents ++ [event], controlPlane := cp} next coherent
      soundNext (fun other member => bounded other (by simp [member]))
    refine ⟨s',?_⟩
    rw [List.foldlM_cons,submitControlPlaneEvent,noted]
    exact done

theorem turnCompletes (midround : Midround run r k shown s state) (bound : k < run.nodeCount) :
    ∃ s', run.nodeTurn r s k = .ok s' := by
  have pushed := midround.todo k le_rfl bound
  have ended := turnEnded pushed (turnCases run pushed midround.ready)
  have bounded : ∀ event ∈ run.turnEvents r k (s.nodes k), event.nodeId < run.nodeCount := by
    intro event member
    obtain ⟨raw,inside,rfl⟩ := List.mem_map.mp member
    have own : raw.nodeId = k := ended.own raw inside
    change raw.nodeId < run.nodeCount
    omega
  unfold nodeTurn
  cases out : run.advanced r k (s.nodes k) with
  | mk node result =>
    simp only [turnEvents,out] at bounded
    simp only [Node.pullControlPlaneEvents]
    obtain ⟨s',done⟩ := @submitCompletes run
      { s with
        nodes := Function.update s.nodes k {node with controlPlaneEventOutbox := []}
        commitHistoryByNode := Function.update s.commitHistoryByNode k
          (s.commitHistoryByNode k ++ run.timedEntries r result.newCommits) }
      state _ midround.coherent midround.sound bounded
    rw [done,okBind]
    cases result.outbound with
    | none => exact ⟨_,rfl⟩
    | some outbound => exact ⟨_,rfl⟩

theorem turnsComplete (midround : Midround run r 0 shown s state) (bound : k ≤ run.nodeCount) :
    ∃ s' state', (List.range k).foldlM (run.nodeTurn r) s = .ok s' ∧ Midround run r k shown s' state' := by
  induction k with
  | zero => exact ⟨s,state,rfl,midround⟩
  | succ k ih =>
    obtain ⟨mid,midState,done,at'⟩ := ih (by omega)
    obtain ⟨s',turned⟩ := turnCompletes at' bound
    obtain ⟨state',next,_⟩ := turnMirrored at' bound turned
    refine ⟨s',state',?_,next⟩
    rw [List.range_succ,List.foldlM_append,done,okBind,List.foldlM_cons,turned]
    rfl

theorem roundsComplete (positive : 0 < run.timing.roundLengthNs) (k : Nat) :
    ∃ s cp state, (List.range k).foldlM run.runRound (Cluster.init run) = .ok s ∧ Boundary run k s cp state := by
  induction k with
  | zero =>
    obtain ⟨cp,state,boundary,_⟩ := initialBoundary run
    exact ⟨_,cp,state,rfl,boundary⟩
  | succ k ih =>
    obtain ⟨s,cp,state,done,boundary⟩ := ih
    obtain ⟨opened,controlled⟩ := controlCompletes positive boundary
    obtain ⟨_,_,shown,_,_,midround⟩ := controlMirrored boundary controlled
    obtain ⟨turned,turnedState,turns,last⟩ := turnsComplete midround le_rfl
    refine ⟨run.advanceNetwork k turned,_,turnedState,?_,networkMirrored last⟩
    rw [List.range_succ,List.foldlM_append,done,okBind,List.foldlM_cons,runRound,controlled,okBind,turns]
    rfl

-- No assertion fails and no division is by zero, whatever the faults.
theorem simulationCompletes (positive : 0 < run.timing.roundLengthNs) :
    ∃ s moves, run.simulate = .ok s ∧ Ran run.system moves ⟨run.rounds,.control,s⟩ := by
  obtain ⟨s,_,_,done,_⟩ := roundsComplete positive run.rounds
  obtain ⟨moves,ran⟩ := simulateRan done
  exact ⟨s,moves,done,ran⟩

end Completion

section Unbroken

def roundsOf (history : List CommittedRoundRecord) : List Int := history.map (fun entry => entry.round)

def unbroken (history : List CommittedRoundRecord) : Prop :=
  roundsOf history = roundsFrom 0 history.length
instance (history : List CommittedRoundRecord) : Decidable (unbroken history) := by
  unfold unbroken; infer_instance

theorem unbrokenCount {history : List CommittedRoundRecord} {count : Nat}
    (h : roundsOf history = roundsFrom 0 count) : unbroken history := by
  have length := congrArg List.length h
  simp only [roundsOf,roundsFrom,List.length_map,List.length_range] at length
  rw [unbroken,h,length]

structure Retired (i : Nat) (s : Cluster) : Prop where
  known : ∃ state ∈ s.controlPlane.currentState, ¬ inState state i .active
  shown : ¬ shownAs .active i s

def Calm (pt : Point) : Prop := ∀ config ∈ installedAt pt, config.runId ≤ 0

theorem boundaryRunId {r : Int} (boundary : Boundary run r s before state)
    (calm : ∀ config ∈ s.controlPlane.installedConfig, config.runId ≤ 0) : state.installedConfig.runId ≤ 0 := by
  cases held : s.controlPlane.currentState with
  | some now =>
    have same := (ensurePending boundary.ready.1).2.2.2 (by simp [held])
    have shown := boundary.coherent.tracked.current
    rw [same,held] at shown
    cases shown
    exact calm _ (by rw [OnlineRejoinControlPlane.installedConfig,held]; rfl)
  | none =>
    have ready := boundary.ready.1
    unfold OnlineRejoinControlPlane.ensureState at ready
    rw [held] at ready
    obtain ⟨fresh,made,last⟩ := bindOk.mp ready
    obtain ⟨_,_,initial⟩ := bindOk.mp made
    cases initial
    cases last
    cases Option.some.inj boundary.coherent.tracked.current
    exact le_refl (0 : Int)

theorem calmRunId (ran : Ran run.system moves pt) (calm : Calm pt) (inside : i < run.nodeCount) :
    (pt.cluster.nodes i).runId ≤ 0 := by
  have mirrored := ranMirrored ran
  obtain ⟨r,phase,s⟩ := pt
  cases phase with
  | control =>
    obtain ⟨cp,state,boundary⟩ := mirrored
    exact (boundary.nodes i inside).standing.behind.trans (boundaryRunId boundary calm)
  | turn k =>
    obtain ⟨_,shown,state,midround⟩ := mirrored
    have zero := calm _ (midroundInstalled midround)
    by_cases done : i < k
    · exact (midround.installed ▸ (midround.done i done).standing.behind).trans zero
    · exact (midround.todo i (by omega) inside).standing.behind.trans zero
  | network =>
    obtain ⟨shown,state,midround⟩ := mirrored
    have zero := calm _ (midroundInstalled midround)
    exact (midround.installed ▸ (midround.done i inside).standing.behind).trans zero

theorem calmCommits (ran : Ran run.system moves pt) (calm : Calm pt) (inside : i < run.nodeCount) :
    ∃ count, (run.committedBy i moves).map (fun c => c.round) = roundsFrom 0 count := by
  have ledger := ranLedger inside ran
  have last := calmRunId ran calm inside
  have initial : ∀ m ∈ moves, runIn i m = 0 := by
    intro m member
    have top := ledger.behind m member
    obtain ⟨pre,post,rfl⟩ := List.append_of_mem member
    have bottom := (ranLedger inside (ranAt ran).2.2).nonneg
    have : 0 ≤ runIn i m := bottom
    omega
  obtain ⟨first,len,count,stream⟩ := ledger.streams 0
  refine ⟨count,?_⟩
  rw [← stream.initial rfl,← stream.committed,committedUnder,committedBy,List.map_flatMap]
  congr 1
  exact (List.filter_eq_self.mpr (fun m member => by simpa using initial m member)).symm

theorem calmBefore {m : Move Point Phase} (ran : Ran run.system moves m.before)
    (step : run.system.step m.before m.op m.after) (calm : Calm m.after) : Calm m.before := by
  intro config held
  obtain ⟨last,next,grown⟩ := (stepOnward (ranMirrored ran) step).2 config held
  exact grown.trans (calm last next)

theorem shownRetired {mid : OnlineRejoinControlPlane} {midState : ControlPlaneState} {r : Int}
    (controlled : Controlled run r s before state mid midState s'.controlPlane shown)
    (one : PushedOne shown i s s') (inactive : ¬ inState shown i .active) : Retired i s' :=
  ⟨⟨shown,controlled.called.tracked.current,inactive⟩,
    fun again => inactive ((shownState one.last (by simp)).mp again)⟩

theorem repairedInactive {mid after : OnlineRejoinControlPlane} {midState : ControlPlaneState} {r : Int}
    (stocked : Stocked run s state) (controlled : Controlled run r s before state mid midState after shown)
    (one : PushedOne shown i s s') (overwritten : repairedIn i s s') : ¬ inState shown i .active := by
  intro active
  obtain ⟨_,u,latest,carries⟩ := overwritten
  cases Option.some.inj (one.last.symm.trans latest)
  have none : (buildControlPlaneUpdate i shown).repairLog = none :=
    controlUnlogged controlled stocked active
  simp [none] at carries

theorem retiredInactive {mid after : OnlineRejoinControlPlane} {midState : ControlPlaneState}
    (boundary : Boundary run r s before state)
    (controlled : Controlled run r s before state mid midState after shown)
    (kept : shown.installedConfig = state.installedConfig) (retired : Retired i s) :
    ¬ inState shown i .active := by
  intro active
  obtain ⟨held,current,inactive⟩ := retired.known
  have same : before = s.controlPlane := by
    refine (ensurePending boundary.ready.1).2.2.2 ?_
    simp [Option.mem_def.mp current]
  have now := boundary.coherent.tracked.current
  rw [same,Option.mem_def.mp current] at now
  cases now
  rcases controlActive controlled active with was | newer
  · exact inactive was
  · rw [kept] at newer
    omega

/- Node `i` stores what it has committed, or it was handed the history of another node and is
out of the protocol since. -/
inductive Kept (run : ClusterRun) (i : Nat) (moves : List (Move Point Phase)) (s : Cluster) : Prop where
  | own (same : roundsOf (s.commitHistoryByNode i) = (run.committedBy i moves).map (fun c => c.round))
  | handed (whole : unbroken (s.commitHistoryByNode i)) (retired : Retired i s)

theorem keptUnbroken (ran : Ran run.system moves pt) (calm : Calm pt)
    (inside : i < run.nodeCount) (h : Kept run i moves pt.cluster) :
    unbroken (pt.cluster.commitHistoryByNode i) := by
  cases h with
  | handed whole retired => exact whole
  | own same =>
    obtain ⟨count,rounds⟩ := calmCommits ran calm inside
    exact unbrokenCount (same.trans rounds)

theorem keptElsewhere {m : Move Point Phase} (other : m.op ≠ .turn i)
    (h : roundsOf (s.commitHistoryByNode i) = (run.committedBy i moves).map (fun c => c.round))
    (same : s'.commitHistoryByNode i = s.commitHistoryByNode i) : Kept run i (moves ++ [m]) s' := by
  refine .own ?_
  rw [same,h,committedBySnoc,commitsIn,if_neg other,List.append_nil]

theorem controlKept {m : Move Point Phase} {mid : OnlineRejoinControlPlane} {midState : ControlPlaneState}
    (control : m.op = .control) (boundary : Boundary run r s before state)
    (stocked : Stocked run s state)
    (controlled : Controlled run r s before state mid midState s'.controlPlane shown)
    (unmoved : shown.installedConfig = state.installedConfig) (repaired : Repaired run s s')
    (one : PushedOne shown i s s') (inside : i < run.nodeCount)
    (sources : ∀ k < run.nodeCount, unbroken (s.commitHistoryByNode k)) (h : Kept run i moves s) :
    Kept run i (moves ++ [m]) s' := by
  have other : m.op ≠ .turn i := by simp [control]
  by_cases overwritten : repairedIn i s s'
  · obtain ⟨k,longest,same,_⟩ := repaired.repaired i inside overwritten
    have inactive := repairedInactive stocked controlled one overwritten
    exact .handed (same ▸ sources k longest.bound) (shownRetired controlled one inactive)
  · have same := repaired.spared i inside overwritten
    cases h with
    | own rounds => exact keptElsewhere other rounds same
    | handed whole retired =>
      have inactive := retiredInactive boundary controlled unmoved retired
      exact .handed (same ▸ whole) (shownRetired controlled one inactive)

theorem turnRetired (midround : Midround run r k shown s state) (bound : k < run.nodeCount)
    (done : run.nodeTurn r s k = .ok s') (retired : Retired i s) : Retired i s' := by
  obtain ⟨state',next,turned,_,listened⟩ := turnMirrored midround bound done
  obtain ⟨held,current,inactive⟩ := retired.known
  cases Option.some.inj (midround.coherent.tracked.current.symm.trans current)
  refine ⟨⟨state',next.coherent.tracked.current,fun active => inactive (listened.activeOnly i active).1⟩,?_⟩
  unfold shownAs
  rw [turned.last]
  exact retired.shown

theorem turnKept (midround : Midround run r k shown s state) (bound : k < run.nodeCount)
    (done : run.nodeTurn r s k = .ok s') (h : Kept run i moves s) :
    Kept run i (moves ++ [⟨⟨r,.turn k,s⟩,.turn k,⟨r,run.turnFrom (k + 1),s'⟩⟩]) s' := by
  have turned := turnFacts done
  by_cases own : i = k
  · subst own
    cases h with
    | own rounds =>
      refine .own ?_
      rw [turned.history,committedBySnoc,commitsIn,if_pos rfl,List.map_append,← rounds]
      simp [roundsOf,timedEntries,CommittedRoundRecord.fromCommittedRound]
    | handed whole retired =>
      have inactive : ¬ inState shown i .active := fun active =>
        retired.shown ((shownState (midround.todo i le_rfl bound).latest (by simp)).mpr active)
      have same := turnIdle midround bound done inactive
      exact .handed (same ▸ whole) (turnRetired midround bound done retired)
  · have same := (turned.others i own).history
    cases h with
    | own rounds => exact keptElsewhere (by simp [Ne.symm own]) rounds same
    | handed whole retired => exact .handed (same ▸ whole) (turnRetired midround bound done retired)

theorem ranKept (ran : Ran run.system moves pt) (calm : Calm pt) :
    ∀ i < run.nodeCount, Kept run i moves pt.cluster := by
  induction ran with
  | start h =>
    cases h
    exact fun i _ => .own rfl
  | @move moves at' op next upTo h ih =>
    have before : Calm at' := calmBefore (m := ⟨at',op,next⟩) upTo h calm
    have kept := ih before
    have mirrored := ranMirrored upTo
    have stocked := ranStocked upTo
    intro i inside
    cases stepCases h with
    | @control r s s' done =>
      obtain ⟨cp,state,boundary⟩ := mirrored
      obtain ⟨mid,midState,shown,controlled,midround,one⟩ := controlPushed boundary done
      have stocked := boundaryStocked boundary stocked
      have unmoved : shown.installedConfig = state.installedConfig := by
        rcases controlInstalled controlled with same | grown
        · exact same
        · have low := (ranLedger inside upTo).nonneg.trans (boundary.nodes i inside).standing.behind
          have high := calm _ (midroundInstalled midround)
          omega
      exact controlKept rfl boundary stocked controlled unmoved (controlRepairs boundary stocked done)
        (one i inside) inside (fun k bound => keptUnbroken upTo before bound (kept k bound)) (kept i inside)
    | turn done =>
      obtain ⟨bound,shown,state,midround⟩ := mirrored
      exact turnKept midround bound done (kept i inside)
    | network =>
      have last := kept i inside
      cases last with
      | own rounds => exact keptElsewhere (by simp) rounds rfl
      | handed whole retired => exact .handed whole ⟨retired.known,retired.shown⟩

theorem ranUnbroken (ran : Ran run.system moves pt) (calm : Calm pt) :
    ∀ i < run.nodeCount, unbroken (pt.cluster.commitHistoryByNode i) :=
  fun i inside => keptUnbroken ran calm inside (ranKept ran calm i inside)

/- Until the first cutover every stored history, repaired or not, holds the rounds from 0 on
without a gap. -/
theorem firstRunUnbroken (ran : Ran run.system moves pt)
    (first : ∀ config ∈ installedAt pt, config = run.firstConfig) :
    ∀ i < run.nodeCount, unbroken (pt.cluster.commitHistoryByNode i) := by
  refine ranUnbroken ran ?_
  intro config held
  rw [first config held]
  exact le_refl (0 : Int)

-- Node 2 has been handed a repair log, and no config but the first one was installed.
theorem firstRunUnbrokenOnce : ∃ moves pt, Ran crashTwice.system moves pt ∧
    (∃ m ∈ moves, repairedIn 2 m.before.cluster m.after.cluster) ∧
    ∀ i < 3, unbroken (pt.cluster.commitHistoryByNode i) := by
  have value : (crashTwice.walk 7).toOption.map (fun result => decide
      ((∃ m ∈ result.1, repairedIn 2 m.before.cluster m.after.cluster) ∧
        installedAt result.2 = some crashTwice.firstConfig)) = some true := by
    decide +kernel
  obtain ⟨moves,pt,ran,found⟩ := walkFound value
  obtain ⟨repaired,installed⟩ := of_decide_eq_true found
  refine ⟨moves,pt,ran,repaired,firstRunUnbroken ran ?_⟩
  intro config held
  exact Option.some.inj (held.symm.trans installed)

end Unbroken

end ClusterRun
end Syncons
