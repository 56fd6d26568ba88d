import Syncons.Mirror

/-! Repair logs and stored histories. A repair log a node is pushed is the longest
history stored at the start of the control phase, the lowest node id winning ties,
and the push overwrites the node's own history with it. -/
namespace Syncons
open Dict (Map)
open Outcome Runs
open OnlineRejoinControlPlane (inState Coherent Rebuilt LogsFrom)

-- The order `max` picks from: by length, then by the lower node id.
def outranks (a b : RepairSnapshot) : Prop :=
  b.committedRounds.length < a.committedRounds.length ∨
  b.committedRounds.length = a.committedRounds.length ∧ a.nodeId ≤ b.nodeId

theorem outranksRefl (a : RepairSnapshot) : outranks a a := Or.inr ⟨rfl,le_rfl⟩

theorem outranksTrans {a b c : RepairSnapshot} (h : outranks a b) (k : outranks b c) : outranks a c := by
  unfold outranks at *
  omega

theorem longerOutranks (a b : RepairSnapshot) :
    outranks (longerSnapshot a b) a ∧ outranks (longerSnapshot a b) b ∧
    (longerSnapshot a b = a ∨ longerSnapshot a b = b) := by
  unfold longerSnapshot
  split
  · rename_i longer
    refine ⟨?_,outranksRefl b,Or.inr rfl⟩
    unfold outranks
    omega
  · rename_i other
    refine ⟨outranksRefl a,?_,Or.inl rfl⟩
    unfold outranks
    omega

theorem foldLonger (snapshots : List RepairSnapshot) (best : RepairSnapshot) :
    (snapshots.foldl longerSnapshot best = best ∨ snapshots.foldl longerSnapshot best ∈ snapshots) ∧
    outranks (snapshots.foldl longerSnapshot best) best ∧
    ∀ node ∈ snapshots, outranks (snapshots.foldl longerSnapshot best) node := by
  induction snapshots generalizing best with
  | nil => exact ⟨Or.inl rfl,outranksRefl best,by simp⟩
  | cons head tail ih =>
    obtain ⟨from',above,others⟩ := ih (longerSnapshot best head)
    obtain ⟨first,second,same⟩ := longerOutranks best head
    refine ⟨?_,outranksTrans above first,?_⟩
    · rcases from' with last | member
      · rcases same with keep | new
        · exact Or.inl (last.trans keep)
        · exact Or.inr (by rw [List.foldl_cons,last,new]; simp)
      · exact Or.inr (List.mem_cons_of_mem _ member)
    · intro node member
      rcases List.mem_cons.mp member with rfl | later
      · exact outranksTrans above second
      · exact others node later

theorem withTimingNone (record : CommittedRoundRecord) : record.withTiming = record := by
  simp [CommittedRoundRecord.withTiming]

theorem clonePrefix (rounds : List CommittedRoundRecord) : cloneRepairPrefix rounds = ⟨rounds⟩ := by
  simp [cloneRepairPrefix,withTimingNone]

namespace ClusterRun

variable {run : ClusterRun} {pt : Point} {s s' : Cluster} {i k : Nat} {r : Int}
  {moves : List (Move Point Phase)} {before mid after : OnlineRejoinControlPlane}
  {state midState shown : ControlPlaneState}

-- Node `k` holds the longest stored history, and is the first node to do so.
structure Longest (run : ClusterRun) (s : Cluster) (k : Nat) : Prop where
  bound : k < run.nodeCount
  most : ∀ j < run.nodeCount, (s.commitHistoryByNode j).length ≤ (s.commitHistoryByNode k).length
  first : ∀ j < k, (s.commitHistoryByNode j).length < (s.commitHistoryByNode k).length

theorem longestUnique {j : Nat} (h : Longest run s k) (other : Longest run s j) : k = j := by
  rcases Nat.lt_trichotomy k j with below | same | above
  · have := other.first k below
    have := h.most j other.bound
    omega
  · exact same
  · have := h.first j above
    have := other.most k h.bound
    omega

theorem snapshotsIs (run : ClusterRun) (s : Cluster) :
    run.repairLogSnapshots s =
      (List.range run.nodeCount).map (fun i => ⟨i,s.commitHistoryByNode i⟩) := by
  simp [repairLogSnapshots,withTimingNone]

theorem selectLongest (populated : 0 < run.nodeCount) :
    ∃ k, Longest run s k ∧ selectRepairPrefix (run.repairLogSnapshots s) = ⟨s.commitHistoryByNode k⟩ := by
  have inside : ∀ node ∈ run.repairLogSnapshots s, node.nodeId < run.nodeCount ∧
      node = ⟨node.nodeId,s.commitHistoryByNode node.nodeId⟩ := by
    intro node member
    rw [snapshotsIs] at member
    obtain ⟨j,bound,rfl⟩ := List.mem_map.mp member
    exact ⟨List.mem_range.mp bound,rfl⟩
  have member : ∀ j < run.nodeCount, ⟨j,s.commitHistoryByNode j⟩ ∈ run.repairLogSnapshots s := by
    intro j bound
    rw [snapshotsIs]
    exact List.mem_map.mpr ⟨j,List.mem_range.mpr bound,rfl⟩
  generalize run.repairLogSnapshots s = snapshots at inside member
  cases snapshots with
  | nil => exact absurd (member 0 populated) (by simp)
  | cons head tail =>
    obtain ⟨from',above,others⟩ := foldLonger tail head
    have picked : tail.foldl longerSnapshot head ∈ head :: tail := by
      rcases from' with same | later
      · simp [same]
      · exact List.mem_cons_of_mem _ later
    have best : ∀ j < run.nodeCount, outranks (tail.foldl longerSnapshot head) ⟨j,s.commitHistoryByNode j⟩ := by
      intro j bound
      rcases List.mem_cons.mp (member j bound) with same | later
      · rw [same]
        exact above
      · exact others _ later
    have chosen : selectRepairPrefix (head :: tail) =
        ⟨(tail.foldl longerSnapshot head).committedRounds⟩ := clonePrefix _
    generalize tail.foldl longerSnapshot head = top at picked best chosen
    obtain ⟨bound,shape⟩ := inside top picked
    have held : top.committedRounds = s.commitHistoryByNode top.nodeId := congrArg _ shape
    unfold outranks at best
    refine ⟨top.nodeId,⟨bound,?_,?_⟩,by rw [chosen,held]⟩
    · intro j inside'
      have := best j inside'
      simp only [held] at this
      omega
    · intro j below
      have := best j (by omega)
      simp only [held] at this
      omega

def Stocked (run : ClusterRun) (s : Cluster) (state : ControlPlaneState) : Prop :=
  ∀ i log, state.repairLogs.lookup i = some log → ∃ j < run.nodeCount, s.commitHistoryByNode j ≠ []

theorem stockedPrefix (stocked : Stocked run s state) {log : RepairLog}
    (held : state.repairLogs.lookup i = some log) :
    (selectRepairPrefix (run.repairLogSnapshots s)).entries ≠ [] := by
  obtain ⟨j,bound,some⟩ := stocked i log held
  obtain ⟨k,longest,same⟩ := @selectLongest run s (by omega)
  rw [same]
  intro none
  have := longest.most j bound
  rw [show s.commitHistoryByNode k = [] from none,List.length_nil] at this
  exact some (List.eq_nil_of_length_eq_zero (by omega))

theorem controlLogs (h : Controlled run r s before state mid midState after shown)
    (stocked : Stocked run s state) {log : RepairLog} (held : shown.repairLogs.lookup i = some log) :
    log = selectRepairPrefix (run.repairLogSnapshots s) ∧ log.entries ≠ [] := by
  obtain ⟨_,_,source,_⟩ := h.first
  have midLogs : ∀ j other, midState.repairLogs.lookup j = some other →
      other = selectRepairPrefix (run.repairLogSnapshots s) ∧ other.entries ≠ [] := by
    intro j other inside
    rcases source j other inside with new | ⟨none,old⟩
    · exact new
    · exact absurd none (stockedPrefix stocked old)
  have rebuilt : ∀ old logs : Map Nat RepairLog, LogsFrom (run.repairLogSnapshots s) old logs →
      (∀ j other, old.lookup j = some other → midState.repairLogs.lookup j = some other) →
      logs.lookup i = some log → log = selectRepairPrefix (run.repairLogSnapshots s) ∧ log.entries ≠ [] := by
    intro old logs from' sub inside
    rcases from' i log inside with new | ⟨none,older⟩
    · exact new
    · obtain ⟨same,some⟩ := midLogs i log (sub i log older)
      rw [same] at some
      exact absurd none some
  have second := h.second
  cases second with
  | quiet early from' => exact rebuilt _ _ from'.source (fun _ _ same => same) held
  | cutover pending committed due from' =>
    exact rebuilt _ _ from'.source (fun _ _ none => by simp [OnlineRejoinControlPlane.cutoverState] at none) held

theorem controlLogged (h : Controlled run r s before state mid midState after shown)
    (target : inState shown i .recovering ∨ inState shown i .rejoinPending)
    (stored : (selectRepairPrefix (run.repairLogSnapshots s)).entries ≠ []) :
    shown.repairLogs.lookup i = some (selectRepairPrefix (run.repairLogSnapshots s)) := by
  have second := h.second
  cases second with
  | quiet early rebuilt => exact rebuilt.target i target stored
  | cutover pending committed due rebuilt => exact rebuilt.target i target stored

theorem controlUnlogged (h : Controlled run r s before state mid midState after shown)
    (stocked : Stocked run s state) (active : inState shown i .active) :
    shown.repairLogs.lookup i = none := by
  cases found : shown.repairLogs.lookup i with
  | none => rfl
  | some log =>
    obtain ⟨same,stored⟩ := controlLogs h stocked found
    rw [same] at stored
    have target : inState shown i .recovering ∨ inState shown i .rejoinPending := by
      have second := h.second
      cases second with
      | quiet early rebuilt => exact rebuilt.keyed i log found stored
      | cutover pending committed due rebuilt => exact rebuilt.keyed i log found stored
    rcases target with other | other <;> cases Option.some.inj (active.symm.trans other)

def repairedIn (i : Nat) (s s' : Cluster) : Prop :=
  s'.lastControlPlaneUpdates i ≠ s.lastControlPlaneUpdates i ∧
  ∃ u ∈ s'.lastControlPlaneUpdates i, u.repairLog.isSome
instance (i : Nat) (s s' : Cluster) : Decidable (repairedIn i s s') := by
  unfold repairedIn; infer_instance

structure Repaired (run : ClusterRun) (s s' : Cluster) : Prop where
  repaired : ∀ i < run.nodeCount, repairedIn i s s' →
    ∃ k, Longest run s k ∧ s'.commitHistoryByNode i = s.commitHistoryByNode k ∧ s.commitHistoryByNode k ≠ []
  spared : ∀ i < run.nodeCount, ¬ repairedIn i s s' → s'.commitHistoryByNode i = s.commitHistoryByNode i

theorem ensureLogs {cp cp' : OnlineRejoinControlPlane} {count : Nat}
    (done : cp.ensureState count = .ok cp') (current : cp'.currentState = some state) :
    cp.currentState = some state ∨ state.repairLogs = ∅ := by
  unfold OnlineRejoinControlPlane.ensureState at done
  split at done
  · cases done
    exact Or.inl current
  · obtain ⟨fresh,initial,last⟩ := bindOk.mp done
    cases last
    cases Option.some.inj current
    obtain ⟨_,_,made⟩ := bindOk.mp initial
    cases made
    exact Or.inr rfl

theorem boundaryStocked {r : Int} (boundary : Boundary run r s before state)
    (stocked : ∀ held ∈ s.controlPlane.currentState, Stocked run s held) : Stocked run s state := by
  rcases ensureLogs boundary.ready.1 boundary.coherent.tracked.current with same | none
  · exact stocked state same
  · intro i log held
    simp [none] at held

theorem controlRepairs {r : Nat} (boundary : Boundary run r s before state)
    (stocked : Stocked run s state) (done : run.controlPhase r s = .ok s') : Repaired run s s' := by
  obtain ⟨mid,midState,shown,controlled,_,one⟩ := controlPushed boundary done
  refine ⟨?_,?_⟩
  · rintro i bound ⟨changed,u,latest,carries⟩
    have push := one i bound
    have new : pushed shown i s := by
      intro same
      exact changed (push.last.trans same.symm)
    cases Option.some.inj (push.last.symm.trans latest)
    obtain ⟨log,held⟩ := Option.isSome_iff_exists.mp carries
    have found : shown.repairLogs.lookup i = some log := held
    obtain ⟨same,some⟩ := controlLogs controlled stocked found
    obtain ⟨k,longest,chosen⟩ := @selectLongest run s (by omega)
    rw [chosen] at same
    subst same
    refine ⟨k,longest,?_,some⟩
    rw [push.history new,found]
    rfl
  · intro i bound kept
    have push := one i bound
    by_cases new : pushed shown i s
    · rw [push.history new]
      cases found : shown.repairLogs.lookup i with
      | none => rfl
      | some log =>
        refine absurd ⟨?_,_,push.last,?_⟩ kept
        · intro same
          exact new (same.symm.trans push.last)
        · simp [buildControlPlaneUpdate,found]
    · exact (push.quiet new).2

theorem repairedStocked (repaired : Repaired run s s') {j : Nat} (bound : j < run.nodeCount)
    (some : s.commitHistoryByNode j ≠ []) : ∃ j < run.nodeCount, s'.commitHistoryByNode j ≠ [] := by
  by_cases overwritten : repairedIn j s s'
  · obtain ⟨k,_,same,full⟩ := repaired.repaired j bound overwritten
    exact ⟨j,bound,by rw [same]; exact full⟩
  · exact ⟨j,bound,by rw [repaired.spared j bound overwritten]; exact some⟩

theorem prefixPopulated (some : (selectRepairPrefix (run.repairLogSnapshots s)).entries ≠ []) :
    0 < run.nodeCount := by
  rcases Nat.eq_zero_or_pos run.nodeCount with none | populated
  · simp [repairLogSnapshots,none,selectRepairPrefix] at some
  · exact populated

theorem turnedPrefix (turned : Turned run r i s s') (j : Nat) :
    s.commitHistoryByNode j <+: s'.commitHistoryByNode j := by
  by_cases own : j = i
  · subst j
    rw [turned.history]
    exact List.prefix_append _ _
  · rw [(turned.others j own).history]

theorem ranStocked (ran : Ran run.system moves pt) :
    ∀ state ∈ pt.cluster.controlPlane.currentState, Stocked run pt.cluster state := by
  induction ran with
  | start h =>
    cases h
    simp [Cluster.init]
  | @move moves at' op next upTo h ih =>
    have mirrored := ranMirrored upTo
    cases stepCases h with
    | @control r s s' done =>
      obtain ⟨cp,state,boundary⟩ := mirrored
      have stocked := boundaryStocked boundary ih
      have repaired := controlRepairs boundary stocked done
      obtain ⟨mid,midState,shown,controlled,_⟩ := controlMirrored boundary done
      intro latest held i log found
      cases Option.some.inj (controlled.called.tracked.current.symm.trans held)
      obtain ⟨same,some⟩ := controlLogs controlled stocked found
      rw [same] at some
      obtain ⟨k,longest,chosen⟩ := @selectLongest run s (prefixPopulated some)
      rw [chosen] at some
      exact repairedStocked repaired longest.bound some
    | @turn r k s s' done =>
      obtain ⟨bound,shown,state,midround⟩ := mirrored
      obtain ⟨state',after,turned,_,listened⟩ := turnMirrored midround bound done
      intro latest held i log found
      cases Option.some.inj (after.coherent.tracked.current.symm.trans held)
      rw [listened.logs] at found
      obtain ⟨j,inside,some⟩ := ih state midround.coherent.tracked.current i log found
      refine ⟨j,inside,?_⟩
      intro none
      have begins := turnedPrefix turned j
      rw [none] at begins
      exact some (List.prefix_nil.mp begins)
    | network => exact ih

end ClusterRun
end Syncons
