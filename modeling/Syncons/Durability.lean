import Syncons.Repair

/-! Durability of commits. Only a repair log ever takes an entry out of a stored
history, and it takes out exactly what the longest history does not hold. -/
namespace Syncons
open Outcome Runs

def Stored (history : List CommittedRoundRecord) (commit : CommittedRound) : Prop :=
  ∃ entry ∈ history, entry.round = commit.round ∧ entry.commitSet = commit.commitSet ∧
    entry.proposals = commit.proposals
instance (history : List CommittedRoundRecord) (commit : CommittedRound) :
    Decidable (Stored history commit) := by unfold Stored; infer_instance

theorem storedPrefix {history longer : List CommittedRoundRecord} {commit : CommittedRound}
    (grown : history <+: longer) (h : Stored history commit) : Stored longer commit := by
  obtain ⟨entry,member,same⟩ := h
  exact ⟨entry,grown.subset member,same⟩

namespace ClusterRun

variable {run : ClusterRun} {pt : Point} {i : Nat} {moves : List (Move Point Phase)} {m : Move Point Phase}

def commitsIn (run : ClusterRun) (i : Nat) (m : Move Point Phase) : List CommittedRound :=
  if m.op = .turn i then (run.advanced m.before.round i (m.before.cluster.nodes i)).2.newCommits else []

def committedBy (run : ClusterRun) (i : Nat) (moves : List (Move Point Phase)) : List CommittedRound :=
  moves.flatMap (run.commitsIn i)

-- After every move each node stores all it has committed so far.
def Durable (run : ClusterRun) (moves : List (Move Point Phase)) : Prop :=
  ∀ pre m post, moves = pre ++ m :: post → ∀ i < run.nodeCount,
    ∀ commit ∈ run.committedBy i (pre ++ [m]), Stored (m.after.cluster.commitHistoryByNode i) commit

/- Whenever a node is handed a repair log, the longest history stored at that moment
holds all the node has committed. -/
def RepairsCover (run : ClusterRun) (moves : List (Move Point Phase)) : Prop :=
  ∀ pre m post, moves = pre ++ m :: post → m.op = .control → ∀ i < run.nodeCount,
    repairedIn i m.before.cluster m.after.cluster → ∀ k, Longest run m.before.cluster k →
      ∀ commit ∈ run.committedBy i pre, Stored (m.before.cluster.commitHistoryByNode k) commit

theorem committedSnoc {commit : CommittedRound} :
    commit ∈ run.committedBy i (moves ++ [m]) ↔
      commit ∈ run.committedBy i moves ∨ commit ∈ run.commitsIn i m := by
  simp [committedBy]

theorem timedStored {commits : List CommittedRound} {commit : CommittedRound} {r : Int}
    {history : List CommittedRoundRecord} (member : commit ∈ commits) :
    Stored (history ++ run.timedEntries r commits) commit :=
  ⟨_,List.mem_append_right _ (List.mem_map.mpr ⟨commit,member,rfl⟩),rfl,rfl,rfl⟩

theorem ranRepairs {pre post : List (Move Point Phase)} (ran : Ran run.system (pre ++ m :: post) pt)
    (control : m.op = .control) : Repaired run m.before.cluster m.after.cluster := by
  obtain ⟨upTo,step,_⟩ := ranAt ran
  have mirrored := ranMirrored upTo
  have stocked := ranStocked upTo
  obtain ⟨before,op,after⟩ := m
  cases control
  cases stepCases step with
  | control done =>
    obtain ⟨cp,state,boundary⟩ := mirrored
    exact controlRepairs boundary (boundaryStocked boundary stocked) done

theorem coverPrefix (h : RepairsCover run (moves ++ [m])) : RepairsCover run moves := by
  intro pre x post split
  exact h pre x (post ++ [m]) (by simp [split])

-- A run whose repairs cover keeps every commit in the history of the node that made it.
theorem ranStored (ran : Ran run.system moves pt) (cover : RepairsCover run moves)
    (bound : i < run.nodeCount) :
    ∀ commit ∈ run.committedBy i moves, Stored (pt.cluster.commitHistoryByNode i) commit := by
  induction ran with
  | start h => simp [committedBy]
  | @move moves at' op next upTo h ih =>
    have earlier := ih (coverPrefix cover)
    intro commit member
    rw [committedSnoc] at member
    cases stepCases h with
    | @control r s s' done =>
      have old : commit ∈ run.committedBy i moves := by
        rcases member with old | new
        · exact old
        · simp [commitsIn] at new
      have repaired : Repaired run s s' := ranRepairs (.move upTo h) rfl
      by_cases overwritten : repairedIn i s s'
      · obtain ⟨k,longest,same,_⟩ := repaired.repaired i bound overwritten
        have covered := cover moves _ [] rfl rfl i bound overwritten k longest commit old
        exact same ▸ covered
      · exact repaired.spared i bound overwritten ▸ earlier commit old
    | @turn r k s s' done =>
      have turned := turnFacts done
      rcases member with old | new
      · exact storedPrefix (turnedPrefix turned i) (earlier commit old)
      · by_cases own : k = i
        · subst k
          change Stored (s'.commitHistoryByNode i) commit
          rw [turned.history]
          exact timedStored (by simpa [commitsIn] using new)
        · simp [commitsIn,own] at new
    | network =>
      rcases member with old | new
      · exact earlier commit old
      · simp [commitsIn] at new

theorem durableWhenCovered (ran : Ran run.system moves pt) :
    Durable run moves ↔ RepairsCover run moves := by
  constructor
  · intro durable pre m post split control i bound overwritten k longest commit member
    have stays := durable pre m post split i bound commit (committedSnoc.mpr (Or.inl member))
    obtain ⟨j,other,same,_⟩ := (ranRepairs (split ▸ ran) control).repaired i bound overwritten
    rw [same,longestUnique other longest] at stays
    exact stays
  · intro cover pre m post split i bound
    obtain ⟨_,_,upTo⟩ := ranAt (split ▸ ran)
    refine ranStored upTo ?_ bound
    intro a x b inner
    exact cover a x (b ++ post) (by rw [split,List.append_cons,inner]; simp)

/- Node 2 is down in rounds 1 and 17, and in round 15 only node 2 hears anybody, so that
it alone commits round 14. -/
def loneCommit : ClusterRun :=
  { nodeCount := 3
    rounds := 19
    timing := ⟨1,0,2,0,0,1,0,0⟩
    payloadFactory := fun _ _ => ""
    networkFaultModel := fun packet dst =>
      {deliverRound := if packet.roundId = 15 ∧ dst ≠ 2 then none else some packet.roundId}
    nodeFaultModel := fun i r => decide (i ≠ 2 ∨ r ≠ 1 ∧ r ≠ 17)
    hash := ⟨fun _ => "",fun _ _ => ""⟩ }

def lostBy (run : ClusterRun) (i : Nat) (result : List (Move Point Phase) × Point) : Bool :=
  (run.committedBy i result.1).any (fun commit => !decide (Stored (result.2.cluster.commitHistoryByNode i) commit))

theorem commitLost :
    ¬ ∀ run moves pt, 0 < run.timing.roundLengthNs → Faithful run → Ran run.system moves pt →
      Durable run moves := by
  intro claim
  have faithful : Faithful loneCommit := fun _ _ => ⟨rfl,by simp [loneCommit]⟩
  have value : (loneCommit.walk 19).toOption.map (lostBy loneCommit 2) = some true := by decide +kernel
  obtain ⟨moves,pt,ran,found⟩ := walkFound value
  simp only [lostBy,List.any_eq_true,Bool.not_eq_true',decide_eq_false_iff_not] at found
  obtain ⟨commit,member,lost⟩ := found
  rcases List.eq_nil_or_concat moves with rfl | ⟨pre,m,rfl⟩
  · simp [committedBy] at member
  · rw [List.concat_eq_append] at ran member
    obtain ⟨_,_,same⟩ := ranSnoc ran
    have stays := claim loneCommit _ pt (by decide) faithful ran pre m [] rfl 2 (by decide) commit member
    exact lost (same ▸ stays)

theorem durableWhenCoveredOnce :
    ∃ moves pt, Ran loneCommit.system moves pt ∧ moves.length = 60 ∧
      (Durable loneCommit moves ↔ RepairsCover loneCommit moves) := by
  have value : (loneCommit.walk 12).toOption.map (fun result => result.1.length) = some 60 := by
    decide +kernel
  obtain ⟨moves,pt,ran,found⟩ := walkFound value
  exact ⟨moves,pt,ran,found,durableWhenCovered ran⟩

end ClusterRun
end Syncons
