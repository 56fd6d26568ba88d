import Syncons.Attention
import Syncons.Stages
import Syncons.Durability

/-! The commit stream of one node. Under one run id the node crosses consecutive rounds
from the first one after the reset that installed the run, and commits each of them two
rounds later, until it goes down or is reconfigured; it commits nothing twice. -/
namespace Syncons
open Outcome Runs
open OnlineRejoinControlPlane (inState)

namespace ClusterRun

variable {run : ClusterRun} {pt pt' : Point} {s s' : Cluster} {i : Nat} {phase : Phase}
  {moves pre post : List (Move Point Phase)} {m : Move Point Phase} {k : Int} {r R : Nat}
  {shown state : ControlPlaneState} {n c n' : Node} {last : Option ControlPlaneUpdate}

def crosses (run : ClusterRun) (i : Nat) (m : Move Point Phase) : Prop :=
  ∃ n ∈ run.turning i m, (n.configured (run.params i) m.before.round).participates (run.params i)
instance (run : ClusterRun) (i : Nat) (m : Move Point Phase) : Decidable (run.crosses i m) := by
  unfold crosses; infer_instance

def runIn (i : Nat) (m : Move Point Phase) : Int := (m.after.cluster.nodes i).runId

def installsRun (i : Nat) (k : Int) (m : Move Point Phase) : Prop :=
  m.op = .turn i ∧ (m.before.cluster.nodes i).runId ≠ k ∧ runIn i m = k
instance (i : Nat) (k : Int) (m : Move Point Phase) : Decidable (installsRun i k m) := by
  unfold installsRun; infer_instance

def crossedUnder (run : ClusterRun) (i : Nat) (k : Int) (moves : List (Move Point Phase)) : List Int :=
  (moves.filter (fun m => run.crosses i m ∧ runIn i m = k)).map (fun m => m.before.round)

def committedUnder (run : ClusterRun) (i : Nat) (k : Int) (moves : List (Move Point Phase)) : List Int :=
  (moves.filter (fun m => runIn i m = k)).flatMap
    (fun m => (run.commitsIn i m).map (fun c => c.round))

def roundsFrom (first : Int) (count : Nat) : List Int :=
  (List.range count).map (fun j : Nat => first + j)

structure ContiguousStream (run : ClusterRun) (i : Nat) (moves : List (Move Point Phase)) : Prop where
  twoBehind : ∀ m ∈ moves, ∀ c ∈ run.commitsIn i m, run.crosses i m ∧ c.round + 2 = m.before.round
  once : ((run.committedBy i moves).map (fun c => c.round)).Pairwise (· < ·)
  initial : ∃ count, committedUnder run i 0 moves = roundsFrom 0 count
  installed : ∀ m ∈ moves, run.commitsIn i m ≠ [] → runIn i m = 0 ∨
    ∃ x ∈ moves, installsRun i (runIn i m) x
  contiguous : ∀ pre m post k, moves = pre ++ m :: post → installsRun i k m →
    run.reconfiguredIn i m ∧ ∃ first count, committedUnder run i k moves = roundsFrom first count ∧
      (count ≠ 0 →
        ((m :: post).find? (fun x => run.crosses i x)).map (fun x => (x.before.round : Int)) = some first)
  spared : ∀ m ∈ moves, run.reconfiguredIn i m → ∀ c ∈ run.committedBy i moves,
    c.round + 1 ≠ m.before.round ∧ c.round + 2 ≠ m.before.round

section Turn

theorem turningSame (h : n ∈ run.turning i m) : n = m.before.cluster.nodes i := by
  obtain ⟨_,open',rfl⟩ := turningSome h
  unfold faulted at open' ⊢
  split
  · rfl
  · rename_i off
    rw [if_neg off] at open'
    obtain ⟨_,crashed⟩ | ⟨_,same⟩ := Node.crashCases (run.params i) (m.before.cluster.nodes i) m.before.round
    · rw [crashed] at open'
      exact absurd ⟨rfl,rfl⟩ open'
    · exact same

theorem commitsElsewhere (other : m.op ≠ .turn i) :
    run.commitsIn i m = [] ∧ ¬ run.crosses i m ∧ ¬ run.reconfiguredIn i m := by
  have none (n : Node) : n ∉ run.turning i m := fun member => other (turningSome member).1
  exact ⟨if_neg other,fun ⟨n,member,_⟩ => none n member,fun ⟨n,member,_⟩ => none n member⟩

-- A node that goes on under its run id keeps its stages; under a new one they are empty.
inductive Carried (n c : Node) (r : Int) : Prop where
  | anew (older : n.runId < c.runId) (blank : Node.Blank c)
  | on (up : up n) (same : c.runId = n.runId) (stages : Node.SameStages n c)
      (quiet : ¬ n.reconfigures r)

theorem sameUpdate {u : ControlPlaneUpdate} (config : n.config = u.installedConfig)
    (active : n.membershipState = .active) : n.updateResets u = false := by
  simp only [Node.config] at config
  simp [Node.updateResets,← config,active]

theorem carried (p : NodeParams) (pushed : Pushed r shown i last n) (ready : Shown r shown)
    (renewed : Renewed r shown i n) (active : inState shown i .active) :
    Carried n (n.configured p r) r := by
  have tuned := configuredTuned p pushed ready
  have runId : (n.configured p r).runId = shown.installedConfig.runId :=
    congrArg InstalledConfig.runId tuned.mirrors.1
  by_cases older : n.runId < shown.installedConfig.runId
  · refine .anew (runId ▸ older) ?_
    by_cases resets : n.reconfigures r
    · exact Node.reconfiguredBlank pushed.standing.wired resets
    · have kept := (Node.unreconfigured (p := p) pushed.standing.wired resets).2
      have same : (n.configured p r).runId = n.runId := congrArg InstalledConfig.runId kept
      omega
  · have current : n.runId = shown.installedConfig.runId := by
      have behind := pushed.standing.behind
      omega
    have running : n.status = .running := by
      by_contra down
      have := pushed.dormant down active
      omega
    obtain ⟨state,config,quiet⟩ := renewed running active current
    have kept : ¬ n.reconfigures r := by
      rintro (due | ⟨u,held,resets⟩)
      · simp [quiet] at due
      · have latest : u = buildControlPlaneUpdate i shown := by
          rcases pushed.standing.synced _ pushed.latest with ⟨empty,_⟩ | full
          · cases empty.symm.trans held
          · exact Option.some.inj (held.symm.trans full)
        rw [latest] at resets
        exact Bool.noConfusion ((sameUpdate config state).symm.trans resets)
    exact .on ⟨running,state⟩ (runId.trans current.symm)
      (Node.unreconfigured (p := p) pushed.standing.wired kept).1 kept

inductive Went (run : ClusterRun) (i : Nat) (m : Move Point Phase) : Prop where
  | rested (commits : run.commitsIn i m = []) (still : ¬ run.crosses i m)
      (down : ¬ up (m.after.cluster.nodes i))
      (grows : (m.before.cluster.nodes i).runId ≤ (m.after.cluster.nodes i).runId)
  | crossed {c n' : Node} {result : NodeRoundResult} (crosses : run.crosses i m)
      (carried : Carried (m.before.cluster.nodes i) c m.before.round)
      (crossed : Node.Crossed (run.params i) c m.before.round n' result) (alive : c.status = .running)
      (after : m.after.cluster.nodes i = {n' with controlPlaneEventOutbox := []})
      (commits : run.commitsIn i m = result.newCommits)

theorem turnWent (inside : i < run.nodeCount) (attending : run.Attending i m.before)
    (step : run.system.step m.before m.op m.after) (own : m.op = .turn i) : Went run i m := by
  obtain ⟨before,op,after⟩ := m
  cases own
  cases stepCases step with
  | @turn r i s s' done =>
    obtain ⟨_,shown,state,midround,_,todo⟩ := attending
    have renewed := todo le_rfl
    obtain ⟨_,_,turned,_⟩ := turnMirrored midround inside done
    have pushed := midround.todo i le_rfl inside
    have tuned := configuredTuned (run.params i) pushed midround.ready
    have commits : run.commitsIn i ⟨⟨r,.turn i,s⟩,.turn i,⟨r,run.turnFrom (i + 1),s'⟩⟩ =
        (run.advanced r i (s.nodes i)).2.newCommits := if_pos rfl
    have joins := tunedJoins rfl tuned
    cases own : run.turning i ⟨⟨r,.turn i,s⟩,.turn i,⟨r,run.turnFrom (i + 1),s'⟩⟩ with
    | none =>
      have hidden : (run.faulted r i (s.nodes i)).masked r := by
        by_contra shownOpen
        simp [turning,shownOpen] at own
      have rests : run.advanced r i (s.nodes i) =
          ({run.faulted r i (s.nodes i) with currentRound := r},⟨none,[]⟩) := by
        obtain ⟨_,done⟩ | ⟨shownOpen,_⟩ | ⟨shownOpen,_⟩ :=
          Node.advanceRoundCases (run.params i) (run.faulted r i (s.nodes i)) r
        · exact done
        · exact absurd hidden shownOpen
        · exact absurd hidden shownOpen
      have runId := faultedRunId run r i (s.nodes i)
      refine .rested (by rw [commits,rests]) ?_ ?_ ?_
      · rintro ⟨n,member,_⟩
        rw [own] at member
        cases member
      · dsimp only
        rw [turned.node,rests]
        rintro ⟨running,_⟩
        exact NodeStatus.noConfusion (hidden.1.symm.trans running)
      · dsimp only
        rw [turned.node,rests]
        exact runId.ge
    | some n =>
      have same := turningSame own
      dsimp only at same
      have shape := turningSome own
      dsimp only at shape
      obtain ⟨_,open',faultless⟩ := shape
      have advanced : run.advanced r i (s.nodes i) = n.advanceRound (run.params i) r := by
        rw [ClusterRun.advanced,← faultless]
      subst same
      have runId : ((s.nodes i).configured (run.params i) r).runId = shown.installedConfig.runId :=
        congrArg InstalledConfig.runId tuned.mirrors.1
      obtain ⟨masked,_⟩ | ⟨_,out,done⟩ | ⟨_,joined,done⟩ :=
        Node.advanceRoundCases (run.params i) (s.nodes i) r
      · exact absurd masked open'
      · refine .rested (by rw [commits,advanced,done]) ?_ ?_ ?_
        · rintro ⟨n,member,takes⟩
          cases Option.some.inj (member.symm.trans own)
          exact out takes
        · dsimp only
          rw [turned.node,advanced,done]
          rintro ⟨_,active⟩
          exact out (joins.mpr ((tunedState tuned).mp active))
        · dsimp only
          rw [turned.node,advanced,done]
          exact pushed.standing.behind.trans runId.ge
      · have active := joins.mp joined
        refine .crossed ⟨_,own,joined⟩ (carried _ pushed midround.ready renewed active)
          (Node.crossBoundaryFacts _ _ _) (tuned.running active) ?_ ?_
        · dsimp only
          rw [turned.node,advanced,done]
        · rw [commits,advanced,done]

end Turn

section Ledger

def turnsAt (i : Nat) (pt : Point) : Nat :=
  match pt.phase with
  | .control => pt.round
  | .turn k => if i < k then pt.round + 1 else pt.round
  | .network => pt.round + 1

-- What the stages of a node that has crossed `len` rounds under its run hold before round `R`.
structure Carrying (first : Int) (len : Nat) (R : Int) (n : Node) : Prop where
  next : first + len = R
  current : n.currentStage.roundId = R - 1
  previous : if len = 1 then n.previousStage.roundId < 0 else n.previousStage.roundId = R - 2

structure Stream (run : ClusterRun) (i : Nat) (k : Int) (moves : List (Move Point Phase)) (R : Int)
    (n : Node) (first : Int) (len count : Nat) : Prop where
  crossed : crossedUnder run i k moves = roundsFrom first len
  committed : committedUnder run i k moves = roundsFrom first count
  initial : k = 0 → first = 0
  within : count ≤ len
  nonneg : 0 ≤ first
  live : up n → n.runId = k →
    len = 0 ∧ R = 0 ∧ Fresh n ∨ 0 < len ∧ count = len - 2 ∧ Carrying first len R n

structure Ledger (run : ClusterRun) (i : Nat) (moves : List (Move Point Phase)) (R : Nat)
    (n : Node) : Prop where
  nonneg : 0 ≤ n.runId
  behind : ∀ m ∈ moves, runIn i m ≤ n.runId
  past : ∀ c ∈ run.committedBy i moves, c.round + 2 < R
  ascending : ((run.committedBy i moves).map (fun c => c.round)).Pairwise (· < ·)
  twoBehind : ∀ m ∈ moves, ∀ c ∈ run.commitsIn i m, run.crosses i m ∧ c.round + 2 = m.before.round
  streams : ∀ k, ∃ first len count, Stream run i k moves R n first len count
  installed : n.runId = 0 ∨ ∃ m ∈ moves, installsRun i n.runId m
  reached : ∀ m ∈ moves, run.reconfiguredIn i m → (m.before.round : Int) < R ∧
    (∀ c ∈ run.committedBy i moves,
      c.round + 1 ≠ m.before.round ∧ c.round + 2 ≠ m.before.round) ∧
    ((m.before.round : Int) + 1 = R → up n → n.previousStage.roundId < 0)

theorem committedBySnoc :
    run.committedBy i (moves ++ [m]) = run.committedBy i moves ++ run.commitsIn i m := by
  simp [committedBy]

theorem crossedUnderSnoc : crossedUnder run i k (moves ++ [m]) = crossedUnder run i k moves ++
    if run.crosses i m ∧ runIn i m = k then [(m.before.round : Int)] else [] := by
  by_cases takes : run.crosses i m ∧ runIn i m = k <;> simp [crossedUnder,List.filter_append,takes]

theorem committedUnderSnoc : committedUnder run i k (moves ++ [m]) = committedUnder run i k moves ++
    if runIn i m = k then (run.commitsIn i m).map (fun c => c.round) else [] := by
  by_cases takes : runIn i m = k <;> simp [committedUnder,List.filter_append,takes]

theorem roundsFromSucc (first : Int) (count : Nat) :
    roundsFrom first (count + 1) = roundsFrom first count ++ [first + count] := by
  simp [roundsFrom,List.range_succ]

structure Aside (n n' : Node) : Prop where
  up : up n' → up n
  runId : n'.runId = n.runId
  current : n'.currentStage.roundId = n.currentStage.roundId
  rows : n.currentStage.rows = ∅ → n'.currentStage.rows = ∅
  previous : n'.previousStage.roundId = n.previousStage.roundId

theorem streamAside {first : Int} {len count : Nat} (aside : Aside n n')
    (elsewhere : m.op ≠ .turn i) (h : Stream run i k moves R n first len count) :
    Stream run i k (moves ++ [m]) R n' first len count := by
  obtain ⟨commits,still,_⟩ := @commitsElsewhere run i m elsewhere
  refine ⟨?_,?_,h.initial,h.within,h.nonneg,?_⟩
  · rw [crossedUnderSnoc,if_neg (fun takes => still takes.1),List.append_nil,h.crossed]
  · rw [committedUnderSnoc,commits]
    simp [h.committed]
  · intro running same
    rcases h.live (aside.up running) (aside.runId.symm.trans same) with
      ⟨none,start,fresh⟩ | ⟨some,size,carrying⟩
    · exact Or.inl ⟨none,start,⟨aside.current.trans_lt fresh.current,aside.rows fresh.rows,
        aside.previous.trans_lt fresh.previous⟩⟩
    · refine Or.inr ⟨some,size,carrying.next,aside.current.trans carrying.current,?_⟩
      rw [aside.previous]
      exact carrying.previous

theorem ledgerAside (aside : Aside n n') (elsewhere : m.op ≠ .turn i)
    (runId : runIn i m = n'.runId) (h : Ledger run i moves R n) :
    Ledger run i (moves ++ [m]) R n' := by
  obtain ⟨commits,still,kept⟩ := @commitsElsewhere run i m elsewhere
  have same : run.committedBy i (moves ++ [m]) = run.committedBy i moves := by
    rw [committedBySnoc,commits,List.append_nil]
  constructor
  · rw [aside.runId]
    exact h.nonneg
  · intro x member
    rcases List.mem_append.mp member with old | new
    · rw [aside.runId]
      exact h.behind x old
    · rw [List.mem_singleton.mp new,runId]
  · rw [same]
    exact h.past
  · rw [same]
    exact h.ascending
  · intro x member c inside
    rcases List.mem_append.mp member with old | new
    · exact h.twoBehind x old c inside
    · rw [List.mem_singleton.mp new,commits] at inside
      cases inside
  · intro k
    obtain ⟨first,len,count,stream⟩ := h.streams k
    exact ⟨first,len,count,streamAside aside elsewhere stream⟩
  · rw [aside.runId]
    exact h.installed.imp id (fun ⟨x,member,installs⟩ => ⟨x,List.mem_append_left _ member,installs⟩)
  · intro x member resets
    rcases List.mem_append.mp member with old | new
    · obtain ⟨before,spared,empty⟩ := h.reached x old resets
      rw [same,aside.previous]
      exact ⟨before,spared,fun next running => empty next (aside.up running)⟩
    · rw [List.mem_singleton.mp new] at resets
      exact absurd resets kept

theorem ledgerRests (own : m.op = .turn i) (round : m.before.round = R)
    (before : m.before.cluster.nodes i = n) (after : m.after.cluster.nodes i = n')
    (commits : run.commitsIn i m = []) (still : ¬ run.crosses i m) (down : ¬ up n')
    (grows : n.runId ≤ n'.runId) (h : Ledger run i moves R n) :
    Ledger run i (moves ++ [m]) (R + 1) n' := by
  have same : run.committedBy i (moves ++ [m]) = run.committedBy i moves := by
    rw [committedBySnoc,commits,List.append_nil]
  have runId : runIn i m = n'.runId := by rw [runIn,after]
  constructor
  case nonneg => exact h.nonneg.trans grows
  case behind =>
    intro x member
    rcases List.mem_append.mp member with old | new
    · exact (h.behind x old).trans grows
    · rw [List.mem_singleton.mp new,runId]
  case past =>
    intro c member
    rw [same] at member
    have := h.past c member
    omega
  case ascending =>
    rw [same]
    exact h.ascending
  case twoBehind =>
    intro x member c inside
    rcases List.mem_append.mp member with old | new
    · exact h.twoBehind x old c inside
    · rw [List.mem_singleton.mp new,commits] at inside
      cases inside
  case streams =>
    intro k
    obtain ⟨first,len,count,stream⟩ := h.streams k
    refine ⟨first,len,count,?_,?_,stream.initial,stream.within,stream.nonneg,
      fun running => absurd running down⟩
    · rw [crossedUnderSnoc,if_neg (fun takes => still takes.1),List.append_nil,stream.crossed]
    · rw [committedUnderSnoc,commits]
      simp [stream.committed]
  case installed =>
    by_cases kept : n'.runId = n.runId
    · rw [kept]
      exact h.installed.imp id (fun ⟨x,member,installs⟩ => ⟨x,List.mem_append_left _ member,installs⟩)
    · exact Or.inr ⟨m,by simp,own,by rw [before]; exact Ne.symm kept,runId⟩
  case reached =>
    intro x member resets
    rcases List.mem_append.mp member with old | new
    · obtain ⟨earlier,spared,_⟩ := h.reached x old resets
      rw [same]
      exact ⟨by omega,spared,fun _ running => absurd running down⟩
    · rw [List.mem_singleton.mp new,same]
      refine ⟨by omega,?_,fun _ running => absurd running down⟩
      intro c member
      have := h.past c member
      omega

structure Passed (c n' : Node) (R : Int) (result : NodeRoundResult) : Prop where
  current : n'.currentStage.roundId = R
  previous : n'.previousStage.roundId = c.currentStage.roundId
  runId : n'.runId = c.runId
  early : c.previousStage.roundId < 0 → result.newCommits = []
  late : result.newCommits = [] ∨
    ∃ commit, result.newCommits = [commit] ∧ commit.round = c.previousStage.roundId
  goes : up n' → 0 ≤ c.previousStage.roundId → result.newCommits ≠ []

theorem crossedPassed {p : NodeParams} {result : NodeRoundResult} {R : Int}
    (crossed : Node.Crossed p c R n' result) : Passed c n' R result := by
  have runId : n'.runId = c.runId := congrArg InstalledConfig.runId crossed.config
  have verdict := crossed.verdict
  refine ⟨by rw [crossed.current]; rfl,by rw [crossed.previous]; rfl,runId,?_,?_,?_⟩
  · intro early
    cases verdict with
    | skip _ status sound outbox => rfl
    | halt round status sound record outbox => rfl
    | commit judged status sound outbox =>
      have := judged.round
      omega
  · cases verdict with
    | skip _ status sound outbox => exact Or.inl rfl
    | halt round status sound record outbox => exact Or.inl rfl
    | commit judged status sound outbox => exact Or.inr ⟨_,rfl,rfl⟩
  · intro running late
    cases verdict with
    | skip early status sound outbox => omega
    | halt round status sound record outbox =>
      exact NodeStatus.noConfusion (status.symm.trans running.1)
    | commit judged status sound outbox => exact List.cons_ne_nil _ _

theorem streamKept {first : Int} {len count : Nat} {result : NodeRoundResult} (running : up n)
    (under : n.runId = k) (stages : Node.SameStages n c) (passed : Passed c n' R result)
    (crossedMore : crossedUnder run i k (moves ++ [m]) = crossedUnder run i k moves ++ [(R : Int)])
    (committedMore : committedUnder run i k (moves ++ [m]) =
      committedUnder run i k moves ++ result.newCommits.map (fun c => c.round))
    (h : Stream run i k moves R n first len count) :
    ∃ first len count, Stream run i k (moves ++ [m]) (R + 1) n' first len count := by
  have previous : n'.previousStage.roundId = n.currentStage.roundId := by
    rw [passed.previous,stages.current]
  have judged : c.previousStage.roundId = n.previousStage.roundId := by rw [stages.previous]
  have current : n'.currentStage.roundId = (R : Int) + 1 - 1 := by
    rw [passed.current]
    omega
  rcases h.live running under with ⟨empty,start,fresh⟩ | ⟨positive,size,carrying⟩
  · have none : result.newCommits = [] := passed.early (judged ▸ fresh.previous)
    have nothing : count = 0 := by
      have := h.within
      omega
    refine ⟨R,1,0,?_,?_,fun _ => start,by omega,by omega,?_⟩
    · rw [crossedMore,h.crossed,empty]
      simp [roundsFrom]
    · rw [committedMore,h.committed,none,nothing]
      rfl
    · intro _ _
      refine Or.inr ⟨by omega,rfl,rfl,current,?_⟩
      rw [if_pos rfl,previous]
      exact fresh.current
  · have next := carrying.next
    have start := h.nonneg
    have grown : crossedUnder run i k (moves ++ [m]) = roundsFrom first (len + 1) := by
      rw [crossedMore,h.crossed,roundsFromSucc,next]
    have behind : n'.previousStage.roundId = (R : Int) + 1 - 2 := by
      rw [previous,carrying.current]
      omega
    by_cases one : len = 1
    · have early : n.previousStage.roundId < 0 := by
        have held := carrying.previous
        rwa [if_pos one] at held
      have none : result.newCommits = [] := passed.early (judged ▸ early)
      refine ⟨first,len + 1,count,grown,?_,h.initial,by omega,h.nonneg,?_⟩
      · rw [committedMore,h.committed,none]
        simp
      · intro _ _
        refine Or.inr ⟨by omega,by omega,by push_cast; omega,current,?_⟩
        rw [if_neg (by omega)]
        exact behind
    · have late : n.previousStage.roundId = R - 2 := by
        have held := carrying.previous
        rwa [if_neg one] at held
      rcases passed.late with none | ⟨commit,some,round⟩
      · refine ⟨first,len + 1,count,grown,?_,h.initial,by omega,h.nonneg,?_⟩
        · rw [committedMore,h.committed,none]
          simp
        · intro alive _
          exact absurd none (passed.goes alive (by rw [judged]; omega))
      · refine ⟨first,len + 1,count + 1,grown,?_,h.initial,by omega,h.nonneg,?_⟩
        · rw [committedMore,h.committed,some,roundsFromSucc,List.map_singleton,round,judged,late]
          congr 2
          omega
        · intro _ _
          refine Or.inr ⟨by omega,by omega,by push_cast; omega,current,?_⟩
          rw [if_neg (by omega)]
          exact behind

theorem streamCrosses {first : Int} {len count : Nat} {result : NodeRoundResult}
    (takes : run.crosses i m) (round : m.before.round = R) (runId : runIn i m = n'.runId)
    (commits : run.commitsIn i m = result.newCommits) (carried : Carried n c R)
    (passed : Passed c n' R result) (nonneg : 0 ≤ n.runId)
    (behind : ∀ x ∈ moves, runIn i x ≤ n.runId) (h : Stream run i k moves R n first len count) :
    ∃ first len count, Stream run i k (moves ++ [m]) (R + 1) n' first len count := by
  by_cases here : n'.runId = k
  · have crossedMore : crossedUnder run i k (moves ++ [m]) =
        crossedUnder run i k moves ++ [(R : Int)] := by
      rw [crossedUnderSnoc,if_pos ⟨takes,runId.trans here⟩,round]
    have committedMore : committedUnder run i k (moves ++ [m]) =
        committedUnder run i k moves ++ result.newCommits.map (fun c => c.round) := by
      rw [committedUnderSnoc,if_pos (runId.trans here),commits]
    cases carried with
    | anew older blank =>
      have later : n.runId < k := by rw [← here,passed.runId]; exact older
      have unseen : moves.filter (fun m => runIn i m = k) = [] := by
        rw [List.filter_eq_nil_iff]
        intro x member same
        have := behind x member
        simp only [decide_eq_true_eq] at same
        omega
      have uncrossed : crossedUnder run i k moves = [] := by
        rw [crossedUnder,List.map_eq_nil_iff,List.filter_eq_nil_iff]
        intro x member same
        have := behind x member
        simp only [decide_eq_true_eq] at same
        omega
      have uncommitted : committedUnder run i k moves = [] := by rw [committedUnder,unseen]; rfl
      have none : result.newCommits = [] := passed.early (by simp [blank.previous,Node.blankStage])
      refine ⟨R,1,0,?_,?_,by omega,by omega,by omega,?_⟩
      · rw [crossedMore,uncrossed]
        simp [roundsFrom]
      · rw [committedMore,uncommitted,none]
        rfl
      · intro _ _
        refine Or.inr ⟨by omega,rfl,rfl,by rw [passed.current]; omega,?_⟩
        simp [passed.previous,blank.current,Node.blankStage]
    | on running same stages quiet =>
      have under : n.runId = k := by rw [← here,passed.runId,same]
      exact streamKept running under stages passed crossedMore committedMore h
  · have apart : ¬ runIn i m = k := by rw [runId]; exact here
    refine ⟨first,len,count,?_,?_,h.initial,h.within,h.nonneg,fun _ same => absurd same here⟩
    · rw [crossedUnderSnoc,if_neg (fun takes => apart takes.2),List.append_nil,h.crossed]
    · rw [committedUnderSnoc,if_neg apart,List.append_nil,h.committed]

theorem carriedGrows (carried : Carried n c R) : n.runId ≤ c.runId := by
  cases carried with
  | anew older blank => exact older.le
  | on running same stages quiet => exact same.ge

theorem crossedCommits {result : NodeRoundResult} (commits : run.commitsIn i m = result.newCommits)
    (carried : Carried n c R) (passed : Passed c n' R result) (h : Ledger run i moves R n)
    (resets : run.reconfiguredIn i m → Node.Blank c) :
    ∀ commit ∈ run.commitsIn i m, commit.round + 2 = R ∧ up n ∧
      ¬ n.previousStage.roundId < 0 ∧ ¬ run.reconfiguredIn i m := by
  intro commit member
  rw [commits] at member
  rcases passed.late with none | ⟨only,some,stage⟩
  · rw [none] at member
    cases member
  · have late : ¬ c.previousStage.roundId < 0 := by
      intro early
      rw [passed.early early] at some
      cases some
    rw [some,List.mem_singleton] at member
    subst member
    cases carried with
    | anew older blank => exact absurd (by simp [blank.previous,Node.blankStage]) late
    | on running same stages quiet =>
      rw [stages.previous] at late stage
      obtain ⟨first,len,count,stream⟩ := h.streams n.runId
      rcases stream.live running rfl with ⟨_,_,clear⟩ | ⟨_,_,carrying⟩
      · exact absurd clear.previous late
      · have held := carrying.previous
        split at held
        · exact absurd held late
        · refine ⟨by rw [stage,held]; omega,running,late,?_⟩
          intro anew
          have blank := (resets anew).previous
          rw [stages.previous] at blank
          exact late (by simp [blank,Node.blankStage])

theorem ledgerCrosses {result : NodeRoundResult} (own : m.op = .turn i) (round : m.before.round = R)
    (before : m.before.cluster.nodes i = n) (after : m.after.cluster.nodes i = n')
    (takes : run.crosses i m) (commits : run.commitsIn i m = result.newCommits)
    (carried : Carried n c R) (passed : Passed c n' R result) (h : Ledger run i moves R n)
    (resets : run.reconfiguredIn i m → Node.Blank c) :
    Ledger run i (moves ++ [m]) (R + 1) n' := by
  have runId : runIn i m = n'.runId := by rw [runIn,after]
  have grows : n.runId ≤ n'.runId := passed.runId ▸ carriedGrows carried
  have fresh := crossedCommits commits carried passed h resets
  constructor
  case nonneg => exact h.nonneg.trans grows
  case behind =>
    intro x member
    rcases List.mem_append.mp member with old | new
    · exact (h.behind x old).trans grows
    · rw [List.mem_singleton.mp new,runId]
  case past =>
    intro commit member
    rw [committedBySnoc] at member
    rcases List.mem_append.mp member with old | new
    · have := h.past commit old
      omega
    · have := (fresh commit new).1
      omega
  case ascending =>
    rw [committedBySnoc,List.map_append,List.pairwise_append]
    refine ⟨h.ascending,?_,?_⟩
    · rw [commits]
      rcases passed.late with none | ⟨only,some,_⟩
      · simp [none]
      · simp [some]
    · intro a left b right
      obtain ⟨x,old,rfl⟩ := List.mem_map.mp left
      obtain ⟨y,new,rfl⟩ := List.mem_map.mp right
      have := h.past x old
      have := (fresh y new).1
      omega
  case twoBehind =>
    intro x member commit inside
    rcases List.mem_append.mp member with old | new
    · exact h.twoBehind x old commit inside
    · rw [List.mem_singleton.mp new] at inside ⊢
      exact ⟨takes,by rw [round]; exact (fresh commit inside).1⟩
  case streams =>
    intro k
    obtain ⟨first,len,count,stream⟩ := h.streams k
    exact streamCrosses takes round runId commits carried passed h.nonneg h.behind stream
  case installed =>
    by_cases kept : n'.runId = n.runId
    · rw [kept]
      exact h.installed.imp id (fun ⟨x,member,installs⟩ => ⟨x,List.mem_append_left _ member,installs⟩)
    · exact Or.inr ⟨m,by simp,own,by rw [before]; exact Ne.symm kept,runId⟩
  case reached =>
    intro x member anew
    rcases List.mem_append.mp member with old | new
    · obtain ⟨earlier,spared,empty⟩ := h.reached x old anew
      refine ⟨by omega,?_,fun next => absurd next (by omega)⟩
      intro commit inside
      rw [committedBySnoc] at inside
      rcases List.mem_append.mp inside with past | now
      · exact spared commit past
      · obtain ⟨two,running,late,_⟩ := fresh commit now
        refine ⟨?_,by omega⟩
        intro one
        exact late (empty (by omega) running)
    · rw [List.mem_singleton.mp new] at anew ⊢
      have blank := resets anew
      refine ⟨by omega,?_,?_⟩
      · intro commit inside
        rw [committedBySnoc] at inside
        rcases List.mem_append.mp inside with past | now
        · have := h.past commit past
          omega
        · exact absurd anew (fresh commit now).2.2.2
      · intro _ _
        rw [passed.previous,blank.current]
        simp [Node.blankStage]

theorem asideRefl (n : Node) : Aside n n := ⟨id,rfl,rfl,id,rfl⟩

theorem pushedAside (one : PushedOne shown i s s') : Aside (s.nodes i) (s'.nodes i) := by
  by_cases new : pushed shown i s
  · rw [one.node new]
    exact ⟨id,rfl,rfl,id,rfl⟩
  · rw [(one.quiet new).1]
    exact asideRefl _

theorem receivedAside (n : Node) (packet : Packet) : Aside n (n.receive packet) := by
  obtain ⟨_,after⟩ | ⟨_,after⟩ := Node.receiveCases n packet
  · rw [after]
    exact ⟨id,rfl,rfl,id,rfl⟩
  · rw [after]
    exact asideRefl n

theorem asideTrans {mid : Node} (a : Aside n mid) (b : Aside mid n') : Aside n n' :=
  ⟨a.up ∘ b.up,b.runId.trans a.runId,b.current.trans a.current,b.rows ∘ a.rows,
    b.previous.trans a.previous⟩

theorem networkAside (run : ClusterRun) (r : Nat) (s : Cluster) (i : Nat) :
    Aside (s.nodes i) ((run.advanceNetwork r s).nodes i) := by
  have whole := @networkInvariant run s (fun _ _ => True) (fun nodes => Aside (s.nodes i) (nodes i)) r
    (fun _ _ _ => ⟨trivial,fun _ _ => trivial⟩) ?_ (asideRefl _) (fun _ _ _ => trivial)
  · exact whole.1
  · intro nodes dst packet before _
    by_cases same : i = dst
    · subst i
      rw [Function.update_self]
      exact asideTrans before (receivedAside _ _)
    · rw [Function.update_of_ne same]
      exact before

theorem turnsFrom {k : Nat} (inside : i < run.nodeCount) :
    turnsAt i ⟨r,run.turnFrom k,s⟩ = if i < k then r + 1 else r := by
  unfold turnFrom
  split
  · rfl
  · rw [turnsAt,if_pos (by omega)]

theorem stepLedger (inside : i < run.nodeCount) (attending : run.Attending i m.before)
    (step : run.system.step m.before m.op m.after)
    (h : Ledger run i moves (turnsAt i m.before) (m.before.cluster.nodes i)) :
    Ledger run i (moves ++ [m]) (turnsAt i m.after) (m.after.cluster.nodes i) := by
  by_cases own : m.op = .turn i
  · have before : turnsAt i m.before = m.before.round ∧ turnsAt i m.after = m.before.round + 1 := by
      obtain ⟨before,op,after⟩ := m
      cases own
      cases stepCases step with
      | turn done => exact ⟨if_neg (lt_irrefl i),by rw [turnsFrom inside,if_pos (Nat.lt_succ_self i)]⟩
    rw [before.1] at h
    rw [before.2]
    cases turnWent inside attending step own with
    | rested commits still down grows =>
      exact ledgerRests own rfl rfl rfl commits still down grows h
    | @crossed c n' result takes carried crossed alive after commits =>
      have passed := crossedPassed crossed
      have passed' : Passed c {n' with controlPlaneEventOutbox := []} m.before.round result :=
        ⟨passed.current,passed.previous,passed.runId,passed.early,passed.late,passed.goes⟩
      rw [after]
      refine ledgerCrosses own rfl rfl after takes commits carried passed' h ?_
      rintro ⟨n,member,resets⟩
      cases carried with
      | anew older blank => exact blank
      | on running same stages quiet =>
        rw [turningSame member] at resets
        exact absurd resets quiet
  · obtain ⟨before,op,after⟩ := m
    cases stepCases step with
    | @control r s s' done =>
      obtain ⟨cp,state,boundary,_⟩ := attending
      obtain ⟨_,_,shown,_,_,one⟩ := controlPushed boundary done
      have same : turnsAt i ⟨r,run.turnFrom 0,s'⟩ = r := by
        rw [turnsFrom inside,if_neg (Nat.not_lt_zero i)]
      dsimp only
      rw [same]
      exact ledgerAside (pushedAside (one i inside)) own rfl h
    | @turn r k s s' done =>
      have other : i ≠ k := fun same => own (by rw [same])
      have node := ((turnFacts done).others i other).node
      have same : turnsAt i ⟨r,run.turnFrom (k + 1),s'⟩ = turnsAt i ⟨r,.turn k,s⟩ := by
        rw [turnsFrom inside]
        simp only [turnsAt]
        split <;> split <;> omega
      dsimp only
      rw [same]
      exact ledgerAside (node ▸ asideRefl _) own rfl h
    | @network r s => exact ledgerAside (networkAside run r s i) own rfl h

theorem ranLedger (inside : i < run.nodeCount) (ran : Ran run.system moves pt) :
    Ledger run i moves (turnsAt i pt) (pt.cluster.nodes i) := by
  induction ran with
  | start h =>
    cases h
    constructor
    case nonneg => exact le_refl (0 : Int)
    case behind => simp
    case past => simp [committedBy]
    case ascending => simp [committedBy]
    case twoBehind => simp
    case streams =>
      intro k
      refine ⟨0,0,0,rfl,rfl,fun _ => rfl,le_rfl,le_rfl,fun _ _ => Or.inl ⟨rfl,rfl,?_⟩⟩
      have early : (-1 : Int) < 0 := by decide
      exact ⟨early,rfl,early⟩
    case installed => exact Or.inl rfl
    case reached => simp
  | @move moves s op s' before h ih => exact stepLedger inside (ranAttending inside before) h ih

end Ledger

theorem ranRunIds (inside : i < run.nodeCount) (ran : Ran run.system (pre ++ m :: post) pt) :
    ∀ x ∈ m :: post, runIn i m ≤ runIn i x := by
  intro x member
  obtain ⟨early,late,split⟩ := List.append_of_mem member
  rw [split,← List.append_assoc] at ran
  obtain ⟨_,_,upTo⟩ := ranAt ran
  have ledger := ranLedger inside upTo
  refine ledger.behind m ?_
  rcases early with _ | ⟨head,rest⟩
  · cases split
    simp
  · cases split
    simp

theorem wentGrows (went : Went run i m) : (m.before.cluster.nodes i).runId ≤ runIn i m := by
  cases went with
  | rested commits still down grows => exact grows
  | crossed takes carried crossed alive after commits =>
    have kept := congrArg InstalledConfig.runId crossed.config
    simp only [Node.config] at kept
    rw [runIn,after]
    dsimp only
    rw [kept]
    exact carriedGrows carried

theorem turnRunId (step : run.system.step m.before m.op m.after) (own : m.op = .turn i) :
    runIn i m = ((run.turning i m).map
      (fun n => (n.configured (run.params i) m.before.round).runId)).getD
        (m.before.cluster.nodes i).runId := by
  obtain ⟨before,op,after⟩ := m
  cases own
  cases stepCases step with
  | @turn r i s s' done =>
    have turned := turnFacts done
    have kept := faultedRunId run r i (s.nodes i)
    simp only [runIn,turned.node,turning,advanced]
    obtain ⟨hidden,done⟩ | ⟨shownOpen,_,done⟩ | ⟨shownOpen,_,done⟩ :=
      Node.advanceRoundCases (run.params i) (run.faulted r i (s.nodes i)) r
    · simp [done,hidden,kept]
    · simp [done,shownOpen]
    · have crossed := Node.crossBoundaryFacts (run.params i)
        ((run.faulted r i (s.nodes i)).configured (run.params i) r) r
      have same := congrArg InstalledConfig.runId crossed.config
      simp only [Node.config] at same
      simp [done,shownOpen,same]

theorem installsReconfigures (inside : i < run.nodeCount) (mirrored : Mirrored run m.before)
    (step : run.system.step m.before m.op m.after) (installs : installsRun i k m) :
    run.reconfiguredIn i m := by
  obtain ⟨own,other,here⟩ := installs
  rw [turnRunId step own] at here
  cases taken : run.turning i m with
  | none =>
    rw [taken] at here
    exact absurd here other
  | some n =>
    rw [taken] at here
    refine ⟨n,taken,?_⟩
    by_contra kept
    have wired := (turningWired mirrored inside taken).1
    have config := (@Node.unreconfigured (run.params i) n _ wired kept).2
    have same : (n.configured (run.params i) m.before.round).runId = n.runId :=
      congrArg InstalledConfig.runId config
    rw [turningSame taken] at same
    rw [turningSame taken] at here
    exact other (same.symm.trans here)

theorem firstCrossing {first : Int} {len : Nat} (inside : i < run.nodeCount)
    (ran : Ran run.system (pre ++ m :: post) pt) (installs : installsRun i k m)
    (crossed : crossedUnder run i k (pre ++ m :: post) = roundsFrom first len) (some' : len ≠ 0) :
    ((m :: post).find? (fun x => run.crosses i x)).map (fun x => (x.before.round : Int)) =
      some first := by
  obtain ⟨upTo,step,_⟩ := ranAt ran
  have attending := ranAttending inside upTo
  have below : (m.before.cluster.nodes i).runId < k := by
    have grows := wentGrows (turnWent inside attending step installs.1)
    have here := installs.2.2
    have other := installs.2.1
    omega
  have before : pre.filter (fun m => run.crosses i m ∧ runIn i m = k) = [] := by
    rw [List.filter_eq_nil_iff]
    intro x member same
    have := (ranLedger inside upTo).behind x member
    simp only [decide_eq_true_eq] at same
    omega
  obtain ⟨more,size⟩ := Nat.exists_eq_succ_of_ne_zero some'
  have whole : ∃ rest, ((m :: post).filter (fun m => run.crosses i m ∧ runIn i m = k)).map
      (fun m => (m.before.round : Int)) = first :: rest := by
    rw [crossedUnder,List.filter_append,before,List.nil_append] at crossed
    rw [crossed,size,roundsFrom,List.range_succ_eq_map,List.map_cons]
    exact ⟨_,congrArg (fun round => round :: _) (add_zero first)⟩
  obtain ⟨rest,whole⟩ := whole
  cases found : (m :: post).find? (fun x => run.crosses i x) with
  | none =>
    rw [List.find?_eq_none] at found
    have empty : (m :: post).filter (fun m => run.crosses i m ∧ runIn i m = k) = [] := by
      rw [List.filter_eq_nil_iff]
      intro x member same
      simp only [decide_eq_true_eq] at same
      exact found x member (by simpa using same.1)
    rw [empty] at whole
    cases whole
  | some x =>
    obtain ⟨takes,early,late,split,none⟩ := List.find?_eq_some_iff_append.mp found
    have skipped : early.filter (fun m => run.crosses i m ∧ runIn i m = k) = [] := by
      rw [List.filter_eq_nil_iff]
      intro y member same
      simp only [decide_eq_true_eq] at same
      simpa [same.1] using none y member
    rw [split,List.filter_append,skipped,List.nil_append] at whole
    have runId : runIn i x = k := by
      have least := ranRunIds inside ran x (by rw [split]; simp)
      rw [installs.2.2] at least
      by_contra other
      have onward : ∀ y ∈ x :: late, runIn i x ≤ runIn i y := by
        rw [split,← List.append_assoc] at ran
        exact ranRunIds inside ran
      have empty : (x :: late).filter (fun m => run.crosses i m ∧ runIn i m = k) = [] := by
        rw [List.filter_eq_nil_iff]
        intro y member same
        have := onward y member
        simp only [decide_eq_true_eq] at same
        omega
      rw [empty] at whole
      cases whole
    have taken : run.crosses i x := by simpa using takes
    rw [List.filter_cons_of_pos (by simp [taken,runId]),List.map_cons] at whole
    rw [Option.map_some,(List.cons.inj whole).1]

theorem commitsContiguous (run : ClusterRun) (i : Nat) (inside : i < run.nodeCount)
    {moves : List (Move Point Phase)} {pt : Point} (ran : Ran run.system moves pt) :
    ContiguousStream run i moves := by
  have ledger := ranLedger inside ran
  constructor
  case twoBehind => exact ledger.twoBehind
  case once => exact ledger.ascending
  case initial =>
    obtain ⟨first,len,count,stream⟩ := ledger.streams 0
    refine ⟨count,?_⟩
    rw [stream.committed,stream.initial rfl]
  case installed =>
    intro m member commits
    obtain ⟨early,late,rfl⟩ := List.append_of_mem member
    obtain ⟨_,_,upTo⟩ := ranAt ran
    rcases (ranLedger inside upTo).installed with zero | ⟨x,before,installs⟩
    · exact Or.inl zero
    · refine Or.inr ⟨x,?_,installs⟩
      rcases List.mem_append.mp before with old | new
      · exact List.mem_append_left _ old
      · rw [List.mem_singleton.mp new]
        exact member
  case contiguous =>
    rintro pre m post k rfl installs
    obtain ⟨upTo,step,_⟩ := ranAt ran
    refine ⟨installsReconfigures inside (ranMirrored upTo) step installs,?_⟩
    obtain ⟨first,len,count,stream⟩ := ledger.streams k
    refine ⟨first,count,stream.committed,?_⟩
    intro some'
    have within := stream.within
    exact firstCrossing inside ran installs stream.crossed (by omega)
  case spared =>
    intro m member resets
    exact (ledger.reached m member resets).2.1

theorem commitsContiguousOnce :
    ∃ moves pt, Ran loneCommit.system moves pt ∧ committedUnder loneCommit 2 1 moves = [14] ∧
      ContiguousStream loneCommit 2 moves := by
  have value : (loneCommit.walk 19).toOption.map
      (fun result => committedUnder loneCommit 2 1 result.1) = some [14] := by decide +kernel
  obtain ⟨moves,pt,ran,found⟩ := walkFound value
  exact ⟨moves,pt,ran,found,commitsContiguous loneCommit 2 (by decide) ran⟩

end ClusterRun
end Syncons
