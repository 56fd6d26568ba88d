import Syncons.Stages
import Syncons.Durability

/-! Agreement. A round is committed two rounds later, by every node against the rows
advertised in between, so two commits of it meet in a sender and name the same set. -/
namespace Syncons
open Dict (Map)
open Outcome Runs
open OnlineRejoinControlPlane (inState)

namespace ClusterRun

variable {run : ClusterRun} {pt : Point} {s s' : Cluster} {i k r : Nat}
  {moves : List (Move Point Phase)} {c n' : Node} {result : NodeRoundResult} {rowOf : Nat → Nat}
  {era moment : Int} {entry other : CommittedRound}

def advertisers (run : ClusterRun) (rowOf : Nat → Nat) (row : Nat) : Finset Nat :=
  (Finset.range run.nodeCount).filter (fun m => rowOf m = row)

-- An entry of round `moment` that a quorum of the rows `rowOf` stands for.
structure Sealed (run : ClusterRun) (rowOf : Nat → Nat) (era moment : Int) (entry : CommittedRound) :
    Prop where
  round : entry.round = moment
  epoch : entry.membershipEpoch = era
  quorum : run.nodeCount / 2 + 1 ≤ (advertisers run rowOf entry.commitSet).card
  proposals : ∀ m, entry.proposals.lookup m =
    if m ∈ bitmapMembers entry.commitSet run.nodeCount then some (run.payloadFactory m moment) else none

structure Same (entry other : CommittedRound) : Prop where
  epoch : entry.membershipEpoch = other.membershipEpoch
  commitSet : entry.commitSet = other.commitSet
  proposals : entry.proposals = other.proposals

theorem sealedSame (h : Sealed run rowOf era moment entry) (k : Sealed run rowOf era moment other) :
    Same entry other := by
  have inside (row : Nat) : advertisers run rowOf row ⊆ Finset.range run.nodeCount :=
    Finset.filter_subset _ _
  obtain ⟨m,left,right⟩ := quorumsMeet (by omega) (inside _) (inside _) h.quorum k.quorum
  have commitSet : entry.commitSet = other.commitSet :=
    (Finset.mem_filter.mp left).2.symm.trans (Finset.mem_filter.mp right).2
  refine ⟨h.epoch.trans k.epoch.symm,commitSet,?_⟩
  refine Finmap.ext_lookup ?_
  intro m
  rw [h.proposals,k.proposals,commitSet]

section Commit

theorem agreedQuorum {p : NodeParams} {stage : RoundStage} {agreed : Nat}
    (h : Node.agreedRow p stage = some agreed) :
    agreed ≠ 0 ∧ Node.quorum p ≤ ((bitmapMembers stage.installedMembership p.nodeCount).filter
      (fun m => Dict.getD stage.rows m 0 == agreed)).length := by
  unfold Node.agreedRow at h
  dsimp only at h
  split at h
  · split at h
    · simp at h
    · rename_i some'
      split at h
      · simp at h
      · rename_i enough
        have same := Option.some.inj h
        rw [same] at some' enough
        refine ⟨some',?_⟩
        simpa [Node.observationRows,List.filter_map,Function.comp_def] using enough
  · simp at h

theorem commitSealed {agreed core : Nat} (rowed : Rowed rowOf c)
    (judged : Node.Judged (run.params i) c c.previousStage agreed core)
    (filled : Filled run c moment c.previousStage) :
    Sealed run rowOf c.installedMembershipEpoch moment
      (Node.committedRound (run.params i) c.previousStage agreed) := by
  obtain ⟨some',enough⟩ := agreedQuorum judged.row
  refine ⟨filled.round,filled.epoch,?_,?_⟩
  · have least : run.nodeCount / 2 + 1 ≤ Node.quorum (run.params i) := le_max_right _ _
    refine (least.trans enough).trans ?_
    have distinct : ((bitmapMembers c.previousStage.installedMembership run.nodeCount).filter
        (fun m => Dict.getD c.previousStage.rows m 0 == agreed)).Nodup :=
      (List.nodup_range.filter _).filter _
    rw [show (run.params i).nodeCount = run.nodeCount from rfl,← List.toFinset_card_of_nodup distinct]
    refine Finset.card_le_card ?_
    intro m member
    obtain ⟨inside,row⟩ := List.mem_filter.mp (List.mem_toFinset.mp member)
    have held : Dict.getD c.previousStage.rows m 0 = agreed := by simpa using row
    refine Finset.mem_filter.mpr ⟨Finset.mem_range.mpr (memBitmapMembers.mp inside).1,?_⟩
    cases found : c.previousStage.rows.lookup m with
    | none => simp [Dict.getD,found,Ne.symm some'] at held
    | some x =>
      simp only [Dict.getD,found,Option.getD_some] at held
      exact (rowed m x found).symm.trans held
  · intro m
    change (Dict.restrict c.previousStage.proposals (bitmapMembers agreed run.nodeCount)).lookup m = _
    rw [Dict.lookupRestrict]
    change _ = if m ∈ bitmapMembers agreed run.nodeCount then _ else none
    by_cases inside : m ∈ bitmapMembers agreed run.nodeCount
    · obtain ⟨v,held⟩ := Option.isSome_iff_exists.mp (judged.proposed m inside)
      rw [if_pos inside,if_pos inside,held,filled.proposals m v held]
    · rw [if_neg inside,if_neg inside]

end Commit

section History

def Consistent (run : ClusterRun) (s : Cluster) : Prop :=
  ∀ i < run.nodeCount, ∀ j < run.nodeCount, ∀ entry ∈ s.commitHistoryByNode i,
    ∀ other ∈ s.commitHistoryByNode j, entry.round = other.round →
      Same entry.toCommittedRound other.toCommittedRound

-- In round `r` the entries of round `r - 2` are being committed; all others are older.
def Dated (run : ClusterRun) (r : Nat) (rowOf : Nat → Nat) (s : Cluster) : Prop :=
  ∀ config ∈ s.controlPlane.installedConfig, ∀ i < run.nodeCount, ∀ entry ∈ s.commitHistoryByNode i,
    entry.round < r - 2 ∨ Sealed run rowOf config.membershipEpoch (r - 2) entry.toCommittedRound

def Agreeing (run : ClusterRun) (pt : Point) : Prop :=
  Consistent run pt.cluster ∧
  match pt.phase with
  | .control => Opened run pt.round pt.cluster ∧
      ∀ i < run.nodeCount, ∀ entry ∈ pt.cluster.commitHistoryByNode i, entry.round < pt.round - 2
  | .turn k => ∃ rowOf, Collected run pt.round k rowOf pt.cluster ∧ Dated run pt.round rowOf pt.cluster
  | .network => ∃ rowOf, Collected run pt.round run.nodeCount rowOf pt.cluster ∧
      Dated run pt.round rowOf pt.cluster

theorem agreeingFrom (bound : k ≤ run.nodeCount) (consistent : Consistent run s)
    (collected : Collected run r k rowOf s) (dated : Dated run r rowOf s) :
    Agreeing run ⟨r,run.turnFrom k,s⟩ := by
  by_cases inside : k < run.nodeCount
  · rw [turnFrom,if_pos inside]
    exact ⟨consistent,rowOf,collected,dated⟩
  · have last : k = run.nodeCount := by omega
    rw [turnFrom,if_neg inside]
    subst last
    exact ⟨consistent,rowOf,collected,dated⟩

theorem repairedSources (repaired : Repaired run s s') (bound : i < run.nodeCount) :
    ∃ k < run.nodeCount, s'.commitHistoryByNode i = s.commitHistoryByNode k := by
  by_cases overwritten : repairedIn i s s'
  · obtain ⟨k,longest,same,_⟩ := repaired.repaired i bound overwritten
    exact ⟨k,longest.bound,same⟩
  · exact ⟨i,bound,repaired.spared i bound overwritten⟩

theorem repairedConsistent (repaired : Repaired run s s') (h : Consistent run s) : Consistent run s' := by
  intro i left j right entry member other member' round
  obtain ⟨a,boundA,sameA⟩ := repairedSources repaired left
  obtain ⟨b,boundB,sameB⟩ := repairedSources repaired right
  exact h a boundA b boundB entry (sameA ▸ member) other (sameB ▸ member') round

theorem turnSeals {shown state : ControlPlaneState} (midround : Midround run r k shown s state)
    (bound : k < run.nodeCount) (done : run.nodeTurn r s k = .ok s') (h : Collected run r k rowOf s) :
    ∀ entry ∈ s'.commitHistoryByNode k, entry ∈ s.commitHistoryByNode k ∨
      Sealed run rowOf shown.installedConfig.membershipEpoch (r - 2) entry.toCommittedRound := by
  obtain ⟨_,_,turned,turn,_⟩ := turnMirrored midround bound done
  intro entry member
  rw [turned.history] at member
  rcases List.mem_append.mp member with old | new
  · exact Or.inl old
  · right
    obtain ⟨commit,made,rfl⟩ := List.mem_map.mp new
    generalize run.advanced r k (s.nodes k) = out at turn made
    obtain ⟨n',result⟩ := out
    dsimp only at turn made
    cases turn with
    | down off was => simp at made
    | idle spared inactive tuned => simp at made
    | @took c _ _ spared active tuned crossed =>
      have pushed := midround.todo k le_rfl bound
      obtain ⟨pipelined,rowed⟩ := tunedPipelined pushed active tuned (h.todo k le_rfl bound)
      have verdict := crossed.verdict
      cases verdict with
      | skip early status sound outbox => simp at made
      | halt round status sound record outbox => simp at made
      | commit judged status sound outbox =>
        have filled : Filled run c (r - 1 - 1) c.previousStage := by
          rcases pipelined with fresh | live
          · exact absurd judged.round (Int.not_le.mpr fresh.previous)
          · rcases live.previous with early | filled
            · exact absurd judged.round (Int.not_le.mpr early)
            · exact filled
        have era : c.installedMembershipEpoch = shown.installedConfig.membershipEpoch :=
          congrArg InstalledConfig.membershipEpoch tuned.mirrors.1
        have two : (r : Int) - 1 - 1 = r - 2 := by omega
        rw [List.mem_singleton.mp made,← era,← two]
        exact commitSealed rowed judged filled

theorem turnAgrees {shown state : ControlPlaneState} (midround : Midround run r k shown s state)
    (bound : k < run.nodeCount) (done : run.nodeTurn r s k = .ok s') (h : Collected run r k rowOf s)
    (consistent : Consistent run s) (dated : Dated run r rowOf s) :
    Consistent run s' ∧ Dated run r rowOf s' := by
  obtain ⟨state',next,turned,_,_⟩ := turnMirrored midround bound done
  have seals := turnSeals midround bound done h
  have installed := midroundInstalled midround
  have added : ∀ i < run.nodeCount, ∀ entry ∈ s'.commitHistoryByNode i,
      entry ∈ s.commitHistoryByNode i ∨
      Sealed run rowOf shown.installedConfig.membershipEpoch (r - 2) entry.toCommittedRound := by
    intro i inside entry member
    by_cases own : i = k
    · subst i
      exact seals entry member
    · rw [(turned.others i own).history] at member
      exact Or.inl member
  have dated' : ∀ i < run.nodeCount, ∀ entry ∈ s'.commitHistoryByNode i, entry.round < r - 2 ∨
      Sealed run rowOf shown.installedConfig.membershipEpoch (r - 2) entry.toCommittedRound := by
    intro i inside entry member
    rcases added i inside entry member with old | new
    · exact dated _ installed i inside entry old
    · exact Or.inr new
  refine ⟨?_,?_⟩
  · intro i left j right entry member other member' round
    rcases added i left entry member with old | new
    · rcases added j right other member' with old' | new'
      · exact consistent i left j right entry old other old' round
      · rcases dated' i left entry member with early | sealed'
        · have := new'.round
          omega
        · exact sealedSame sealed' new'
    · rcases dated' j right other member' with early | sealed'
      · have := new.round
        omega
      · exact sealedSame new sealed'
  · intro config held i inside entry member
    rw [midroundInstalled next] at held
    cases held
    exact dated' i inside entry member

theorem ranAgreeing (faithful : Faithful run) (ran : Ran run.system moves pt) : Agreeing run pt := by
  induction ran with
  | start h =>
    cases h
    refine ⟨?_,initialStaged run,?_⟩
    · intro i _ j _ entry member
      simp [Cluster.init] at member
    · intro i _ entry member
      simp [Cluster.init] at member
  | @move moves at' op next upTo h ih =>
    have mirrored := ranMirrored upTo
    have stocked := ranStocked upTo
    cases stepCases h with
    | @control r s s' done =>
      obtain ⟨cp,state,boundary⟩ := mirrored
      obtain ⟨consistent,opened,dated⟩ := ih
      have repaired := controlRepairs boundary (boundaryStocked boundary stocked) done
      refine agreeingFrom (Nat.zero_le _) (repairedConsistent repaired consistent)
        (controlStaged boundary done opened) ?_
      intro _ _ i bound entry member
      obtain ⟨k,source,same⟩ := repairedSources repaired bound
      exact Or.inl (dated k source entry (same ▸ member))
    | turn done =>
      obtain ⟨bound,shown,state,midround⟩ := mirrored
      obtain ⟨consistent,rowOf,collected,dated⟩ := ih
      obtain ⟨consistent',dated'⟩ := turnAgrees midround bound done collected consistent dated
      exact agreeingFrom bound consistent' (turnStaged midround bound done collected) dated'
    | @network r s =>
      obtain ⟨shown,state,midround⟩ := mirrored
      obtain ⟨consistent,rowOf,collected,dated⟩ := ih
      refine ⟨consistent,networkStaged faithful collected,?_⟩
      intro i bound entry member
      change entry.round < ((r + 1 : Nat) : Int) - 2
      rcases dated _ (midroundInstalled midround) i bound entry member with early | sealed'
      · have : entry.round < (r : Int) - 2 := early
        omega
      · have : entry.round = (r : Int) - 2 := sealed'.round
        omega

theorem commitsAgree (faithful : Faithful run) (ran : Ran run.system moves pt) :
    ∀ i < run.nodeCount, ∀ j < run.nodeCount, ∀ entry ∈ pt.cluster.commitHistoryByNode i,
      ∀ other ∈ pt.cluster.commitHistoryByNode j, entry.round = other.round →
        entry.membershipEpoch = other.membershipEpoch ∧ entry.commitSet = other.commitSet ∧
        entry.proposals = other.proposals := by
  obtain ⟨consistent,_⟩ := ranAgreeing faithful ran
  intro i left j right entry member other member' round
  obtain ⟨epoch,commitSet,proposals⟩ := consistent i left j right entry member other member' round
  exact ⟨epoch,commitSet,proposals⟩

-- Node 2 shares round 10 with node 0 through its repair log.
theorem commitsAgreeOnce :
    ∃ moves pt, Ran loneCommit.system moves pt ∧
      (∃ entry ∈ pt.cluster.commitHistoryByNode 0, ∃ other ∈ pt.cluster.commitHistoryByNode 2,
        entry.round = 10 ∧ other.round = 10) ∧
      ∀ i < loneCommit.nodeCount, ∀ j < loneCommit.nodeCount,
        ∀ entry ∈ pt.cluster.commitHistoryByNode i, ∀ other ∈ pt.cluster.commitHistoryByNode j,
          entry.round = other.round → entry.membershipEpoch = other.membershipEpoch ∧
            entry.commitSet = other.commitSet ∧ entry.proposals = other.proposals := by
  have faithful : Faithful loneCommit := fun _ _ => ⟨rfl,by simp [loneCommit]⟩
  have value : (loneCommit.walk 16).toOption.map (fun result => decide
      ((∃ entry ∈ result.2.cluster.commitHistoryByNode 0, entry.round = 10) ∧
      ∃ other ∈ result.2.cluster.commitHistoryByNode 2, other.round = 10)) = some true := by
    decide +kernel
  obtain ⟨moves,pt,ran,found⟩ := walkFound value
  simp only [decide_eq_true_eq] at found
  obtain ⟨⟨entry,member,round⟩,other,member',round'⟩ := found
  exact ⟨moves,pt,ran,⟨entry,member,other,member',round,round'⟩,commitsAgree faithful ran⟩

end History

end ClusterRun
end Syncons
