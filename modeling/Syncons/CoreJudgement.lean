import Syncons.BoundaryEvaluation
import Syncons.QuorumRule
import Syncons.Bitmap

/-! The judgement of a round in the core and in the node of the simulator: on the same
evidence, held in registers here and in dictionaries there, both agree on the row, the
commit set, the sound set and the reason of a halt. -/
namespace Syncons.ConsensusCore
open Dict (Map)

def haltReasonOf : Syncons.HaltReason → HaltReason
  | .noAgreedRow => .noAgreedRow
  | .commitSetNotValid => .commitSetInvalid
  | .noSoundSet => .noSoundSet
  | .localNodeExcludedFromSoundSet => .selfExcluded
  | .soundSetNotSubsetOfPreviousSet => .soundSetGrew

structure SameNode (p : Parameters) (np : NodeParams) : Prop where
  nodeId : np.nodeId = p.nodeId
  nodeCount : np.nodeCount = p.nodeCount

/- A judged stage of the node against the previous stage of the core. The core scans its
sound set, the node the installed membership; members that are not sound sent no row. -/
structure SameEvidence (p : Parameters) (q : Protocol) (sound : Nat) (stage : RoundStage) : Prop where
  sound : sound = q.currentSoundSet.toNat
  self : q.currentSoundSet.getLsbD p.nodeId = true
  members : ∀ i, q.currentSoundSet.getLsbD i = true →
    i < p.nodeCount ∧ stage.installedMembership.testBit i = true
  rows : ∀ i, Dict.getD stage.rows i 0 = (q.previousStageRows i).toNat
  unheard : ∀ i, q.currentSoundSet.getLsbD i = false → q.previousStageRows i = 0
  named : ∀ i, (q.previousStageRows p.nodeId).getLsbD i = true → i < p.nodeCount
  proposals : ∀ i, (stage.proposals.lookup i).isSome = q.previousStageProposals.getLsbD i

variable {p : Parameters} {np : NodeParams} {q : Protocol} {n : Node} {stage : RoundStage}
  {sound : Nat}

section Evaluation

theorem evidenceLocal (same : SameEvidence p q sound stage) :
    q.evalLocalRow p = q.previousStageRows p.nodeId := by
  simp [Protocol.evalLocalRow,same.self]

theorem sameLocal (ids : SameNode p np) (same : SameEvidence p q sound stage) :
    Node.localRow np stage = (q.evalLocalRow p).toNat := by
  have installed : Node.observed np stage np.nodeId := by
    rw [Node.observed,ids.nodeId,ids.nodeCount]
    exact same.members _ same.self
  rw [Node.localRow,if_pos installed,Node.memberRow,same.rows,ids.nodeId,evidenceLocal same]

theorem rowNonempty {row : BitVec 8} : row.toNat ≠ 0 ↔ row ≠ 0 := by
  rw [not_iff_not]
  constructor
  · intro zero
    exact BitVec.eq_of_toNat_eq (by simpa using zero)
  · intro zero
    simp [zero]

-- A member that is not heard has no row, so it is among neither side's witnesses.
theorem sameMatching (ids : SameNode p np) (same : SameEvidence p q sound stage)
    (nonempty : q.evalLocalRow p ≠ 0) : Node.matching np stage = q.witnesses p := by
  ext i
  simp only [Node.matching,Protocol.witnesses,Finset.mem_filter,Finset.mem_range,Node.memberRow,
    same.rows,sameLocal ids same,ids.nodeCount,Protocol.witness,Bool.and_eq_true,decide_eq_true_eq]
  constructor
  · intro found
    obtain ⟨inside,_,row⟩ := found
    have row' := BitVec.eq_of_toNat_eq row
    refine ⟨inside,?_,row'⟩
    by_contra silent
    rw [Bool.not_eq_true] at silent
    exact nonempty (row'.symm.trans (same.unheard i silent))
  · intro found
    obtain ⟨inside,heard,row⟩ := found
    exact ⟨inside,(same.members i heard).2,congrArg BitVec.toNat row⟩

theorem rowValid (same : SameEvidence p q sound stage) (i : Nat) :
    Node.memberRow stage i = 0 ∨ (Node.memberRow stage i).testBit i = true ↔ q.contradicts i = false := by
  rw [Node.memberRow,same.rows,Protocol.contradicts,BitVec.testBit_toNat]
  cases heard : q.currentSoundSet.getLsbD i with
  | false => simp [same.unheard i heard]
  | true =>
    have row := @rowNonempty (q.previousStageRows i)
    by_cases zero : q.previousStageRows i = 0#8
    · simp [zero]
    · simp [zero,row.mpr zero]

theorem sameAgreed (ids : SameNode p np) (same : SameEvidence p q sound stage) :
    Node.Agreed np stage ↔ q.evalAgreedRowValid p = true := by
  have majority : np.nodeCount / 2 + 1 = p.quorum := by
    simp only [Parameters.quorum,ids.nodeCount]
  rw [agreedIff]
  constructor
  · intro agreed
    have nonempty : q.evalLocalRow p ≠ 0 := by
      rw [← rowNonempty,← sameLocal ids same]
      exact agreed.spoken
    refine ⟨?_,nonempty,?_⟩
    · intro i inside
      cases heard : q.currentSoundSet.getLsbD i with
      | false => simp [Protocol.contradicts,heard]
      | true => exact (rowValid same i).mp (agreed.valid i ⟨ids.nodeCount ▸ inside,(same.members i heard).2⟩)
    · rw [← sameMatching ids same nonempty,← majority]
      exact agreed.quorum
  · intro agreed
    obtain ⟨consistent,nonempty,quorum⟩ := agreed
    refine ⟨?_,?_,?_⟩
    · intro i member
      exact (rowValid same i).mpr (consistent i (ids.nodeCount ▸ member.1))
    · rw [sameLocal ids same]
      exact rowNonempty.mpr nonempty
    · rw [sameMatching ids same nonempty,majority]
      exact quorum

theorem sameAgreedRow (ids : SameNode p np) (same : SameEvidence p q sound stage) :
    Node.agreedRow np stage =
      if q.evalAgreedRowValid p then some (q.evalLocalRow p).toNat else none := by
  split
  · rename_i agreed
    exact Node.agreedRowIff.mpr ⟨(sameAgreed ids same).mpr agreed,(sameLocal ids same).symm⟩
  · rename_i split
    exact Node.agreedRowNone.mpr (fun agreed => split ((sameAgreed ids same).mp agreed))

theorem subsetZero {a b : BitVec 8} :
    a &&& ~~~b = 0 ↔ ∀ i, a.getLsbD i = true → b.getLsbD i = true := by
  constructor
  · intro zero i held
    have bit := congrArg (fun v => v.getLsbD i) zero
    have small := BitVec.lt_of_getLsbD held
    simpa [held,small] using bit
  · intro subset
    apply BitVec.eq_of_getLsbD_eq
    intro i small
    cases held : a.getLsbD i with
    | false => simp [held]
    | true => simp [held,subset i held]

theorem sameProposed (ids : SameNode p np) (same : SameEvidence p q sound stage) :
    Node.Proposed np stage ↔ q.evalLocalRow p &&& ~~~q.previousStageProposals = 0 := by
  simp only [subsetZero,Node.Proposed,sameLocal ids same,ids.nodeCount,BitVec.testBit_toNat,
    same.proposals]
  constructor
  · intro held i inside
    exact held i (same.named i (by rwa [evidenceLocal same] at inside)) inside
  · intro held i _ inside
    exact held i inside

theorem sameCommitSet (ids : SameNode p np) (same : SameEvidence p q sound stage) :
    Node.commitSet np stage =
      if q.evalCommitSetValid p then some (q.evalLocalRow p).toNat else none := by
  cases valid : q.evalAgreedRowValid p with
  | false => simp [Node.commitSet,sameAgreedRow ids same,Protocol.evalCommitSetValid,valid]
  | true =>
    simp only [Protocol.evalCommitSetValid,valid,Bool.true_and,decide_eq_true_eq]
    rcases Node.commitSetIs ((sameAgreed ids same).mpr valid) with ⟨held,commits⟩ | ⟨missing,commits⟩
    · rw [commits,if_pos ((sameProposed ids same).mp held),sameLocal ids same]
    · rw [commits,if_neg (fun whole => missing ((sameProposed ids same).mpr whole))]

theorem sameSoundSet (ids : SameNode p np) (same : SameEvidence p q sound stage)
    (agreed : q.evalAgreedRowValid p = true) :
    Node.soundSet np stage = some (q.evalSoundSet p).toNat := by
  obtain ⟨core,found,members⟩ := Node.soundSetMembers ((sameAgreed ids same).mpr agreed)
  rw [found,Option.some.injEq]
  apply bitmapEq
  intro i
  rw [Bool.eq_iff_iff,members,BitVec.testBit_toNat,soundSetBit,
    sameMatching ids same (agreedIff.mp agreed).nonempty]

-- The core is among its own witnesses, and all witnesses are sound: three checks never fire.
theorem witnessesSound (same : SameEvidence p q sound stage) :
    (q.evalSoundSet p).getLsbD p.nodeId = true ∧ q.evalSoundSet p ≠ 0 ∧
      q.evalSoundSetShrinks p = true := by
  have self : (q.evalSoundSet p).getLsbD p.nodeId = true := by
    rw [soundSetBit,Protocol.witnesses,Finset.mem_filter,Finset.mem_range,Protocol.witness]
    simp [p.named,same.self,evidenceLocal same]
  refine ⟨self,?_,?_⟩
  · intro zero
    rw [zero] at self
    simp at self
  · simp only [Protocol.evalSoundSetShrinks,decide_eq_true_eq]
    apply BitVec.eq_of_getLsbD_eq
    intro i small
    rw [BitVec.getLsbD_and]
    cases held : (q.evalSoundSet p).getLsbD i with
    | false => rfl
    | true =>
      have witness := soundSetBit.mp held
      simp only [Protocol.witnesses,Finset.mem_filter,Protocol.witness,Bool.and_eq_true] at witness
      simp [witness.2.1]

theorem sameHaltReason (same : SameEvidence p q sound stage) : q.evalHaltReason p =
    if q.evalAgreedRowValid p then
      if q.evalCommitSetValid p then .none else .commitSetInvalid
    else .noAgreedRow := by
  obtain ⟨self,nonempty,shrinks⟩ := witnessesSound same
  have nonzero : ¬ q.evalSoundSet p = 0#8 := nonempty
  cases agreed : q.evalAgreedRowValid p <;> cases whole : q.evalCommitSetValid p <;>
    simp [Protocol.evalHaltReason,agreed,whole,self,nonzero,shrinks]

theorem sameHalt (ids : SameNode p np) (same : SameEvidence p q n.currentSoundSet stage)
    (late : 0 ≤ stage.roundId) (halts : q.evalHaltReason p ≠ .none) :
    ∃ rows localRow reason, haltReasonOf reason = q.evalHaltReason p ∧
      n.evaluateRoundBoundary np (some stage) = n.enterHaltState np stage rows localRow reason := by
  rw [sameHaltReason same] at halts ⊢
  have early : ¬ stage.roundId < 0 := by omega
  cases agreed : q.evalAgreedRowValid p with
  | false =>
    refine ⟨Node.observationRows np stage,Dict.getD stage.rows np.nodeId 0,.noAgreedRow,
      by simp [haltReasonOf],?_⟩
    simp only [Node.evaluateRoundBoundary,Option.getD_some,if_neg early,sameAgreedRow ids same,
      agreed,Bool.false_eq_true,if_false]
  | true =>
    cases whole : q.evalCommitSetValid p with
    | true => simp [agreed,whole] at halts
    | false =>
      refine ⟨Node.observationRows np stage,Dict.getD stage.rows np.nodeId 0,.commitSetNotValid,
        by simp [haltReasonOf],?_⟩
      simp only [Node.evaluateRoundBoundary,Option.getD_some,if_neg early,sameAgreedRow ids same,
        sameCommitSet ids same,agreed,whole,Bool.false_eq_true,if_false,if_true]

theorem sameCommit (ids : SameNode p np) (same : SameEvidence p q n.currentSoundSet stage)
    (late : 0 ≤ stage.roundId) (commits : q.evalHaltReason p = .none) :
    n.evaluateRoundBoundary np (some stage) =
      ⟨{ n with
          committedFrontier := stage.roundId
          lastCommittedSoundSet := some (q.evalSoundSet p).toNat
          commitDigest := Node.extendLogDigest np.hash n.commitDigest
            (Node.committedRound np stage (q.evalLocalRow p).toNat) },
        .continue,some (q.evalSoundSet p).toNat,
        [Node.committedRound np stage (q.evalLocalRow p).toNat]⟩ := by
  rw [sameHaltReason same] at commits
  have early : ¬ stage.roundId < 0 := by omega
  obtain ⟨self,_,shrinks⟩ := witnessesSound same
  cases agreed : q.evalAgreedRowValid p with
  | false => simp [agreed] at commits
  | true =>
    cases whole : q.evalCommitSetValid p with
    | false => simp [agreed,whole] at commits
    | true =>
      have subset : (q.evalSoundSet p).toNat &&& n.currentSoundSet = (q.evalSoundSet p).toNat := by
        simp only [Protocol.evalSoundSetShrinks,decide_eq_true_eq] at shrinks
        rw [same.sound,← BitVec.toNat_and,shrinks]
      have own : (q.evalSoundSet p).toNat.testBit np.nodeId = true := by
        rw [BitVec.testBit_toNat,ids.nodeId,self]
      simp only [Node.evaluateRoundBoundary,Option.getD_some,if_neg early,sameAgreedRow ids same,
        sameCommitSet ids same,sameSoundSet ids same agreed,agreed,whole,if_true]
      rw [if_neg (by simp [own]),if_neg (by simp [subset])]
      rfl

end Evaluation

end Syncons.ConsensusCore
