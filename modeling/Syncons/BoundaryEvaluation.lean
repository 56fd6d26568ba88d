import Syncons.ConsensusCore
import Mathlib.Data.Finset.Card
import Mathlib.Data.Finset.Range

/-! What the scan at a round boundary finds: the sound members whose row equals the local
one, their number, and whether a row fails to contain its own member. -/
namespace Syncons.ConsensusCore

variable {p : Parameters} {q : Protocol} {i k : Nat}

namespace Protocol

def witness (p : Parameters) (q : Protocol) (i : Nat) : Bool :=
  q.currentSoundSet.getLsbD i && q.previousStageRows i = q.evalLocalRow p

def contradicts (q : Protocol) (i : Nat) : Bool :=
  q.currentSoundSet.getLsbD i && q.previousStageRows i ≠ 0 && !(q.previousStageRows i).getLsbD i

def witnesses (p : Parameters) (q : Protocol) : Finset Nat :=
  (Finset.range p.nodeCount).filter (fun i => q.witness p i = true)

end Protocol

theorem bitGet (small : k < 8) : (1#8 <<< k).getLsbD i = decide (i = k) := by
  rw [← BitVec.twoPow_eq,BitVec.getLsbD_twoPow]
  simp [small,eq_comm]

theorem selfSmall (p : Parameters) : p.nodeId < 8 := lt_of_lt_of_le p.named p.narrow

theorem maskGet : p.memberMask.getLsbD i = decide (i < p.nodeCount) := by
  have narrow := p.narrow
  have small : ∀ n ≤ 8, ∀ i < 8, (1#8 <<< n - 1#8).getLsbD i = decide (i < n) := by decide
  by_cases inside : i < 8
  · exact small _ narrow _ inside
  · rw [BitVec.getLsbD_of_ge _ _ (by omega)]
    simp only [Bool.false_eq,decide_eq_false_iff_not]
    omega

theorem maskedSame {row : BitVec 8} (members : ∀ i, row.getLsbD i = true → i < p.nodeCount) :
    row &&& p.memberMask = row := by
  apply BitVec.eq_of_getLsbD_eq
  intro i lt
  rw [BitVec.getLsbD_and,maskGet]
  cases held : row.getLsbD i with
  | false => rfl
  | true => simpa using members i held

theorem evalMemberIs (scan : Scan) : q.evalMember p scan i =
    { rowSelfMissing := scan.rowSelfMissing || q.contradicts i
      witnessMask := if q.witness p i then scan.witnessMask ||| 1#8 <<< i else scan.witnessMask
      witnessCount := if q.witness p i then scan.witnessCount + 1 else scan.witnessCount } := by
  simp only [Protocol.evalMember,Protocol.witness,Protocol.contradicts]
  by_cases sound : q.currentSoundSet.getLsbD i = true
  · by_cases same : q.previousStageRows i = q.evalLocalRow p
    · by_cases missing : q.evalLocalRow p ≠ 0#8 ∧ (q.evalLocalRow p).getLsbD i = false
      · simp [sound,same,missing]
      · have fine : (!decide (q.evalLocalRow p = 0#8) && !(q.evalLocalRow p).getLsbD i) = false := by
          simpa using missing
        simp [sound,same,fine]
    · by_cases missing : q.previousStageRows i ≠ 0#8 ∧ (q.previousStageRows i).getLsbD i = false
      · simp [sound,same,missing]
      · have fine : (!decide (q.previousStageRows i = 0#8) && !(q.previousStageRows i).getLsbD i) =
            false := by simpa using missing
        simp [sound,same,fine]
  · simp [sound]

structure Scanned (p : Parameters) (q : Protocol) (k : Nat) (scan : Scan) : Prop where
  missing : scan.rowSelfMissing = true ↔ ∃ i < k, q.contradicts i = true
  mask : ∀ i, scan.witnessMask.getLsbD i = true ↔ i < k ∧ q.witness p i = true
  count : scan.witnessCount.toNat = ((Finset.range k).filter (fun i => q.witness p i = true)).card

theorem scanned (small : k ≤ 8) : Scanned p q k ((List.range k).foldl (q.evalMember p) {}) := by
  induction k with
  | zero => constructor <;> simp
  | succ k ih =>
    have before := ih (by omega)
    rw [List.range_succ,List.foldl_append,List.foldl_cons,List.foldl_nil,evalMemberIs]
    constructor
    · simp only [Bool.or_eq_true,before.missing]
      constructor
      · rintro (⟨i,lt,bad⟩ | bad)
        · exact ⟨i,by omega,bad⟩
        · exact ⟨k,by omega,bad⟩
      · rintro ⟨i,lt,bad⟩
        rcases Nat.lt_succ_iff_lt_or_eq.mp lt with old | rfl
        · exact Or.inl ⟨i,old,bad⟩
        · exact Or.inr bad
    · intro i
      cases held : q.witness p k with
      | false =>
        simp only [Bool.false_eq_true,if_false,before.mask i]
        constructor
        · rintro ⟨lt,w⟩
          exact ⟨by omega,w⟩
        · rintro ⟨lt,w⟩
          refine ⟨?_,w⟩
          rcases Nat.lt_succ_iff_lt_or_eq.mp lt with old | rfl
          · exact old
          · exact Bool.noConfusion (held.symm.trans w)
      | true =>
        simp only [if_true,BitVec.getLsbD_or,bitGet (show k < 8 by omega),Bool.or_eq_true,
          decide_eq_true_eq,before.mask i]
        constructor
        · rintro (⟨lt,w⟩ | rfl)
          · exact ⟨by omega,w⟩
          · exact ⟨by omega,held⟩
        · rintro ⟨lt,w⟩
          rcases Nat.lt_succ_iff_lt_or_eq.mp lt with old | rfl
          · exact Or.inl ⟨old,w⟩
          · exact Or.inr rfl
    · have bound : ((Finset.range k).filter (fun i => q.witness p i = true)).card ≤ k := by
        have le := Finset.card_filter_le (Finset.range k) (fun i => q.witness p i = true)
        rwa [Finset.card_range] at le
      rw [Finset.range_add_one,Finset.filter_insert]
      cases held : q.witness p k with
      | false => simpa using before.count
      | true =>
        simp only [if_true,BitVec.toNat_add,before.count]
        rw [Finset.card_insert_of_notMem (by simp)]
        have one : (1 : BitVec 4).toNat = 1 := rfl
        rw [one]
        omega

theorem evalScanned : Scanned p q p.nodeCount (q.evalScan p) := scanned p.narrow

-- A commit has a quorum of witnesses, each with the committed row, which is not empty.
structure Agreed (p : Parameters) (q : Protocol) : Prop where
  consistent : ∀ i < p.nodeCount, q.contradicts i = false
  nonempty : q.evalLocalRow p ≠ 0
  quorum : p.quorum ≤ (q.witnesses p).card

theorem agreedIff : q.evalAgreedRowValid p = true ↔ Agreed p q := by
  have scan := @evalScanned p q
  have small : (BitVec.ofNat 4 p.quorum).toNat = p.quorum := by
    have narrow := p.narrow
    rw [BitVec.toNat_ofNat]
    simp only [Parameters.quorum]
    omega
  simp only [Protocol.evalAgreedRowValid,Bool.and_eq_true,Bool.not_eq_true',decide_eq_true_eq,
    BitVec.le_def,small,scan.count]
  constructor
  · rintro ⟨⟨missing,nonempty⟩,quorum⟩
    refine ⟨?_,nonempty,quorum⟩
    intro i lt
    by_contra bad
    rw [Bool.not_eq_false] at bad
    exact Bool.noConfusion (missing.symm.trans (scan.missing.mpr ⟨i,lt,bad⟩))
  · intro agreed
    refine ⟨⟨?_,agreed.nonempty⟩,agreed.quorum⟩
    by_contra bad
    rw [Bool.not_eq_false] at bad
    obtain ⟨i,lt,bad⟩ := scan.missing.mp bad
    exact Bool.noConfusion ((agreed.consistent i lt).symm.trans bad)

theorem soundSetBit : (q.evalSoundSet p).getLsbD i = true ↔ i ∈ q.witnesses p := by
  rw [Protocol.evalSoundSet,evalScanned.mask i,Protocol.witnesses,Finset.mem_filter,Finset.mem_range]

theorem localRowOwn (nonempty : q.evalLocalRow p ≠ 0) :
    q.currentSoundSet.getLsbD p.nodeId = true ∧
      q.evalLocalRow p = q.previousStageRows p.nodeId := by
  cases inside : q.currentSoundSet.getLsbD p.nodeId with
  | false => exact absurd (by simp [Protocol.evalLocalRow,inside]) nonempty
  | true => exact ⟨rfl,by simp [Protocol.evalLocalRow,inside]⟩

theorem commitsAgreed (commits : q.evalCommits p = true) :
    q.previousStageValid = true ∧ Agreed p q := by
  simp only [Protocol.evalCommits,Bool.and_eq_true,decide_eq_true_eq] at commits
  refine ⟨commits.1,agreedIff.mp ?_⟩
  by_contra without
  rw [Bool.not_eq_true] at without
  simp [Protocol.evalHaltReason,without] at commits

end Syncons.ConsensusCore
