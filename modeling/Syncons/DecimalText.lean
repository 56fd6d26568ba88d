import Mathlib.Data.List.DropRight
import Mathlib.Data.Nat.Digits.Lemmas

/-! Natural numbers as decimal text: what the digits of a number begin with, how many there
are, the zeros at their end, and a number rounded to a count of leading digits. -/
namespace Syncons.DecimalText

variable {n m k : Nat} {c : Char} {ds : List Char}

theorem digitChars (member : c ∈ Nat.toDigits 10 n) : c.isDigit = true :=
  Nat.isDigit_of_mem_toDigits (by decide) (by decide) member

theorem digitBounds (digit : c.isDigit = true) : 48 ≤ c.toNat ∧ c.toNat ≤ 57 := by
  simp only [Char.isDigit,Bool.and_eq_true,decide_eq_true_eq] at digit
  exact ⟨UInt32.le_iff_toNat_le.mp digit.1,UInt32.le_iff_toNat_le.mp digit.2⟩

theorem leadDigit (positive : 0 < n) : ∃ d ds, 0 < d ∧ d < 10 ∧ Nat.toDigits 10 n = Nat.digitChar d :: ds := by
  induction n using Nat.strongRecOn with
  | ind n ih =>
    by_cases small : n < 10
    · exact ⟨n,[],positive,small,Nat.toDigits_of_lt_base small⟩
    · obtain ⟨d,ds,above,below,shape⟩ := ih (n / 10) (by omega) (by omega)
      refine ⟨d,ds ++ [Nat.digitChar (n % 10)],above,below,?_⟩
      rw [Nat.toDigits_of_base_le (by decide) (by omega),shape]
      rfl

theorem digitCount (positive : 0 < n) :
    10 ^ ((Nat.toDigits 10 n).length - 1) ≤ n ∧ n < 10 ^ (Nat.toDigits 10 n).length := by
  have room : 0 < (Nat.toDigits 10 n).length := Nat.length_toDigits_pos
  refine ⟨?_,(Nat.length_toDigits_le_iff (by decide) room).mp (Nat.le_refl _)⟩
  by_contra short
  rcases Nat.eq_zero_or_pos ((Nat.toDigits 10 n).length - 1) with single | more
  · rw [single] at short
    omega
  · have fewer := (Nat.length_toDigits_le_iff (by decide) more).mpr (Nat.lt_of_not_le short)
    omega

theorem zerosEnd : ds = ds.rdropWhile (· = '0') ++
    List.replicate (ds.length - (ds.rdropWhile (· = '0')).length) '0' := by
  have whole := @List.rdropWhile_append_rtakeWhile _ (fun c : Char => decide (c = '0')) ds
  have zeros : ∀ c ∈ ds.rtakeWhile (fun c : Char => decide (c = '0')), c = '0' := by
    intro c member
    simpa using List.mem_rtakeWhile_imp member
  have count := congrArg List.length whole
  rw [List.length_append] at count
  have tail := List.eq_replicate_iff.mpr ⟨rfl,zeros⟩
  have long : ds.length - (ds.rdropWhile (fun c : Char => decide (c = '0'))).length =
      (ds.rtakeWhile (fun c : Char => decide (c = '0'))).length := by omega
  rw [long,← tail]
  exact whole.symm

-- The nearest multiple, half way to the even one.
def nearest (n p : Nat) : Nat :=
  let q := n / p
  let r := n % p
  if 2 * r < p then q else if p < 2 * r then q + 1 else if q % 2 = 0 then q else q + 1

theorem nearestExact (positive : 0 < k) : nearest (m * k) k = m := by
  simp [nearest,Nat.mul_div_cancel _ positive,positive]

-- `n` with all but its first `count` digits rounded away.
def rounded (count n : Nat) : Nat :=
  let p := 10 ^ ((Nat.toDigits 10 n).length - count)
  nearest n p * p

def FewDigits (count n : Nat) : Prop := ∃ m k, m < 10 ^ count ∧ n = m * 10 ^ k

theorem roundedSame {count : Nat} (positive : 0 < count) : rounded count n = n ↔ FewDigits count n := by
  rcases Nat.eq_zero_or_pos n with zero | large
  · subst zero
    refine iff_of_true ?_ ⟨0,0,Nat.pow_pos (by decide),by simp⟩
    simp [rounded,nearest]
  obtain ⟨low,high⟩ := digitCount large
  have unit : 0 < 10 ^ ((Nat.toDigits 10 n).length - count) := Nat.pow_pos (by decide)
  constructor
  · intro same
    refine ⟨nearest n (10 ^ ((Nat.toDigits 10 n).length - count)),_,?_,same.symm⟩
    have below : nearest n (10 ^ ((Nat.toDigits 10 n).length - count)) *
        10 ^ ((Nat.toDigits 10 n).length - count) < 10 ^ (Nat.toDigits 10 n).length := by
      have value : nearest n (10 ^ ((Nat.toDigits 10 n).length - count)) *
          10 ^ ((Nat.toDigits 10 n).length - count) = n := same
      rw [value]
      exact high
    by_cases short : (Nat.toDigits 10 n).length ≤ count
    · have none : (Nat.toDigits 10 n).length - count = 0 := by omega
      rw [none] at below ⊢
      have wider := Nat.pow_le_pow_right (show 0 < 10 by decide) short
      omega
    · have split : (Nat.toDigits 10 n).length =
          count + ((Nat.toDigits 10 n).length - count) := by omega
      have power : 10 ^ (Nat.toDigits 10 n).length =
          10 ^ count * 10 ^ ((Nat.toDigits 10 n).length - count) := by
        rw [← Nat.pow_add,← split]
      rw [power] at below
      exact Nat.lt_of_mul_lt_mul_right below
  · rintro ⟨m,k,few,value⟩
    have enough : (Nat.toDigits 10 n).length - count ≤ k := by
      by_contra fewer
      have wide : m * 10 ^ k < 10 ^ count * 10 ^ k :=
        Nat.mul_lt_mul_of_pos_right few (Nat.pow_pos (by decide))
      rw [← Nat.pow_add,← value] at wide
      have narrow := Nat.pow_le_pow_right (show 0 < 10 by decide)
        (show count + k ≤ (Nat.toDigits 10 n).length - 1 by omega)
      omega
    obtain ⟨more,rest⟩ := Nat.exists_eq_add_of_le enough
    have multiple : n = m * 10 ^ more * 10 ^ ((Nat.toDigits 10 n).length - count) := by
      calc n = m * 10 ^ k := value
        _ = m * 10 ^ ((Nat.toDigits 10 n).length - count + more) := by rw [← rest]
        _ = m * 10 ^ more * 10 ^ ((Nat.toDigits 10 n).length - count) := by
          rw [Nat.pow_add]
          ring
    unfold rounded
    generalize 10 ^ ((Nat.toDigits 10 n).length - count) = p at multiple unit ⊢
    rw [multiple]
    simp only [nearestExact unit]

theorem fewDigitsScaled {count j : Nat} : FewDigits count (n * 10 ^ j) ↔ FewDigits count n := by
  constructor
  · rintro ⟨m,k,few,value⟩
    by_cases long : j ≤ k
    · refine ⟨m,k - j,few,?_⟩
      have power : 10 ^ k = 10 ^ (k - j) * 10 ^ j := by rw [← Nat.pow_add,Nat.sub_add_cancel long]
      rw [power,← Nat.mul_assoc] at value
      exact Nat.eq_of_mul_eq_mul_right (Nat.pow_pos (by decide)) value
    · have power : 10 ^ j = 10 ^ (j - k) * 10 ^ k := by rw [← Nat.pow_add,Nat.sub_add_cancel (by omega)]
      rw [power,← Nat.mul_assoc] at value
      have exactly := Nat.eq_of_mul_eq_mul_right (Nat.pow_pos (by decide)) value
      refine ⟨n,0,?_,by simp⟩
      have atLeast : n ≤ n * 10 ^ (j - k) := Nat.le_mul_of_pos_right _ (Nat.pow_pos (by decide))
      omega
  · rintro ⟨m,k,few,value⟩
    exact ⟨m,k + j,few,by rw [value,Nat.pow_add,Nat.mul_assoc]⟩

end Syncons.DecimalText
