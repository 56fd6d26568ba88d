import Mathlib.Data.List.Induction

/-! Fields of a bit vector: writing a slice, reading it back, and reversing the bytes of
a word, which is how a big-endian field lies in a little-endian vector. -/
namespace Syncons.BitFields

variable {n w w' : Nat}

-- Verilog's `data[lo +: w] = v`.
def put (data : BitVec n) (lo : Nat) (v : BitVec w) : BitVec n :=
  (data &&& ~~~((BitVec.allOnes w).setWidth n <<< lo)) ||| (v.setWidth n <<< lo)

-- Verilog's `data[lo +: w]`.
def field (data : BitVec n) (lo w : Nat) : BitVec w := data.extractLsb' lo w

theorem putGet {data : BitVec n} {lo i : Nat} {v : BitVec w} (bound : i < n) :
    (put data lo v).getLsbD i =
      if lo ≤ i ∧ i < lo + w then v.getLsbD (i - lo) else data.getLsbD i := by
  simp only [put,BitVec.getLsbD_or,BitVec.getLsbD_and,BitVec.getLsbD_not,BitVec.getLsbD_shiftLeft,
    BitVec.getLsbD_setWidth,BitVec.getLsbD_allOnes]
  by_cases below : i < lo
  · have outside : ¬ (lo ≤ i ∧ i < lo + w) := by omega
    simp [below,outside,bound]
  · by_cases inside : i < lo + w
    · have covered : lo ≤ i ∧ i < lo + w := by omega
      have first : i - lo < n := by omega
      have second : i - lo < w := by omega
      simp [below,covered,bound,first,second]
    · have outside : ¬ (lo ≤ i ∧ i < lo + w) := by omega
      have beyond : v.getLsbD (i - lo) = false := BitVec.getLsbD_of_ge _ _ (by omega)
      have far : ¬ i - lo < w := by omega
      simp [outside,bound,beyond,far]

theorem fieldGet {data : BitVec n} {lo i : Nat} :
    (field data lo w).getLsbD i = (decide (i < w) && data.getLsbD (lo + i)) :=
  BitVec.getLsbD_extractLsb' ..

theorem fieldPut {data : BitVec n} {lo : Nat} {v : BitVec w} (fits : lo + w ≤ n) :
    field (put data lo v) lo w = v := by
  apply BitVec.eq_of_getLsbD_eq
  intro i bound
  have covered : lo ≤ lo + i ∧ lo + i < lo + w := by omega
  rw [fieldGet,putGet (by omega),if_pos covered]
  simp [bound]

theorem fieldPutOther {data : BitVec n} {lo lo' : Nat} {v : BitVec w} (fits : lo' + w' ≤ n)
    (apart : lo' + w' ≤ lo ∨ lo + w ≤ lo') : field (put data lo v) lo' w' = field data lo' w' := by
  apply BitVec.eq_of_getLsbD_eq
  intro i bound
  have outside : ¬ (lo ≤ lo' + i ∧ lo' + i < lo + w) := by omega
  rw [fieldGet,fieldGet,putGet (by omega),if_neg outside]

theorem fieldField {data : BitVec n} {lo lo' : Nat} (inside : lo' + w' ≤ w) :
    field (field data lo w) lo' w' = field data (lo + lo') w' := by
  apply BitVec.eq_of_getLsbD_eq
  intro i bound
  have covered : lo' + i < w := by omega
  rw [fieldGet,fieldGet,fieldGet,Nat.add_assoc]
  simp [covered]

theorem fieldOr {a b : BitVec n} {lo : Nat} : field (a ||| b) lo w = field a lo w ||| field b lo w := by
  ext i bound
  simp [field]

theorem fieldShifted {v : BitVec w} {lo : Nat} (fits : lo + w ≤ n) :
    field (v.setWidth n <<< lo) lo w = v := by
  apply BitVec.eq_of_getLsbD_eq
  intro i bound
  have inside : lo + i < n := by omega
  have narrow : i < n := by omega
  rw [fieldGet,BitVec.getLsbD_shiftLeft,BitVec.getLsbD_setWidth]
  simp [bound,inside,narrow]

theorem fieldShiftedOther {v : BitVec w'} {lo lo' : Nat} (apart : lo + w ≤ lo' ∨ lo' + w' ≤ lo) :
    field (v.setWidth n <<< lo') lo w = 0 := by
  apply BitVec.eq_of_getLsbD_eq
  intro i bound
  rw [fieldGet,BitVec.getLsbD_shiftLeft,BitVec.getLsbD_setWidth]
  rcases apart with before | after
  · have below : lo + i < lo' := by omega
    simp [below]
  · have beyond : v.getLsbD (lo + i - lo') = false := BitVec.getLsbD_of_ge _ _ (by omega)
    simp [beyond]

theorem fieldMasked {data : BitVec n} {lo : Nat} :
    ((data >>> lo) &&& (BitVec.allOnes w).setWidth n).setWidth w = field data lo w := by
  apply BitVec.eq_of_getLsbD_eq
  intro i bound
  rw [fieldGet,BitVec.getLsbD_setWidth,BitVec.getLsbD_and,BitVec.getLsbD_ushiftRight,
    BitVec.getLsbD_setWidth,BitVec.getLsbD_allOnes]
  by_cases inside : i < n
  · simp [bound,inside]
  · have beyond : data.getLsbD (lo + i) = false := BitVec.getLsbD_of_ge _ _ (by omega)
    simp [beyond]

theorem fieldZero {lo : Nat} : field (0 : BitVec n) lo w = 0 := by
  apply BitVec.eq_of_getLsbD_eq
  intro i bound
  rw [fieldGet]
  simp

section Bytes

variable {k : Nat}

def byteAt (data : BitVec n) (j : Nat) : BitVec 8 := field data (8 * j) 8

-- The bytes of a word in the opposite order: the lowest byte becomes the highest.
def swapBytes : (k : Nat) → BitVec (8 * k) → BitVec (8 * k)
  | 0,v => v
  | k + 1,v => (field v 0 8 ++ swapBytes k (field v 8 (8 * k))).cast (by omega)

theorem swapGet {v : BitVec (8 * k)} {i : Nat} (bound : i < 8 * k) :
    (swapBytes k v).getLsbD i = v.getLsbD (8 * (k - 1 - i / 8) + i % 8) := by
  induction k generalizing i with
  | zero => omega
  | succ k ih =>
    rw [swapBytes,BitVec.getLsbD_cast,BitVec.getLsbD_append]
    by_cases low : i < 8 * k
    · have place : 8 + (8 * (k - 1 - i / 8) + i % 8) = 8 * (k + 1 - 1 - i / 8) + i % 8 := by omega
      have inside : 8 * (k - 1 - i / 8) + i % 8 < 8 * k := by omega
      rw [if_pos low,ih low,fieldGet,place,decide_eq_true inside,Bool.true_and]
    · have place : 0 + (i - 8 * k) = 8 * (k + 1 - 1 - i / 8) + i % 8 := by omega
      have inside : i - 8 * k < 8 := by omega
      rw [if_neg low,fieldGet,place,decide_eq_true inside,Bool.true_and]

theorem swapByte {v : BitVec (8 * k)} {j : Nat} (bound : j < k) :
    byteAt (swapBytes k v) j = byteAt v (k - 1 - j) := by
  apply BitVec.eq_of_getLsbD_eq
  intro i small
  have inside : 8 * j + i < 8 * k := by omega
  have place : 8 * (k - 1 - (8 * j + i) / 8) + (8 * j + i) % 8 = 8 * (k - 1 - j) + i := by omega
  rw [byteAt,byteAt,fieldGet,fieldGet,swapGet inside,place]

theorem byteField {data : BitVec n} {o j : Nat} (bound : j < k) :
    byteAt (field data (8 * o) (8 * k)) j = byteAt data (o + j) := by
  rw [byteAt,byteAt,fieldField (by omega),Nat.mul_add]

theorem bytesEq {v u : BitVec (8 * k)} : v = u ↔ ∀ j < k, byteAt v j = byteAt u j := by
  constructor
  · intro same j _
    rw [same]
  · intro all
    apply BitVec.eq_of_getLsbD_eq
    intro i bound
    have same := congrArg (fun b => b.getLsbD (i % 8)) (all (i / 8) (by omega))
    simp only [byteAt,fieldGet,Nat.div_add_mod] at same
    simpa [Nat.mod_lt] using same

theorem bytesZero {v : BitVec (8 * k)} (all : ∀ j < k, byteAt v j = 0) : v = 0 := by
  rw [bytesEq]
  intro j bound
  rw [all j bound,byteAt,fieldZero]

theorem swapTwice {v : BitVec (8 * k)} : swapBytes k (swapBytes k v) = v := by
  rw [bytesEq]
  intro j bound
  have back : k - 1 - (k - 1 - j) = j := by omega
  rw [swapByte bound,swapByte (by omega),back]

theorem byteWiden {v : BitVec (8 * k)} {m j : Nat} (bound : j < m) :
    byteAt (v.setWidth (8 * m)) j = if j < k then byteAt v j else 0 := by
  apply BitVec.eq_of_getLsbD_eq
  intro i small
  have inside : 8 * j + i < 8 * m := by omega
  rw [byteAt,fieldGet,BitVec.getLsbD_setWidth,decide_eq_true small,decide_eq_true inside]
  split
  · rw [byteAt,fieldGet,decide_eq_true small]
    simp
  · have beyond : v.getLsbD (8 * j + i) = false := BitVec.getLsbD_of_ge _ _ (by omega)
    simp [beyond]

def writeBytes (enable : BitVec k) (new old : BitVec (8 * k)) : BitVec (8 * k) :=
  (List.range k).foldl
    (fun word j => if enable.getLsbD j then put word (8 * j) (byteAt new j) else word) old

theorem byteWritten {enable : BitVec k} {new old : BitVec (8 * k)} {j : Nat} (bound : j < k) :
    byteAt (writeBytes enable new old) j =
      if enable.getLsbD j then byteAt new j else byteAt old j := by
  have general : ∀ m ≤ k, byteAt ((List.range m).foldl
      (fun word j => if enable.getLsbD j then put word (8 * j) (byteAt new j) else word) old) j =
      if j < m ∧ enable.getLsbD j then byteAt new j else byteAt old j := by
    intro m
    induction m with
    | zero => simp
    | succ m ih =>
      intro inside
      have earlier := ih (by omega)
      rw [List.range_succ,List.foldl_append,List.foldl_cons,List.foldl_nil]
      generalize (List.range m).foldl _ old = word at earlier
      by_cases own : j = m
      · subst own
        cases on : enable.getLsbD j with
        | true => simp [byteAt,fieldPut (show 8 * j + 8 ≤ 8 * k by omega)]
        | false => simpa [on] using earlier
      · have reached : j < m + 1 ↔ j < m := by omega
        have same : (j < m + 1 ∧ enable.getLsbD j) ↔ (j < m ∧ enable.getLsbD j) := by rw [reached]
        have kept : byteAt (if enable.getLsbD m then put word (8 * m) (byteAt new m) else word) j =
            byteAt word j := by
          split
          · exact fieldPutOther (by omega) (by omega)
          · rfl
        rw [kept,earlier,if_congr same rfl rfl]
  rw [writeBytes,general k (Nat.le_refl k)]
  simp [bound]

theorem writeAll {new old : BitVec (8 * k)} : writeBytes (BitVec.allOnes k) new old = new := by
  rw [bytesEq]
  intro j bound
  rw [byteWritten bound]
  simp [bound]

-- A big-endian field, byte by byte: the first byte of the field is the highest of the word.
theorem swappedFieldEq {data : BitVec n} {o : Nat} {v : BitVec (8 * k)} :
    swapBytes k (field data (8 * o) (8 * k)) = v ↔ ∀ j < k, byteAt data (o + j) = byteAt v (k - 1 - j) := by
  rw [bytesEq]
  constructor
  · intro all j bound
    have same := all (k - 1 - j) (by omega)
    have back : k - 1 - (k - 1 - j) = j := by omega
    rwa [swapByte (by omega),back,byteField bound] at same
  · intro all j bound
    have same := all (k - 1 - j) (by omega)
    have back : k - 1 - (k - 1 - j) = j := by omega
    rw [back] at same
    rwa [swapByte bound,byteField (by omega)]

end Bytes
end Syncons.BitFields
