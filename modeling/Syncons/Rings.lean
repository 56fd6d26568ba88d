import Mathlib.Data.List.Induction
import Mathlib.Data.Nat.Log
import Mathlib.Data.Nat.ModEq
import Mathlib.Data.Nat.Prime.Pow
import Mathlib.Logic.Function.Basic

/-! Rings of numbered cells. A head and a count in a ring of `n` cells stand for the queue
of the contents of `count` cells from the head on; the next cell is the tail. A cell of
several beats takes as many rows of a memory. -/
namespace Syncons.Rings

variable {α : Type} {n head count j : Nat} {f g : Nat → α} {v : α}

def cell (n head j : Nat) : Nat := (head + j) % n

def queue (n head count : Nat) (f : Nat → α) : List α :=
  (List.range count).map (fun j => f (cell n head j))

theorem cellZero (inside : head < n) : cell n head 0 = head := Nat.mod_eq_of_lt inside

theorem cellBound (some : 0 < n) : cell n head j < n := Nat.mod_lt _ some

theorem cellAdvance : cell n (cell n head 1) j = cell n head (j + 1) := by
  simp only [cell,Nat.mod_add_mod]
  congr 1
  omega

theorem cellSucc : cell n (cell n head j) 1 = cell n head (j + 1) := by
  simp only [cell,Nat.mod_add_mod,Nat.add_assoc]

theorem cellApart {i : Nat} (below : i < j) (near : j < n) : cell n head i ≠ cell n head j := by
  intro same
  have apart := Nat.sub_mod_eq_zero_of_mod_eq same.symm
  have gap : head + j - (head + i) = j - i := by omega
  rw [gap,Nat.mod_eq_of_lt (by omega)] at apart
  omega

theorem queueLength : (queue n head count f).length = count := by simp [queue]

theorem queueSame (same : ∀ j < count, f (cell n head j) = g (cell n head j)) :
    queue n head count f = queue n head count g := by
  refine List.map_congr_left ?_
  intro j member
  exact same j (List.mem_range.mp member)

theorem queueSnoc : queue n head (count + 1) f = queue n head count f ++ [f (cell n head count)] := by
  simp [queue,List.range_succ]

theorem queuePop (inside : head < n) :
    queue n head (count + 1) f = f head :: queue n (cell n head 1) count f := by
  rw [queue,List.range_succ_eq_map,List.map_cons,List.map_map,cellZero inside]
  congr 1
  refine List.map_congr_left ?_
  intro j _
  rw [Function.comp_apply,cellAdvance]

section Cycles

variable {tail later total slots width : Nat} {push pop : Bool}

/- The count register of a ring, `width` bits wide, in a cycle that may push a cell and pop
one. -/
theorem countStep (bound : count ≤ slots) (wide : slots < 2 ^ width) :
    (push = true → count < slots) → (pop = true → 0 < count) →
    (match push,pop with
      | false,true => (count + 2 ^ width - 1) % 2 ^ width
      | true,false => (count + 1) % 2 ^ width
      | _,_ => count) + (if pop then 1 else 0) = count + if push then 1 else 0 := by
  intro room some
  cases push with
  | false =>
    cases pop with
    | false => rfl
    | true =>
      have held := some rfl
      have wrapped : count + 2 ^ width - 1 = (count - 1) + 2 ^ width := by omega
      simp only [if_true,Bool.false_eq_true,if_false]
      rw [wrapped,Nat.add_mod_right,Nat.mod_eq_of_lt (by omega)]
      omega
  | true =>
    have below := room rfl
    cases pop with
    | false =>
      simp only [if_true,Bool.false_eq_true,if_false]
      rw [Nat.mod_eq_of_lt (by omega)]
    | true => rfl

theorem countBelow (step : later + (if pop then 1 else 0) = count + if push then 1 else 0)
    (bound : count ≤ slots) (room : push = true → count < slots) : later ≤ slots := by
  cases push with
  | false =>
    simp only [Bool.false_eq_true,if_false] at step
    omega
  | true =>
    have below := room rfl
    simp only [if_true] at step
    omega

theorem headStep (inside : head < n) : (if pop then (head + 1) % n else head) < n := by
  cases pop with
  | false => exact inside
  | true => exact Nat.mod_lt _ (by omega)

theorem tailStep (place : tail = cell n head count) :
    (if push then (tail + 1) % n else tail) = cell n head (count + if push then 1 else 0) := by
  cases push with
  | false => exact place
  | true =>
    rw [if_pos rfl,if_pos rfl,place]
    exact cellSucc

-- The cell that follows the queued ones is the same one, counted from the old head or the new.
theorem cellStep (step : later + (if pop then 1 else 0) = total) :
    cell n head total = cell n (if pop then (head + 1) % n else head) later := by
  subst step
  cases pop with
  | false => rfl
  | true => exact cellAdvance.symm

theorem queueStep (inside : head < n) (step : later + (if pop then 1 else 0) = total) :
    (if pop then some (f head) else none).toList ++
        queue n (if pop then (head + 1) % n else head) later f = queue n head total f := by
  subst step
  cases pop with
  | false => rfl
  | true => exact (queuePop inside).symm

end Cycles

section Powers

-- What a check that `n & (n - 1)` is zero says.
theorem binaryPower (some : n ≠ 0) (binary : n &&& (n - 1) = 0) : ∃ k, n = 2 ^ k :=
  (Nat.and_sub_one_eq_zero_iff_isPowerOfTwo some).mp binary

theorem clogPower (some : n ≠ 0) (binary : n &&& (n - 1) = 0) : 2 ^ Nat.clog 2 n = n := by
  obtain ⟨k,rfl⟩ := binaryPower some binary
  rw [Nat.clog_pow 2 k (by omega)]

theorem clogDivisor {m : Nat} (some : n ≠ 0) (binary : n &&& (n - 1) = 0) (divides : n % m = 0) :
    2 ^ Nat.clog 2 m = m := by
  obtain ⟨k,rfl⟩ := binaryPower some binary
  obtain ⟨j,_,rfl⟩ := (Nat.dvd_prime_pow Nat.prime_two).mp (Nat.dvd_of_mod_eq_zero divides)
  rw [Nat.clog_pow 2 j (by omega)]

end Powers

section Rows

variable {slots beats rows c c' i i' j' a : Nat}

def row (beats rows c j : Nat) : Nat := (c * beats + j) % rows

def slot (beats rows : Nat) (f : Nat → α) (c : Nat) : List α :=
  (List.range beats).map (fun j => f (row beats rows c j))

theorem slotLength : (slot beats rows f c).length = beats := by simp [slot]

theorem slotSame (same : ∀ j < beats, f (row beats rows c j) = g (row beats rows c j)) :
    slot beats rows f c = slot beats rows g c := by
  refine List.map_congr_left ?_
  intro j member
  exact same j (List.mem_range.mp member)

theorem beatApart (fits : beats ≤ rows) (first : j < beats) (second : j' < beats)
    (same : row beats rows c j = row beats rows c j') : j = j' := by
  have shifted := Nat.ModEq.add_left_cancel' (c * beats) same
  rwa [Nat.ModEq,Nat.mod_eq_of_lt (by omega),Nat.mod_eq_of_lt (by omega)] at shifted

theorem rowBelow (fits : slots * beats ≤ rows) (inside : c < slots) (first : j < beats) :
    row beats rows c j = c * beats + j := by
  have next : (c + 1) * beats ≤ slots * beats := Nat.mul_le_mul_right beats inside
  rw [Nat.add_mul] at next
  exact Nat.mod_eq_of_lt (by omega)

theorem cellFromRow (fits : slots * beats ≤ rows) (inside : c < slots) (first : j < beats) :
    row beats rows c j / beats = c := by
  rw [rowBelow fits inside first,Nat.mul_comm,Nat.mul_add_div (by omega),Nat.div_eq_of_lt first,
    Nat.add_zero]

/- The rows of the queued cells and of the tail are different, also in a ring with two
cells of which only one is ever in use. -/
theorem rowsApart (fits : slots * beats ≤ rows) (round : n = slots ∨ slots = 1)
    (room : count < slots) (one : i ≤ count) (other : i' ≤ count) (first : j < beats)
    (second : j' < beats) (same : row beats rows (cell n head i) j = row beats rows (cell n head i') j') :
    i = i' ∧ j = j' := by
  have place : i = i' := by
    obtain rfl | single := round
    · have inside : ∀ k, cell n head k < n := fun k => cellBound (by omega)
      have cells : cell n head i = cell n head i' := by
        rw [← cellFromRow fits (inside i) first,same,cellFromRow fits (inside i') second]
      by_contra apart
      obtain below | above := Nat.lt_or_gt_of_ne apart
      · exact cellApart below (by omega) cells
      · exact cellApart above (by omega) cells.symm
    · omega
  subst place
  have narrow : beats ≤ rows := le_trans (Nat.le_mul_of_pos_left beats (by omega)) fits
  exact ⟨rfl,beatApart narrow first second same⟩

end Rows

end Syncons.Rings
