import Syncons.Types
import Mathlib.Data.Nat.Bitwise
import Mathlib.Data.Finset.Card
import Mathlib.Data.Fintype.Card

/-! Bitmaps of node ids as sets, and the intersection of two quorums. -/
namespace Syncons
open Outcome

@[simp] theorem testBitBit (i j : Nat) : (bit i).testBit j = decide (i = j) := by
  rw [bit,Nat.one_shiftLeft,Nat.testBit_two_pow]

theorem bitmapEq {a b : Nat} (h : ∀ i, a.testBit i = b.testBit i) : a = b :=
  Nat.eq_of_testBit_eq h

theorem memBitmapMembers {bitmap n i : Nat} :
    i ∈ bitmapMembers bitmap n ↔ i < n ∧ bitmap.testBit i = true := by
  simp [bitmapMembers]

-- `a & b == a` says that `a` is a subset of `b`.
theorem landEqLeft {a b : Nat} :
    a &&& b = a ↔ ∀ i, a.testBit i = true → b.testBit i = true := by
  constructor
  · intro same i held
    rw [← same,Nat.testBit_and,Bool.and_eq_true] at held
    exact held.2
  · intro subset
    apply bitmapEq
    intro i
    rw [Nat.testBit_and]
    cases held : a.testBit i with
    | false => rfl
    | true => simp [subset i held]

theorem bitmapSetMeets {bad : PyError → Prop} {n : Nat} {members : List Nat}
    (bound : ∀ i ∈ members, i < n) :
    Meets bad (fun bitmap => ∀ i, bitmap.testBit i = true ↔ i ∈ members) (bitmapSet n members) := by
  induction members with
  | nil => simp [bitmapSet]
  | cons head tail ih =>
    have inside : head < n := bound head (by simp)
    have rest := ih (fun i member => bound i (by simp [member]))
    simp only [bitmapSet,if_pos inside,meetsBind,meetsOk]
    refine meetsMono rest ?_
    intro bitmap exact i
    rw [Nat.testBit_or,testBitBit,Bool.or_eq_true,exact i,decide_eq_true_eq,List.mem_cons,eq_comm]

theorem fullBitmap (n i : Nat) : (bit n - 1).testBit i = decide (i < n) := by
  rw [bit,Nat.one_shiftLeft,Nat.testBit_two_pow_sub_one]

theorem quorumsMeet {n q : Nat} {a b : Finset Nat} (majority : n < q + q)
    (left : a ⊆ Finset.range n) (right : b ⊆ Finset.range n)
    (leftSize : q ≤ a.card) (rightSize : q ≤ b.card) : ∃ i, i ∈ a ∧ i ∈ b := by
  have more : (Finset.range n).card < a.card + b.card := by
    rw [Finset.card_range]
    omega
  obtain ⟨i,member⟩ := Finset.inter_nonempty_of_card_lt_card_add_card left right more
  exact ⟨i,Finset.mem_inter.mp member⟩

end Syncons
