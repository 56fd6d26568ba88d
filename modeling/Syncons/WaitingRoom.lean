import Mathlib.Data.List.Induction
import Mathlib.Data.List.Perm.Subperm

/-! A port with room for one to wait. In a cycle the port is busy or free and a newcomer
may arrive: a free port serves the newcomer first, then who waits; at a busy port the
newcomer takes the place of who waits. Served in order of arrival and without a loss are
exactly those sequences in which nobody arrives while another one waits. -/
namespace Syncons.WaitingRoom

variable {α : Type}

structure Cycle (α : Type) where
  busy : Bool
  arrives : Option α

structure Room (α : Type) where
  served : List α := []
  waits : Option α := none

def leaves (w : Option α) (c : Cycle α) : Option α := if c.busy then none else c.arrives.or w

def stays (w : Option α) (c : Cycle α) : Option α :=
  if c.busy then c.arrives.or w else if c.arrives.isSome then w else none

def step (r : Room α) (c : Cycle α) : Room α :=
  ⟨r.served ++ (leaves r.waits c).toList,stays r.waits c⟩

def run (cycles : List (Cycle α)) : Room α := cycles.foldl step {}

def arrivals (cycles : List (Cycle α)) : List α := cycles.filterMap Cycle.arrives

-- Who has been served, followed by who waits.
def Room.order (r : Room α) : List α := r.served ++ r.waits.toList

def crowded (w : Option α) (c : Cycle α) : Bool := w.isSome && c.arrives.isSome

def Spaced (cycles : List (Cycle α)) : Prop :=
  ∀ pre c post, cycles = pre ++ c :: post → crowded (run pre).waits c = false

variable {cycles : List (Cycle α)} {c : Cycle α} {r : Room α} {w : Option α}

theorem runSnoc : run (cycles ++ [c]) = step (run cycles) c := by
  rw [run,List.foldl_append]
  rfl

theorem arrivalsSnoc : arrivals (cycles ++ [c]) = arrivals cycles ++ c.arrives.toList := by
  cases here : c.arrives <;> simp [arrivals,here]

theorem spacedSnoc :
    Spaced (cycles ++ [c]) ↔ Spaced cycles ∧ crowded (run cycles).waits c = false := by
  constructor
  · intro spaced
    refine ⟨?_,spaced cycles c [] (by simp)⟩
    rintro pre a post rfl
    exact spaced pre a (post ++ [c]) (by simp)
  · rintro ⟨earlier,last⟩ pre a post split
    rcases List.eq_nil_or_concat post with rfl | ⟨front,b,rfl⟩
    · obtain ⟨rfl,same⟩ := List.append_inj' split rfl
      cases same
      exact last
    · rw [List.concat_eq_append,← List.cons_append,← List.append_assoc] at split
      obtain ⟨whole,_⟩ := List.append_inj' split rfl
      exact earlier pre a front whole

theorem quietOrder (none : c.arrives = none) : (step r c).order = r.order := by
  cases busy : c.busy <;> simp [step,Room.order,leaves,stays,busy,none]

theorem freshOrder {a : α} (arrives : c.arrives = some a) (empty : r.waits = none) :
    (step r c).order = r.order ++ [a] := by
  cases busy : c.busy <;> simp [step,Room.order,leaves,stays,busy,arrives,empty]

theorem orderLength : (step r c).order.length ≤ r.order.length + c.arrives.toList.length := by
  cases here : c.arrives with
  | none => simp [quietOrder here]
  | some a =>
    cases busy : c.busy with
    | true => simp [step,Room.order,leaves,stays,busy,here]
    | false =>
      simp only [step,Room.order,leaves,stays,busy,here,Bool.false_eq_true,if_false,Option.some_or,
        Option.isSome_some,if_true,Option.toList_some,List.length_append,List.length_singleton]
      omega

-- Somebody is lost for good, or the served have overtaken one another.
def Strayed (r : Room α) (arrived : List α) : Prop :=
  r.order.length < arrived.length ∨
    ∃ front a b, a ≠ b ∧ front ++ [a] <+: r.served ∧ front ++ [b] <+: arrived

theorem strayedApart {arrived : List α} (strayed : Strayed r arrived) : r.order ≠ arrived := by
  intro same
  obtain short | ⟨front,a,b,differ,left,right⟩ := strayed
  · rw [same] at short
    exact Nat.lt_irrefl _ short
  · obtain ⟨rest,left⟩ := left.trans (List.prefix_append r.served r.waits.toList)
    obtain ⟨rest',right⟩ := right
    rw [← Room.order,same,← right,List.append_assoc,List.append_assoc] at left
    exact differ (List.cons.inj (List.append_cancel_left left)).1

theorem strayedStep {arrived : List α} (strayed : Strayed r arrived) :
    Strayed (step r c) (arrived ++ c.arrives.toList) := by
  obtain short | ⟨front,a,b,differ,left,right⟩ := strayed
  · have bound := @orderLength α c r
    refine Or.inl ?_
    rw [List.length_append]
    omega
  · exact Or.inr ⟨front,a,b,differ,left.trans (List.prefix_append ..),right.trans (List.prefix_append ..)⟩

-- An arrival while another one waits: at a busy port that one is lost, at a free one overtaken.
theorem crowdedStrays {arrived : List α} (order : r.order = arrived)
    (distinct : (arrived ++ c.arrives.toList).Nodup) (crowd : crowded r.waits c = true) :
    Strayed (step r c) (arrived ++ c.arrives.toList) := by
  simp only [crowded,Bool.and_eq_true,Option.isSome_iff_exists] at crowd
  obtain ⟨⟨b,waits⟩,⟨a,arrives⟩⟩ := crowd
  cases busy : c.busy with
  | true =>
    refine Or.inl ?_
    rw [← order]
    simp [step,Room.order,leaves,stays,busy,arrives,waits]
  | false =>
    rw [← order,arrives,Room.order,waits] at distinct
    have differ : a ≠ b := by
      rintro rfl
      simp [List.nodup_append] at distinct
    refine Or.inr ⟨r.served,a,b,differ,?_,?_⟩
    · simp [step,leaves,busy,arrives]
    · rw [← order,Room.order,waits]
      exact List.prefix_append ..

theorem inOrder (spaced : Spaced cycles) : (run cycles).order = arrivals cycles := by
  induction cycles using List.reverseRecOn with
  | nil => rfl
  | append_singleton cycles c ih =>
    obtain ⟨earlier,last⟩ := spacedSnoc.mp spaced
    rw [runSnoc,arrivalsSnoc,← ih earlier]
    cases here : c.arrives with
    | none => simp [quietOrder here]
    | some a =>
      have empty : (run cycles).waits = none := by simpa [crowded,here] using last
      exact freshOrder here empty

theorem strays (distinct : (arrivals cycles).Nodup) (crowd : ¬ Spaced cycles) :
    Strayed (run cycles) (arrivals cycles) := by
  induction cycles using List.reverseRecOn with
  | nil => exact absurd (fun pre c post split => by simp at split) crowd
  | append_singleton cycles c ih =>
    rw [runSnoc,arrivalsSnoc]
    rw [arrivalsSnoc] at distinct
    by_cases earlier : Spaced cycles
    · have last : crowded (run cycles).waits c = true := by
        by_contra free
        exact crowd (spacedSnoc.mpr ⟨earlier,by simpa using free⟩)
      exact crowdedStrays (inOrder earlier) distinct last
    · exact strayedStep (ih (List.nodup_append.mp distinct).1 earlier)

theorem inOrderIff (distinct : (arrivals cycles).Nodup) :
    (run cycles).order = arrivals cycles ↔ Spaced cycles := by
  constructor
  · intro order
    by_contra crowd
    exact strayedApart (strays distinct crowd) order
  · exact inOrder

theorem orderSubperm (cycles : List (Cycle α)) : (run cycles).order.Subperm (arrivals cycles) := by
  induction cycles using List.reverseRecOn with
  | nil => exact List.Subperm.refl _
  | append_singleton cycles c ih =>
    rw [runSnoc,arrivalsSnoc]
    generalize run cycles = r at ih
    cases here : c.arrives with
    | none => simpa [quietOrder here] using ih
    | some a =>
      cases busy : c.busy with
      | true =>
        have served : r.served.Subperm (arrivals cycles) :=
          (List.sublist_append_left r.served r.waits.toList).subperm.trans ih
        simpa [step,Room.order,leaves,stays,busy,here] using served.append (List.Subperm.refl [a])
      | false =>
        have swap : (r.served ++ ([a] ++ r.waits.toList)).Perm (r.order ++ [a]) := by
          rw [Room.order,List.append_assoc]
          exact List.Perm.append_left _ List.perm_append_comm
        have shape : (step r c).order = r.served ++ ([a] ++ r.waits.toList) := by
          simp [step,Room.order,leaves,stays,busy,here]
        rw [shape]
        exact swap.subperm.trans (ih.append (List.Subperm.refl [a]))

end Syncons.WaitingRoom
