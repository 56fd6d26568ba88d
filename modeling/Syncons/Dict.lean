import Mathlib.Data.Finmap
import Mathlib.Data.Finset.Range
import Mathlib.Order.Lattice.Nat

/-! Mutable dictionaries and sets of a scripting language, as finite maps and
finite sets. Equality is by content; insertion order is not observable. -/
namespace Syncons.Dict

abbrev Map (κ υ : Type) := Finmap (fun _ : κ => υ)

variable {κ υ : Type} [DecidableEq κ]

def getD (d : Map κ υ) (k : κ) (default : υ) : υ := (d.lookup k).getD default

-- `d.setdefault(k, v)`: an existing binding wins.
def setdefault (d : Map κ υ) (k : κ) (v : υ) : Map κ υ :=
  if (d.lookup k).isSome then d else d.insert k v

def setAll (d : Map κ υ) (ks : List κ) (v : υ) : Map κ υ :=
  ks.foldl (fun d k => d.insert k v) d

def tabulate (ks : List κ) (f : κ → υ) : Map κ υ :=
  ks.foldl (fun d k => d.insert k (f k)) ∅

def restrict (d : Map κ υ) (ks : List κ) : Map κ υ :=
  ks.foldl (fun acc k => match d.lookup k with | some v => acc.insert k v | none => acc) ∅

theorem lookupInsert (d : Map κ υ) (k k' : κ) (v : υ) :
    (d.insert k v).lookup k' = if k' = k then some v else d.lookup k' := by
  split
  · rename_i same
    rw [same,Finmap.lookup_insert]
  · rename_i different
    rw [Finmap.lookup_insert_of_ne _ different]

theorem lookupSingleton (k k' : κ) (v : υ) :
    (Finmap.singleton k v : Map κ υ).lookup k' = if k' = k then some v else none := by
  split
  · rename_i same
    rw [same,Finmap.lookup_singleton_eq]
  · rename_i different
    exact Finmap.lookup_eq_none.mpr (fun member => different ((Finmap.mem_singleton k' k v).mp member))

theorem lookupErase (d : Map κ υ) (k k' : κ) :
    (d.erase k).lookup k' = if k' = k then none else d.lookup k' := by
  split
  · rename_i same
    rw [same,Finmap.lookup_erase]
  · rename_i different
    rw [Finmap.lookup_erase_ne different]

theorem lookupSetdefault (d : Map κ υ) (k k' : κ) (v : υ) :
    (setdefault d k v).lookup k' = if k' = k then some ((d.lookup k).getD v) else d.lookup k' := by
  unfold setdefault
  cases found : d.lookup k with
  | none => simp [lookupInsert]
  | some w =>
    by_cases same : k' = k
    · subst k'
      simp [found]
    · simp [same]

theorem memSetdefault (d : Map κ υ) (k k' : κ) (v : υ) :
    k' ∈ setdefault d k v ↔ k' = k ∨ k' ∈ d := by
  rw [← Finmap.lookup_isSome,← Finmap.lookup_isSome,lookupSetdefault]
  split <;> simp [*]

theorem memFoldSetdefault (ks : List κ) (v : υ) (d : Map κ υ) (k : κ) :
    k ∈ ks.foldl (fun d k => setdefault d k v) d ↔ k ∈ ks ∨ k ∈ d := by
  induction ks generalizing d with
  | nil => simp
  | cons head tail ih =>
    rw [List.foldl_cons,ih,memSetdefault,List.mem_cons]
    tauto

theorem lookupFoldInsert (ks : List κ) (f : κ → υ) (d : Map κ υ) (k : κ) :
    (ks.foldl (fun d k => d.insert k (f k)) d).lookup k =
      if k ∈ ks then some (f k) else d.lookup k := by
  induction ks generalizing d with
  | nil => simp
  | cons head tail ih =>
    rw [List.foldl_cons,ih,lookupInsert]
    by_cases same : k = head
    · subst k
      simp
    · simp [same]

theorem lookupSetAll (d : Map κ υ) (ks : List κ) (v : υ) (k : κ) :
    (setAll d ks v).lookup k = if k ∈ ks then some v else d.lookup k :=
  lookupFoldInsert ks (fun _ => v) d k

theorem lookupTabulate (ks : List κ) (f : κ → υ) (k : κ) :
    (tabulate ks f).lookup k = if k ∈ ks then some (f k) else none := by
  rw [tabulate,lookupFoldInsert,Finmap.lookup_empty]

theorem lookupRestrict (d : Map κ υ) (ks : List κ) (k : κ) :
    (restrict d ks).lookup k = if k ∈ ks then d.lookup k else none := by
  have general : ∀ acc : Map κ υ, (∀ k, (acc.lookup k).isSome → acc.lookup k = d.lookup k) →
      (ks.foldl (fun acc k => match d.lookup k with | some v => acc.insert k v | none => acc) acc).lookup k =
        if k ∈ ks then d.lookup k else acc.lookup k := by
    induction ks with
    | nil => simp
    | cons head tail ih =>
      intro acc sub
      rw [List.foldl_cons]
      cases found : d.lookup head with
      | none =>
        rw [ih acc sub]
        by_cases same : k = head
        · subst k
          have absent : acc.lookup head = none := by
            cases held : acc.lookup head with
            | none => rfl
            | some v => rw [← held,sub head (by simp [held]),found]
          simp [found,absent]
        · simp [same]
      | some v =>
        rw [ih]
        · rw [lookupInsert]
          by_cases same : k = head
          · subst k
            simp [found]
          · simp [same]
        · intro other held
          rw [lookupInsert] at held ⊢
          by_cases same : other = head
          · subst other
            simp [found]
          · simp only [same,if_false] at held ⊢
            exact sub other held
  have h := general ∅ (by simp)
  simpa [restrict] using h

theorem lookupSame {d d' : Map κ υ} {reach : κ → Prop} {value : κ → υ}
    (known : ∀ j, (d.lookup j).isSome = true ↔ reach j) (known' : ∀ j, (d'.lookup j).isSome = true ↔ reach j)
    (values : ∀ j v, d.lookup j = some v → v = value j)
    (values' : ∀ j v, d'.lookup j = some v → v = value j) : d' = d := by
  refine Finmap.ext_lookup ?_
  intro j
  have both := (known' j).trans (known j).symm
  cases held : d.lookup j with
  | none =>
    rw [held] at both
    exact Option.not_isSome_iff_eq_none.mp (fun bad => Bool.noConfusion (both.mp bad))
  | some v =>
    rw [held] at both
    obtain ⟨v',held'⟩ := Option.isSome_iff_exists.mp (both.mpr rfl)
    rw [held',values j v held,values' j v' held']

def sortedIds (s : Finset Nat) : List Nat :=
  (List.range (s.sup Nat.succ)).filter (fun i => i ∈ s)

theorem memSortedIds (s : Finset Nat) (i : Nat) : i ∈ sortedIds s ↔ i ∈ s := by
  simp only [sortedIds,List.mem_filter,List.mem_range,decide_eq_true_eq,and_iff_right_iff_imp]
  intro member
  have bound : Nat.succ i ≤ s.sup Nat.succ := Finset.le_sup member
  exact bound

-- `tuple(sorted(d.items()))` for a dictionary over naturals.
def sortedItems {υ : Type} (d : Map Nat υ) : List (Nat × υ) :=
  (sortedIds d.keys).filterMap (fun k => (d.lookup k).map (fun v => (k,v)))

end Syncons.Dict
