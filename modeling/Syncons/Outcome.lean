/-! Computations that return a value or raise, with the rules for what they meet.
`Meets bad good x` allows exactly the errors of `bad` and requires `good` of a
returned value, so one statement covers partial and total correctness. -/
namespace Syncons.Outcome

variable {ε α β σ : Type} {bad : ε → Prop}

def Meets (bad : ε → Prop) (good : α → Prop) : Except ε α → Prop
  | .ok a => good a
  | .error e => bad e

@[simp] theorem meetsOk {good : α → Prop} {a : α} : Meets bad good (.ok a) ↔ good a := Iff.rfl

@[simp] theorem meetsPure {good : α → Prop} {a : α} : Meets bad good (pure a) ↔ good a := Iff.rfl

@[simp] theorem meetsError {good : α → Prop} {e : ε} : Meets bad good (.error e) ↔ bad e := Iff.rfl

@[simp] theorem okBind {a : α} {f : α → Except ε β} : (Except.ok a >>= f) = f a := rfl

@[simp] theorem meetsBind {good : β → Prop} {x : Except ε α} {f : α → Except ε β} :
    Meets bad good (x >>= f) ↔ Meets bad (fun a => Meets bad good (f a)) x := by
  cases x <;> rfl

theorem meetsMono {good better : α → Prop} {x : Except ε α} (h : Meets bad good x)
    (weaker : ∀ a, good a → better a) : Meets bad better x := by
  cases x with
  | error e => exact h
  | ok a => exact weaker a h

theorem meetsAnd {good also : α → Prop} {x : Except ε α} (h : Meets bad good x)
    (k : Meets bad also x) : Meets bad (fun a => good a ∧ also a) x := by
  cases x with
  | error e => exact h
  | ok a => exact ⟨h,k⟩

theorem meetsValue {good : α → Prop} {x : Except ε α} {a : α} (h : Meets bad good x)
    (ok : x = .ok a) : good a := by
  subst x
  exact h

theorem meetsTotal {good : α → Prop} {x : Except ε α} (h : Meets bad good x)
    (none : ∀ e, ¬ bad e) : ∃ a, x = .ok a ∧ good a := by
  cases x with
  | error e => exact absurd h (none e)
  | ok a => exact ⟨a,rfl,h⟩

theorem bindOk {x : Except ε α} {f : α → Except ε β} {b : β} :
    (x >>= f) = .ok b ↔ ∃ a, x = .ok a ∧ f a = .ok b := by
  cases x with
  | error e => simp [bind,Except.bind]
  | ok a => simp [bind,Except.bind]

inductive PyError where
  | assertionError | zeroDivisionError | valueError
  deriving DecidableEq, Repr

abbrev Py := Except PyError

def assertThat (p : Prop) [Decidable p] : Py Unit :=
  if p then .ok () else .error .assertionError

-- `a // b` rounds towards minus infinity.
def floorDiv (a b : Int) : Py Int :=
  if b = 0 then .error .zeroDivisionError else .ok (a.fdiv b)

def require (x : Option α) : Py α :=
  match x with
  | some a => .ok a
  | none => .error .assertionError

/- The loop rule: `holds rest s` is what the state satisfies while the items
`rest` are still to be processed. -/
theorem meetsFold {holds : List α → σ → Prop} {f : σ → α → Except ε σ} {items : List α} {s : σ}
    (start : holds items s)
    (step : ∀ s item rest, holds (item :: rest) s → Meets bad (holds rest) (f s item)) :
    Meets bad (holds []) (items.foldlM f s) := by
  induction items generalizing s with
  | nil => simpa using start
  | cons item rest ih =>
    rw [List.foldlM_cons,meetsBind]
    exact meetsMono (step s item rest start) (fun _ next => ih next)

theorem mapTotal {good : β → Prop} {f : α → Except ε β} {items : List α}
    (each : ∀ item ∈ items, ∃ b, f item = .ok b ∧ good b) :
    ∃ bs, items.mapM f = .ok bs ∧ bs.length = items.length ∧ ∀ b ∈ bs, good b := by
  induction items with
  | nil => exact ⟨[],rfl,rfl,by simp⟩
  | cons item rest ih =>
    obtain ⟨b,first,held⟩ := each item (by simp)
    obtain ⟨bs,later,same,all⟩ := ih (fun other member => each other (by simp [member]))
    refine ⟨b :: bs,?_,by simp [same],by simpa using ⟨held,all⟩⟩
    rw [List.mapM_cons,first,okBind,later,okBind]
    rfl

end Syncons.Outcome
