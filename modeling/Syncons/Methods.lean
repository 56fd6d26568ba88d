/-! Methods of an object: computations that return or throw, and keep in both cases what
they have written. How each of them runs from a given state. -/
namespace Syncons.Methods

variable {ε σ τ α β : Type} {x : EStateM ε σ α} {f : α → EStateM ε σ β} {s s' : σ} {a : α} {e : ε}

@[simp] theorem bindRun : (x >>= f) s =
    match x s with
    | .ok a s' => f a s'
    | .error e s' => .error e s' := rfl

@[simp] theorem pureRun : (pure a : EStateM ε σ α) s = .ok a s := rfl

@[simp] theorem mapRun {g : α → β} : (g <$> x) s =
    match x s with
    | .ok a s' => .ok (g a) s'
    | .error e s' => .error e s' := rfl

@[simp] theorem getRun : (get : EStateM ε σ σ) s = .ok s s := rfl

@[simp] theorem setRun : (set s' : EStateM ε σ PUnit) s = .ok ⟨⟩ s' := rfl

@[simp] theorem modifyRun {g : σ → σ} : (modify g : EStateM ε σ PUnit) s = .ok ⟨⟩ (g s) := rfl

@[simp] theorem throwRun : (throw e : EStateM ε σ α) s = .error e s := rfl

-- The handler sees the state in which the body threw.
@[simp] theorem tryCatchRun {handler : ε → EStateM ε σ α} : (tryCatch x handler) s =
    match x s with
    | .ok a s' => .ok a s'
    | .error e s' => handler e s' := by
  show EStateM.tryCatch x handler s = _
  delta EStateM.tryCatch
  cases x s with
  | ok a s' => rfl
  | error e s' => rfl

@[simp] theorem iteRun {p : Prop} [Decidable p] {y : EStateM ε σ α} :
    (if p then x else y) s = if p then x s else y s := by
  split <;> rfl

def left : EStateM.Result ε σ α → σ
  | .ok _ s => s
  | .error _ s => s

def returned : EStateM.Result ε σ α → Bool
  | .ok _ _ => true
  | .error _ _ => false

@[simp] theorem leftOk : left (.ok a s : EStateM.Result ε σ α) = s := rfl

@[simp] theorem leftError : left (.error e s : EStateM.Result ε σ α) = s := rfl

@[simp] theorem returnedOk : returned (.ok a s : EStateM.Result ε σ α) = true := rfl

@[simp] theorem returnedError : returned (.error e s : EStateM.Result ε σ α) = false := rfl

end Syncons.Methods
