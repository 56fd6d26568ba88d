import Mathlib.Data.List.Induction

/-! Runs of a labelled transition system, kept with every move they made, so that a
property of a whole run can speak of the states and labels it went through. -/
namespace Syncons.Runs

structure System (σ ω : Type) where
  start : σ → Prop
  step : σ → ω → σ → Prop

structure Move (σ ω : Type) where
  before : σ
  op : ω
  after : σ

inductive Ran {σ ω : Type} (sys : System σ ω) : List (Move σ ω) → σ → Prop where
  | start {s : σ} (h : sys.start s) : Ran sys [] s
  | move {moves : List (Move σ ω)} {s : σ} {op : ω} {s' : σ} (before : Ran sys moves s)
      (h : sys.step s op s') : Ran sys (moves ++ [⟨s,op,s'⟩]) s'

variable {σ ω : Type} {sys : System σ ω} {moves pre post : List (Move σ ω)} {m : Move σ ω} {s : σ}

theorem ranInvariant {inv : σ → Prop} (init : ∀ s, sys.start s → inv s)
    (keep : ∀ s op s', inv s → sys.step s op s' → inv s') (ran : Ran sys moves s) : inv s := by
  induction ran with
  | start h => exact init _ h
  | move before h ih => exact keep _ _ _ ih h

theorem ranSnoc (ran : Ran sys (moves ++ [m]) s) :
    Ran sys moves m.before ∧ sys.step m.before m.op m.after ∧ m.after = s := by
  generalize whole : moves ++ [m] = all at ran
  cases ran with
  | start h => simp at whole
  | move before h =>
    obtain ⟨same,last⟩ := List.append_inj' whole rfl
    cases last
    subst same
    exact ⟨before,h,rfl⟩

theorem ranPrefix (ran : Ran sys (pre ++ post) s) : ∃ mid, Ran sys pre mid := by
  induction post using List.reverseRecOn generalizing s with
  | nil => exact ⟨s,by simpa using ran⟩
  | append_singleton rest last ih =>
    rw [← List.append_assoc] at ran
    exact ih (ranSnoc ran).1

theorem ranAt (ran : Ran sys (pre ++ m :: post) s) :
    Ran sys pre m.before ∧ sys.step m.before m.op m.after ∧ Ran sys (pre ++ [m]) m.after := by
  rw [List.append_cons] at ran
  obtain ⟨mid,upTo⟩ := ranPrefix ran
  obtain ⟨before,step,same⟩ := ranSnoc upTo
  exact ⟨before,step,same ▸ upTo⟩

theorem ranStep (ran : Ran sys moves s) (member : m ∈ moves) : sys.step m.before m.op m.after := by
  obtain ⟨pre,post,rfl⟩ := List.append_of_mem member
  exact (ranAt ran).2.1

theorem ranLink {a b : Move σ ω} (ran : Ran sys (pre ++ a :: b :: post) s) : b.before = a.after := by
  have second : pre ++ a :: b :: post = (pre ++ [a]) ++ b :: post := by simp
  rw [second] at ran
  exact (ranSnoc (ranAt ran).1).2.2.symm

theorem ranShift (ran : Ran sys (pre ++ moves ++ [m]) s) :
    (moves ++ [m]).tail.map Move.before = moves.map Move.after := by
  induction moves generalizing pre with
  | nil => rfl
  | cons first rest ih =>
    have later := @ih (pre ++ [first]) (by simpa using ran)
    cases rest with
    | nil =>
      have whole : pre ++ [first] ++ [m] = pre ++ first :: m :: [] := by simp
      rw [whole] at ran
      exact congrArg ([·]) (ranLink ran)
    | cons second others =>
      have whole : pre ++ first :: second :: others ++ [m] =
          pre ++ first :: second :: (others ++ [m]) := by simp
      rw [whole] at ran
      exact congrArg₂ (· :: ·) (ranLink ran) later

/- What every later move keeps, holds from a move of the run to its end. -/
theorem ranOnwards {rel : σ → σ → Prop} (refl : ∀ s, rel s s)
    (trans : ∀ a b c, rel a b → rel b c → rel a c) (ran : Ran sys (pre ++ m :: post) s)
    (keep : ∀ a x b, post = a ++ x :: b → Ran sys (pre ++ m :: a) x.before →
      sys.step x.before x.op x.after → rel x.before x.after) : rel m.after s := by
  induction post using List.reverseRecOn generalizing s with
  | nil =>
    obtain ⟨_,_,same⟩ := ranSnoc ran
    rw [same]
    exact refl s
  | append_singleton rest last ih =>
    rw [← List.cons_append,← List.append_assoc] at ran
    obtain ⟨before,step,same⟩ := ranSnoc ran
    have earlier := ih before (fun a x b split => keep a x (b ++ [last]) (by simp [split]))
    exact trans _ _ _ earlier (same ▸ keep rest last [] rfl before step)

theorem filterMapSnoc {α β : Type} (f : α → Option β) (l : List α) (a : α) :
    (l ++ [a]).filterMap f = l.filterMap f ++ (f a).toList := by
  rw [List.filterMap_append]
  cases value : f a <;> simp [value]

-- What has left and what is still held is what has entered, in this order.
theorem ranConserved {α : Type} {out into : Move σ ω → Option α} (held : σ → List α)
    (empty : ∀ s, sys.start s → held s = [])
    (law : ∀ pre m, Ran sys pre m.before → sys.step m.before m.op m.after →
      (out m).toList ++ held m.after = held m.before ++ (into m).toList)
    (ran : Ran sys moves s) : moves.filterMap out ++ held s = moves.filterMap into := by
  induction ran with
  | start h => simpa using empty _ h
  | @move moves s op s' before h ih =>
    have step := law moves ⟨s,op,s'⟩ before h
    rw [filterMapSnoc,filterMapSnoc,← ih,List.append_assoc,List.append_assoc]
    exact congrArg _ step

-- A register that some moves advance by one counts them, modulo its width.
theorem ranTally {w : Nat} (count : σ → BitVec w) {hit : Move σ ω → Bool}
    (zero : ∀ s, sys.start s → count s = 0)
    (law : ∀ m, sys.step m.before m.op m.after →
      count m.after = if hit m then count m.before + 1 else count m.before)
    (ran : Ran sys moves s) : count s = BitVec.ofNat w (moves.countP hit) := by
  induction ran with
  | start h => exact zero _ h
  | @move moves s op s' before h ih =>
    have step := law ⟨s,op,s'⟩ h
    rw [List.countP_append,List.countP_singleton]
    cases hits : hit ⟨s,op,s'⟩ with
    | true =>
      rw [hits] at step
      rw [if_pos rfl,BitVec.ofNat_add,← ih]
      exact step
    | false =>
      rw [hits] at step
      rw [if_neg (by decide),Nat.add_zero,← ih]
      exact step

def record {ε : Type} (next : σ → ω → Except ε σ) : List ω → σ → Except ε (List (Move σ ω) × σ)
  | [], s => .ok ([],s)
  | op :: ops, s => do
    let s' ← next s op
    let (rest,last) ← record next ops s'
    .ok (⟨s,op,s'⟩ :: rest,last)

theorem recordRan {ε : Type} {next : σ → ω → Except ε σ} {ops : List ω} {last : σ}
    (legal : ∀ op ∈ ops, ∀ s s', next s op = .ok s' → sys.step s op s')
    (before : Ran sys pre s) (done : record next ops s = .ok (moves,last)) :
    Ran sys (pre ++ moves) last := by
  induction ops generalizing pre moves s with
  | nil =>
    cases done
    simpa using before
  | cons op ops ih =>
    cases first : next s op with
    | error e => simp [record,first,bind,Except.bind] at done
    | ok s' =>
      cases others : record next ops s' with
      | error e => simp [record,first,others,bind,Except.bind] at done
      | ok rest =>
        simp only [record,first,others,bind,Except.bind] at done
        cases done
        have moved := Ran.move before (legal op (by simp) s s' first)
        have whole := ih (fun other member => legal other (by simp [member])) moved others
        simpa using whole

theorem recordTotal {ε : Type} {next : σ → ω → σ} {ops : List ω} {first last : σ}
    (legal : ∀ s op, sys.step s op (next s op)) (start : sys.start first)
    (done : record (fun s op => (.ok (next s op) : Except ε σ)) ops first = .ok (moves,last)) :
    Ran sys moves last := by
  have taken : ∀ op ∈ ops, ∀ s s', (Except.ok (next s op) : Except ε σ) = .ok s' → sys.step s op s' := by
    intro op _ s s' took
    cases took
    exact legal s op
  simpa using recordRan taken (.start start) done

theorem okOption {ε α : Type} {x : Except ε α} {a : α} (same : x.toOption = some a) : x = .ok a := by
  cases x with
  | error e => cases same
  | ok b => exact congrArg Except.ok (Option.some.inj same)

theorem okFound {ε α β : Type} {x : Except ε α} {f : α → β} {b : β}
    (value : x.toOption.map f = some b) : ∃ a, x = .ok a ∧ f a = b := by
  obtain ⟨a,same,found⟩ := Option.map_eq_some_iff.mp value
  exact ⟨a,okOption same,found⟩

def cut {α : Type} (i : Nat) (l : List α) : Option (List α × α × List α) :=
  match l.drop i with
  | [] => none
  | a :: rest => some (l.take i,a,rest)

theorem cutIs {α : Type} {i : Nat} {l pre post : List α} {a : α} (h : cut i l = some (pre,a,post)) :
    l = pre ++ a :: post := by
  cases rest : l.drop i with
  | nil => simp [cut,rest] at h
  | cons b tail =>
    simp only [cut,rest,Option.some.injEq,Prod.mk.injEq] at h
    obtain ⟨rfl,rfl,rfl⟩ := h
    rw [← rest,List.take_append_drop]

theorem cutAt {α : Type} {pre post : List α} {a : α} :
    cut pre.length (pre ++ a :: post) = some (pre,a,post) := by
  simp [cut]

-- A check of every pair of neighbours of a list, with what precedes them.
def pairwise {α : Type} (check : List α → α → α → Bool) : List α → List α → Bool
  | pre,a :: b :: rest => check pre a b && pairwise check (pre ++ [a]) (b :: rest)
  | _,_ => true

theorem pairwiseSound {α : Type} {check : List α → α → α → Bool} {front l pre post : List α} {a b : α}
    (held : pairwise check front l = true) (split : l = pre ++ a :: b :: post) :
    check (front ++ pre) a b = true := by
  induction pre generalizing front l with
  | nil =>
    subst split
    simp only [List.nil_append,pairwise,Bool.and_eq_true] at held
    simpa using held.1
  | cons c pre ih =>
    subst split
    cases pre with
    | nil =>
      simp only [List.cons_append,List.nil_append,pairwise,Bool.and_eq_true] at held
      have later := @ih (front ++ [c]) (a :: b :: post) (by simpa [pairwise] using held.2) rfl
      simpa using later
    | cons d rest =>
      simp only [List.cons_append,pairwise,Bool.and_eq_true] at held
      have later := ih held.2 rfl
      simpa using later

end Syncons.Runs
