import Mathlib.Data.List.Chain
import Syncons.Runs

/-! AXI-Stream. A cycle of a stream offers a beat or nothing, and a beat is handed over in
a cycle that is ready for it. Frames are runs of beats of which the final one is marked. -/
namespace Syncons.AxiStream
open Runs

variable {β : Type}

structure Axis (β : Type) where
  valid : Bool
  beat : β
  deriving DecidableEq, Repr

def Axis.offer (a : Axis β) : Option β := if a.valid then some a.beat else none

structure LinkCycle (β : Type) where
  offer : Option β
  ready : Bool

def LinkCycle.taken (c : LinkCycle β) : Option β := if c.ready then c.offer else none

def handed (cycles : List (LinkCycle β)) : List β := cycles.filterMap LinkCycle.taken

-- An offer that was not taken is made again, unchanged, in the next cycle.
def Holds (c c' : LinkCycle β) : Prop := c.ready = false → c.offer.isSome = true → c'.offer = c.offer

instance [DecidableEq β] (c c' : LinkCycle β) : Decidable (Holds c c') :=
  inferInstanceAs (Decidable (_ → _ → _))

def Steady (cycles : List (LinkCycle β)) : Prop := cycles.IsChain Holds

instance [DecidableEq β] (cycles : List (LinkCycle β)) : Decidable (Steady cycles) :=
  inferInstanceAs (Decidable (cycles.IsChain Holds))

theorem takenIdle {c : LinkCycle β} (ready : c.ready = false) : c.taken = none := by
  simp [LinkCycle.taken,ready]

theorem handedSnoc (cycles : List (LinkCycle β)) (c : LinkCycle β) :
    handed (cycles ++ [c]) = handed cycles ++ c.taken.toList := by
  cases taken : c.taken with
  | none => simp [handed,taken]
  | some b => simp [handed,taken]

section Moves
variable {σ ω : Type} {sys : System σ ω} {moves : List (Move σ ω)} {s : σ}

theorem steadyMoves {stream : Move σ ω → LinkCycle β} :
    Steady (moves.map stream) ↔
      ∀ pre a b post, moves = pre ++ a :: b :: post → Holds (stream a) (stream b) := by
  rw [Steady,List.isChain_map,List.isChain_iff_forall_rel_of_append_cons_cons]
  constructor
  · intro chain pre a b post whole
    exact chain whole
  · intro each a b pre post whole
    exact each pre a b post whole

/- A stream driven by a machine is steady when one step keeps an offer that was refused. -/
theorem ranSteady {stream : Move σ ω → LinkCycle β} (ran : Ran sys moves s)
    (keep : ∀ pre a b post, moves = pre ++ a :: b :: post → b.before = a.after →
      Ran sys pre a.before → sys.step a.before a.op a.after → Holds (stream a) (stream b)) :
    Steady (moves.map stream) := by
  rw [steadyMoves]
  intro pre a b post whole
  rw [whole] at ran
  obtain ⟨before,step,_⟩ := ranAt ran
  exact keep pre a b post whole (ranLink ran) before step

end Moves

section Frames
variable {last : β → Bool}

structure Frame (last : β → Bool) where
  body : List β
  final : β
  runs : ∀ b ∈ body, last b = false
  ends : last final = true

def Frame.beats (f : Frame last) : List β := f.body ++ [f.final]

def Frame.first (f : Frame last) : β := f.body.headD f.final

theorem Frame.firstIs (f : Frame last) : ∃ rest, f.beats = f.first :: rest := by
  cases body : f.body with
  | nil => exact ⟨[],by simp [Frame.beats,Frame.first,body]⟩
  | cons b rest => exact ⟨rest ++ [f.final],by simp [Frame.beats,Frame.first,body]⟩

structure Framed (last : β → Bool) (beats : List β) (frames : List (Frame last)) (part : List β) :
    Prop where
  whole : beats = frames.flatMap Frame.beats ++ part
  more : ∀ b ∈ part, last b = false

variable {beats part : List β} {frames : List (Frame last)} {b : β}

theorem framedNothing : Framed last [] [] [] := ⟨rfl,by simp⟩

theorem Framed.extend (framed : Framed last beats frames part) (runs : last b = false) :
    Framed last (beats ++ [b]) frames (part ++ [b]) := by
  constructor
  · rw [framed.whole,List.append_assoc]
  · intro x member
    rcases List.mem_append.mp member with before | new
    · exact framed.more x before
    · rw [List.mem_singleton.mp new]
      exact runs

def Framed.frame (framed : Framed last beats frames part) (ends : last b = true) : Frame last :=
  ⟨part,b,framed.more,ends⟩

theorem Framed.close (framed : Framed last beats frames part) (ends : last b = true) :
    Framed last (beats ++ [b]) (frames ++ [framed.frame ends]) [] := by
  constructor
  · simp [framed.whole,Frame.beats,Framed.frame]
  · simp

theorem Framed.count (framed : Framed last beats frames part) : beats.countP last = frames.length := by
  have none {l : List β} (more : ∀ b ∈ l, last b = false) : l.countP last = 0 := by
    rw [List.countP_eq_zero]
    intro b member
    simp [more b member]
  have one (f : Frame last) : f.beats.countP last = 1 := by
    rw [Frame.beats,List.countP_append,none f.runs,List.countP_singleton,f.ends]
    rfl
  rw [framed.whole,List.countP_append,none framed.more]
  clear framed
  induction frames with
  | nil => rfl
  | cons f frames ih =>
    rw [List.flatMap_cons,List.countP_append,one,List.length_cons]
    omega

-- The first frame of a stream of beats is determined by the beats.
theorem frameCancel {f g : Frame last} {rest rest' : List β}
    (same : f.beats ++ rest = g.beats ++ rest') : f = g ∧ rest = rest' := by
  obtain ⟨body,final,runs,ends⟩ := f
  obtain ⟨body',final',runs',ends'⟩ := g
  simp only [Frame.beats,List.append_assoc,List.singleton_append] at same
  induction body generalizing body' with
  | nil =>
    cases body' with
    | nil =>
      obtain ⟨rfl,rfl⟩ := List.cons.inj same
      exact ⟨rfl,rfl⟩
    | cons b others =>
      obtain ⟨rfl,_⟩ := List.cons.inj same
      cases ends.symm.trans (runs' _ (by simp))
  | cons b body ih =>
    cases body' with
    | nil =>
      obtain ⟨rfl,_⟩ := List.cons.inj same
      cases ends'.symm.trans (runs _ (by simp))
    | cons b' others =>
      obtain ⟨rfl,later⟩ := List.cons.inj same
      obtain ⟨alike,rests⟩ := ih (fun x member => runs x (List.mem_cons_of_mem _ member)) others
        (fun x member => runs' x (List.mem_cons_of_mem _ member)) later
      cases alike
      exact ⟨rfl,rests⟩

theorem framesPrefix {frames all : List (Frame last)} {rest : List β}
    (same : frames.flatMap Frame.beats ++ rest = all.flatMap Frame.beats) :
    frames = all.take frames.length ∧ rest = (all.drop frames.length).flatMap Frame.beats := by
  induction frames generalizing all with
  | nil => exact ⟨rfl,same⟩
  | cons f frames ih =>
    cases all with
    | nil => simp [Frame.beats] at same
    | cons g all =>
      simp only [List.flatMap_cons,List.append_assoc] at same
      obtain ⟨rfl,later⟩ := frameCancel same
      obtain ⟨firsts,rests⟩ := ih later
      exact ⟨congrArg (f :: ·) firsts,rests⟩

end Frames

end Syncons.AxiStream
