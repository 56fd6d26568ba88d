import Syncons.Runs

/-! Callers that reach a memory through one lock and one channel. A write is posted: its caller
goes on before it is carried out. A read waits for its answer, and so for every access before
it. What the callers got is what they get one after the other. -/
namespace Syncons.PostedBus
open Runs

inductive Access (α ν : Type) where
  | write (addr : α) (value : ν)
  | read (addr : α)
  deriving DecidableEq, Repr

-- What a caller does with the lock held; what it reads may decide how it goes on.
inductive Program (α ν ρ : Type) where
  | done (result : ρ)
  | write (addr : α) (value : ν) (rest : Program α ν ρ)
  | read (addr : α) (rest : ν → Program α ν ρ)

structure Memory (α ν μ : Type) where
  put : μ → α → ν → μ
  get : μ → α → ν

variable {α ν ρ μ κ τ : Type}

namespace Access

def effect (mem : Memory α ν μ) (m : μ) : Access α ν → μ
  | write a v => mem.put m a v
  | read _ => m

def answer (mem : Memory α ν μ) (m : μ) : Access α ν → Option ν
  | write _ _ => none
  | read a => some (mem.get m a)

def posted : Access α ν → Bool
  | write _ _ => true
  | read _ => false

def addr : Access α ν → α
  | write a _ => a
  | read a => a

end Access

def carriedOut (mem : Memory α ν μ) (queue : List (Access α ν)) (m : μ) : μ :=
  queue.foldl (fun m access => access.effect mem m) m

namespace Program

def run (mem : Memory α ν μ) : Program α ν ρ → μ → ρ × μ
  | done r,m => (r,m)
  | write a v rest,m => run mem rest (mem.put m a v)
  | read a rest,m => run mem (rest (mem.get m a)) m

-- Whatever it reads, it only reaches these addresses.
def Within (ok : α → Prop) : Program α ν ρ → Prop
  | done _ => True
  | write a _ rest => ok a ∧ Within ok rest
  | read a rest => ok a ∧ ∀ v, Within ok (rest v)

end Program

inductive Holder (α ν ρ κ : Type) where
  | running (call : κ) (rest : Program α ν ρ)
  | waiting (call : κ) (addr : α) (rest : ν → Program α ν ρ)

-- The oldest access of the queue may be carried out already; its answer is then on the way.
structure Shared (α ν ρ μ κ : Type) where
  store : μ
  queue : List (Access α ν) := []
  carried : Option (Option ν) := none
  holder : Option (Holder α ν ρ κ) := none
  finished : List (κ × ρ) := []

inductive Op (κ : Type) where
  | lock (call : κ)
  | refuse (call : κ)
  | issue
  | carry
  | settle
  | unlock

/- A caller whose program is an early result never takes the lock. -/
inductive Moved (mem : Memory α ν μ) (program : κ → ρ ⊕ Program α ν ρ) :
    Shared α ν ρ μ κ → Op κ → Shared α ν ρ μ κ → Prop where
  | lock {s call body} (free : s.holder = none) (enters : program call = .inr body) :
      Moved mem program s (.lock call) {s with holder := some (.running call body)}
  | refuse {s call r} (early : program call = .inl r) :
      Moved mem program s (.refuse call) {s with finished := s.finished ++ [(call,r)]}
  | post {s call a v rest} (at_ : s.holder = some (.running call (.write a v rest))) :
      Moved mem program s .issue
        {s with queue := s.queue ++ [.write a v], holder := some (.running call rest)}
  | ask {s call a rest} (at_ : s.holder = some (.running call (.read a rest))) :
      Moved mem program s .issue
        {s with queue := s.queue ++ [.read a], holder := some (.waiting call a rest)}
  | carry {s access later} (fresh : s.carried = none) (head : s.queue = access :: later) :
      Moved mem program s .carry
        {s with store := access.effect mem s.store, carried := some (access.answer mem s.store)}
  | settled {s later} (out : s.carried = some none) (head : s.queue.tail = later) :
      Moved mem program s .settle {s with queue := later, carried := none}
  | answered {s call a rest v later} (out : s.carried = some (some v)) (head : s.queue.tail = later)
      (at_ : s.holder = some (.waiting call a rest)) :
      Moved mem program s .settle
        {s with queue := later, carried := none, holder := some (.running call (rest v))}
  | unlock {s call r} (at_ : s.holder = some (.running call (.done r))) :
      Moved mem program s .unlock
        {s with holder := none, finished := s.finished ++ [(call,r)]}

-- The first caller holds the lock from the start.
def system (mem : Memory α ν μ) (program : κ → ρ ⊕ Program α ν ρ) (m : μ) (first : κ) :
    System (Shared α ν ρ μ κ) (Op κ) where
  start s := ∃ body, program first = .inr body ∧
    s = {store := m, holder := some (.running first body)}
  step s op s' := Moved mem program s op s'

def atOnce (mem : Memory α ν μ) (program : κ → ρ ⊕ Program α ν ρ) (call : κ) (m : μ) : ρ × μ :=
  match program call with
  | .inl r => (r,m)
  | .inr body => body.run mem m

inductive Serial (exec : κ → τ → ρ × τ) (m : τ) : List (κ × ρ) → τ → Prop where
  | nothing : Serial exec m [] m
  | next {calls m' call} (before : Serial exec m calls m') :
      Serial exec m (calls ++ [(call,(exec call m').1)]) (exec call m').2

theorem serialMap {exec : κ → μ → ρ × μ} {spec : κ → τ → ρ × τ} (view : μ → τ) {m m' : μ}
    {calls : List (κ × ρ)}
    (agree : ∀ call m, spec call (view m) = ((exec call m).1,view (exec call m).2))
    (serial : Serial exec m calls m') : Serial spec (view m) calls (view m') := by
  induction serial with
  | nothing => exact .nothing
  | @next calls m' call before ih =>
    have step : Serial spec (view m) (calls ++ [(call,(spec call (view m')).1)])
        (spec call (view m')).2 := .next ih
    rw [agree call m'] at step
    exact step

theorem serialSnoc {exec : κ → τ → ρ × τ} {m m' : τ} {calls : List (κ × ρ)} {x : κ × ρ}
    (serial : Serial exec m (calls ++ [x]) m') :
    ∃ q, Serial exec m calls q ∧ x.2 = (exec x.1 q).1 ∧ m' = (exec x.1 q).2 := by
  generalize whole : calls ++ [x] = all at serial
  cases serial with
  | nothing => simp at whole
  | @next before q call earlier =>
    obtain ⟨same,last⟩ := List.append_inj' whole rfl
    cases last
    exact ⟨q,same ▸ earlier,rfl,rfl⟩

theorem serialAt {exec : κ → τ → ρ × τ} {m m' : τ} {pre post : List (κ × ρ)} {x : κ × ρ}
    (serial : Serial exec m (pre ++ x :: post) m') :
    ∃ q, Serial exec m pre q ∧ x.2 = (exec x.1 q).1 := by
  induction post using List.reverseRecOn generalizing m' with
  | nil =>
    obtain ⟨q,before,result,_⟩ := serialSnoc serial
    exact ⟨q,before,result⟩
  | append_singleton rest last ih =>
    rw [← List.cons_append,← List.append_assoc] at serial
    obtain ⟨q,before,_,_⟩ := serialSnoc serial
    exact ih before

def Shared.pending (s : Shared α ν ρ μ κ) : List (Access α ν) :=
  if s.carried.isSome then s.queue.tail else s.queue

def Shared.settledStore (mem : Memory α ν μ) (s : Shared α ν ρ μ κ) : μ :=
  carriedOut mem s.pending s.store

/- Where the holder is in its program: what is left of it, run on the memory as the queue leaves
it, gives what the whole gives on the memory as the calls before it left it. -/
inductive Along (mem : Memory α ν μ) (program : κ → ρ ⊕ Program α ν ρ) (m : μ) :
    Shared α ν ρ μ κ → Prop where
  | free {s} (none_ : s.holder = none) (writes : ∀ access ∈ s.queue, access.posted)
      (same : s.settledStore mem = m) : Along mem program m s
  | running {s call body rest} (at_ : s.holder = some (.running call rest))
      (enters : program call = .inr body) (writes : ∀ access ∈ s.queue, access.posted)
      (same : rest.run mem (s.settledStore mem) = body.run mem m) : Along mem program m s
  | asking {s call body a rest front} (at_ : s.holder = some (.waiting call a rest))
      (enters : program call = .inr body) (queue : s.queue = front ++ [.read a])
      (writes : ∀ access ∈ front, access.posted) (ahead : front ≠ [] ∨ s.carried = none)
      (same : (Program.read a rest).run mem (s.settledStore mem) = body.run mem m) :
      Along mem program m s
  | told {s call body a rest v} (at_ : s.holder = some (.waiting call a rest))
      (enters : program call = .inr body) (queue : s.queue = [.read a]) (out : s.carried = some (some v))
      (same : (rest v).run mem s.store = body.run mem m) : Along mem program m s

-- What is carried out already is the head of the queue, with an answer if it is a read.
def Shared.Headed (s : Shared α ν ρ μ κ) : Prop :=
  ∀ out, s.carried = some out → ∃ access later, s.queue = access :: later ∧ access.posted = out.isNone

variable {mem : Memory α ν μ} {program : κ → ρ ⊕ Program α ν ρ} {m m₀ : μ} {first : κ}
  {s s' : Shared α ν ρ μ κ}

theorem postedAnswer (access : Access α ν) (m : μ) : access.posted = (access.answer mem m).isNone := by
  cases access <;> rfl

theorem settledAppended (headed : s.Headed) (access : Access α ν) (h : Option (Holder α ν ρ κ)) :
    Shared.settledStore mem {s with queue := s.queue ++ [access], holder := h} =
      access.effect mem (s.settledStore mem) := by
  have pending : Shared.pending {s with queue := s.queue ++ [access], holder := h} =
      s.pending ++ [access] := by
    cases out : s.carried with
    | none => simp [Shared.pending,out]
    | some o =>
      obtain ⟨oldest,later,queue,_⟩ := headed o out
      simp [Shared.pending,out,queue]
  rw [Shared.settledStore,pending]
  simp [Shared.settledStore,carriedOut]

theorem settledCarried {access : Access α ν} {later : List (Access α ν)} {out : Option ν}
    (fresh : s.carried = none) (head : s.queue = access :: later) :
    Shared.settledStore mem {s with store := access.effect mem s.store, carried := some out} =
      s.settledStore mem := by
  simp [Shared.settledStore,Shared.pending,carriedOut,fresh,head]

theorem settledPopped {later : List (Access α ν)} {out : Option ν} (h : Option (Holder α ν ρ κ))
    (carried : s.carried = some out) (head : s.queue.tail = later) :
    Shared.settledStore mem {s with queue := later, carried := none, holder := h} = s.settledStore mem := by
  simp [Shared.settledStore,Shared.pending,carried,head]

theorem headedMoved {op : Op κ} (headed : s.Headed) (step : Moved mem program s op s') : s'.Headed := by
  cases step with
  | lock free enters => exact headed
  | refuse early => exact headed
  | post at_ =>
    intro out carried
    obtain ⟨access,later,queue,posted⟩ := headed out carried
    exact ⟨access,later ++ [_],by rw [queue]; rfl,posted⟩
  | ask at_ =>
    intro out carried
    obtain ⟨access,later,queue,posted⟩ := headed out carried
    exact ⟨access,later ++ [_],by rw [queue]; rfl,posted⟩
  | @carry access later fresh head =>
    intro out carried
    cases carried
    exact ⟨access,later,head,postedAnswer access s.store⟩
  | settled out head =>
    intro o carried
    cases carried
  | answered out head at_ =>
    intro o carried
    cases carried
  | unlock at_ => exact headed

theorem writesTail {queue : List (Access α ν)} (writes : ∀ access ∈ queue, access.posted) :
    ∀ access ∈ queue.tail, access.posted :=
  fun access member => writes access (List.mem_of_mem_tail member)

theorem writesSnoc {queue : List (Access α ν)} {a : α} {v : ν}
    (writes : ∀ access ∈ queue, access.posted) :
    ∀ access ∈ queue ++ [Access.write a v], access.posted := by
  intro access member
  rcases List.mem_append.mp member with old | new
  · exact writes access old
  · obtain rfl := List.mem_singleton.mp new
    rfl

theorem settledIsWrite (headed : s.Headed) (out : s.carried = some none) {a : α}
    {front : List (Access α ν)} (queue : s.queue = front ++ [.read a]) : front ≠ [] := by
  rintro rfl
  obtain ⟨access,later,same,posted⟩ := headed none out
  rw [queue] at same
  cases same
  cases posted

theorem answeredIsRead (headed : s.Headed) {v : ν} (out : s.carried = some (some v))
    (writes : ∀ access ∈ s.queue, access.posted) : False := by
  obtain ⟨access,later,queue,posted⟩ := headed (some v) out
  have write := writes access (by simp [queue])
  rw [posted] at write
  cases write

theorem alongMoved {op : Op κ} (headed : s.Headed) (along : Along mem program m s)
    (step : Moved mem program s op s') :
    (s'.finished = s.finished ∧ Along mem program m s') ∨
    ∃ call, s'.finished = s.finished ++ [(call,(atOnce mem program call m).1)] ∧
      Along mem program (atOnce mem program call m).2 s' := by
  cases step with
  | @lock call body free enters =>
    refine .inl ⟨rfl,?_⟩
    cases along with
    | free none_ writes same =>
      refine .running rfl enters writes ?_
      exact congrArg (body.run mem) same
    | running at_ | asking at_ | told at_ => rw [at_] at free; cases free
  | @refuse call r early =>
    have nothing : atOnce mem program call m = (r,m) := by simp [atOnce,early]
    refine .inr ⟨call,by rw [nothing],?_⟩
    rw [nothing]
    cases along with
    | free none_ writes same => exact .free none_ writes same
    | running at_ enters writes same => exact .running at_ enters writes same
    | asking at_ enters queue writes ahead same => exact .asking at_ enters queue writes ahead same
    | told at_ enters queue out same => exact .told at_ enters queue out same
  | @post call a v rest at_ =>
    refine .inl ⟨rfl,?_⟩
    cases along with
    | free none_ | asking other | told other => simp_all
    | running here enters writes same =>
      rw [here] at at_
      cases at_
      refine .running rfl enters (writesSnoc writes) ?_
      rw [settledAppended headed]
      exact same
  | @ask call a rest at_ =>
    refine .inl ⟨rfl,?_⟩
    cases along with
    | free none_ | asking other | told other => simp_all
    | running here enters writes same =>
      rw [here] at at_
      cases at_
      refine .asking rfl enters rfl writes ?_ ?_
      · cases out : s.carried with
        | none => exact .inr rfl
        | some o =>
          obtain ⟨access,later,queue,_⟩ := headed o out
          exact .inl (by simp [queue])
      · rw [settledAppended headed]
        exact same
  | @carry access later fresh head =>
    refine .inl ⟨rfl,?_⟩
    have kept : Shared.settledStore mem {s with
        store := access.effect mem s.store, carried := some (access.answer mem s.store)} =
        s.settledStore mem := settledCarried fresh head
    cases along with
    | free none_ writes same => exact .free none_ writes (kept.trans same)
    | running at_ enters writes same => exact .running at_ enters writes (kept ▸ same)
    | @asking call body a rest front at_ enters queue writes ahead same =>
      cases front with
      | cons oldest others => exact .asking at_ enters queue writes (.inl (by simp)) (kept ▸ same)
      | nil =>
        rw [queue] at head
        cases head
        refine .told at_ enters queue rfl ?_
        simpa [Shared.settledStore,Shared.pending,carriedOut,fresh,queue,Program.run,Access.effect,
          Access.answer] using same
    | told at_ enters queue out same => rw [out] at fresh; cases fresh
  | @settled later out head =>
    refine .inl ⟨rfl,?_⟩
    have kept : Shared.settledStore mem {s with queue := later, carried := none} =
        s.settledStore mem := settledPopped s.holder out head
    cases along with
    | free none_ writes same => exact .free none_ (head ▸ writesTail writes) (kept.trans same)
    | running at_ enters writes same =>
      exact .running at_ enters (head ▸ writesTail writes) (kept ▸ same)
    | @asking call body a rest front at_ enters queue writes ahead same =>
      have some_ := settledIsWrite headed out queue
      have behind : later = front.tail ++ [.read a] := by
        rw [← head,queue,List.tail_append_of_ne_nil some_]
      exact .asking at_ enters behind (writesTail writes) (.inr rfl) (kept ▸ same)
    | told at_ enters queue told same => rw [out] at told; cases told
  | @answered call a rest v later out head at_ =>
    refine .inl ⟨rfl,?_⟩
    cases along with
    | free none_ | running other => simp_all
    | @asking _ body _ _ front here enters queue writes ahead same =>
      obtain ⟨access,behind,oldest,posted⟩ := headed _ out
      cases front with
      | nil => simp [out] at ahead
      | cons write others =>
        have write_ := writes write (by simp)
        rw [queue] at oldest
        cases oldest
        rw [posted] at write_
        cases write_
    | @told _ body _ _ value here enters queue told same =>
      rw [here] at at_
      cases at_
      rw [told] at out
      cases out
      rw [queue] at head
      cases head
      refine .running rfl enters (by simp) ?_
      simpa [Shared.settledStore,Shared.pending,carriedOut] using same
  | @unlock call r at_ =>
    cases along with
    | free none_ | asking other | told other => simp_all
    | @running _ body _ here enters writes same =>
      rw [here] at at_
      cases at_
      have whole : atOnce mem program call m = (r,s.settledStore mem) := by
        rw [atOnce,enters]
        exact same.symm
      refine .inr ⟨call,by rw [whole],?_⟩
      rw [whole]
      exact .free rfl writes rfl

structure Standing (mem : Memory α ν μ) (program : κ → ρ ⊕ Program α ν ρ) (m₀ : μ)
    (s : Shared α ν ρ μ κ) : Prop where
  headed : s.Headed
  served : ∃ m, Serial (atOnce mem program) m₀ s.finished m ∧ Along mem program m s

theorem standing {moves : List (Move (Shared α ν ρ μ κ) (Op κ))}
    (ran : Ran (system mem program m₀ first) moves s) : Standing mem program m₀ s := by
  induction ran with
  | start h =>
    obtain ⟨body,enters,rfl⟩ := h
    exact ⟨nofun,m₀,.nothing,.running rfl enters nofun rfl⟩
  | move before step ih =>
    obtain ⟨m,serial,along⟩ := ih.served
    refine ⟨headedMoved ih.headed step,?_⟩
    rcases alongMoved ih.headed along step with ⟨same,after⟩ | ⟨call,more,after⟩
    · exact ⟨m,same ▸ serial,after⟩
    · exact ⟨_,more ▸ serial.next,after⟩

/- Whatever the callers do, the calls that have returned got what they get one after the other
in this order, and with the lock free the queue leaves the memory as they leave it. -/
theorem serialised {moves : List (Move (Shared α ν ρ μ κ) (Op κ))}
    (ran : Ran (system mem program m₀ first) moves s) :
    ∃ m, Serial (atOnce mem program) m₀ s.finished m ∧ (s.holder = none → s.settledStore mem = m) := by
  obtain ⟨m,serial,along⟩ := (standing ran).served
  refine ⟨m,serial,?_⟩
  intro free
  cases along with
  | free none_ writes same => exact same
  | running at_ | asking at_ | told at_ => rw [at_] at free; cases free

theorem answeredWaits {v : ν} (standing : Standing mem program m₀ s) (out : s.carried = some (some v)) :
    ∃ call a rest, s.holder = some (.waiting call a rest) := by
  obtain ⟨m,_,along⟩ := standing.served
  cases along with
  | free none_ writes | running at_ enters writes => exact (answeredIsRead standing.headed out writes).elim
  | asking at_ => exact ⟨_,_,_,at_⟩
  | told at_ => exact ⟨_,_,_,at_⟩

namespace Holder

def Within (ok : α → Prop) : Holder α ν ρ κ → Prop
  | running _ rest => rest.Within ok
  | waiting _ _ rest => ∀ v, (rest v).Within ok

end Holder

structure Confined (ok : α → Prop) (s : Shared α ν ρ μ κ) : Prop where
  queue : ∀ access ∈ s.queue, ok access.addr
  holder : ∀ h, s.holder = some h → h.Within ok

theorem confinedMoved {ok : α → Prop} {op : Op κ}
    (within : ∀ call body, program call = .inr body → body.Within ok) (confined : Confined ok s)
    (step : Moved mem program s op s') : Confined ok s' := by
  have running : ∀ {call : κ} {rest : Program α ν ρ}, rest.Within ok →
      ∀ h, some (Holder.running call rest) = some h → h.Within ok := by
    rintro call rest inside h ⟨⟩
    exact inside
  have tail : ∀ {later : List (Access α ν)}, s.queue.tail = later → ∀ access ∈ later, ok access.addr := by
    rintro later rfl access member
    exact confined.queue access (List.mem_of_mem_tail member)
  cases step with
  | lock free enters => exact ⟨confined.queue,running (within _ _ enters)⟩
  | refuse early => exact ⟨confined.queue,confined.holder⟩
  | @post call a v rest at_ =>
    have inside := confined.holder _ at_
    refine ⟨?_,running inside.2⟩
    intro access member
    rcases List.mem_append.mp member with old | new
    · exact confined.queue access old
    · obtain rfl := List.mem_singleton.mp new
      exact inside.1
  | @ask call a rest at_ =>
    have inside := confined.holder _ at_
    constructor
    · intro access member
      rcases List.mem_append.mp member with old | new
      · exact confined.queue access old
      · obtain rfl := List.mem_singleton.mp new
        exact inside.1
    · rintro h ⟨⟩
      exact inside.2
  | carry fresh head => exact ⟨confined.queue,confined.holder⟩
  | settled out head => exact ⟨tail head,confined.holder⟩
  | answered out head at_ => exact ⟨tail head,running (confined.holder _ at_ _)⟩
  | unlock at_ => exact ⟨confined.queue,nofun⟩

theorem confined {ok : α → Prop} (within : ∀ call body, program call = .inr body → body.Within ok)
    {moves : List (Move (Shared α ν ρ μ κ) (Op κ))}
    (ran : Ran (system mem program m₀ first) moves s) : Confined ok s := by
  induction ran with
  | start h =>
    obtain ⟨body,enters,rfl⟩ := h
    refine ⟨nofun,?_⟩
    rintro h ⟨⟩
    exact within _ _ enters
  | move before step ih => exact confinedMoved within ih step

end Syncons.PostedBus
