import Syncons.TxEngine
import Syncons.AxiStream

/-! The transmit engine on its stream. An offered beat waits unchanged until it is taken, an
admitted frame runs to its one last beat whatever the window and later starts do, and the
local echo repeats the beats that were taken, one cycle later. -/
namespace Syncons
open Runs AxiStream

section Endless
variable {σ ω : Type}

structure Endless (sys : System σ ω) where
  state : Nat → σ
  op : Nat → ω
  start : sys.start (state 0)
  step : ∀ n, sys.step (state n) (op n) (state (n + 1))

theorem keptUntil {held : Nat → Prop} {go : Nat → Bool} {n : Nat} (now : held n)
    (keep : ∀ k, n ≤ k → held k → go k = false → held (k + 1)) (fair : ∃ k ≥ n, go k = true) :
    ∃ k ≥ n, held k ∧ go k = true := by
  obtain ⟨last,le,goes⟩ := fair
  obtain ⟨d,rfl⟩ := Nat.exists_eq_add_of_le le
  induction d generalizing n with
  | zero => exact ⟨n,Nat.le_refl n,now,goes⟩
  | succ d ih =>
    cases first : go n with
    | true => exact ⟨n,Nat.le_refl n,now,first⟩
    | false =>
      have later (k : Nat) (after : n + 1 ≤ k) := keep k (Nat.le_of_succ_le after)
      have reached : go (n + 1 + d) = true := by
        rw [Nat.add_assoc,Nat.add_comm 1 d]
        exact goes
      obtain ⟨k,after,held⟩ :=
        ih (keep n (Nat.le_refl n) now first) later (Nat.le_add_right _ _) reached
      exact ⟨k,Nat.le_of_succ_le after,held⟩

end Endless

namespace TxEngine
variable {p : Parameters} {e e' : TxEngine} {x : Inputs} {m start : Move TxEngine Inputs}
  {moves pre inner : List (Move TxEngine Inputs)}

def lane (p : Parameters) (m : Move TxEngine Inputs) : LinkCycle Beat where
  offer := (Axis.mk (m.before.axisValid) ⟨m.before.axisData p,m.before.axisKeep,m.before.axisLast,
    axisUser p⟩).offer
  ready := m.op.axisReady

theorem laneTaken : (lane p m).taken = m.before.beatSent p m.op := by
  cases ready : m.op.axisReady <;> simp [lane,LinkCycle.taken,Axis.offer,beatSent,ready]

theorem heldNext (quiet : x.rst = false) (waits : x.axisReady = false) (valid : e.axisValid = true) :
    e.next p x = e.countPulses x e := by
  cases state : e.state with
  | idle => simp [axisValid,state] at valid
  | hdr => simp [next,quiet,state,waits]
  | payload =>
    have held : e.beatValid = true := by simpa [axisValid,state] using valid
    simp [next,quiet,state,waits,loadRow,payloadSpace,held]

theorem laneSteady (ran : Ran (system p) moves e) : Steady (moves.map (lane p)) := by
  refine ranSteady ran ?_
  intro pre a b post whole link _ step refused offered
  obtain ⟨quiet,after⟩ := step
  have valid : a.before.axisValid = true := by
    cases valid : a.before.axisValid with
    | false => simp [lane,Axis.offer,valid] at offered
    | true => rfl
  have same := heldNext (p := p) quiet refused valid
  rw [← after,← link] at same
  simp only [lane,same]
  rfl

-- A busy engine goes idle with the last beat of its frame and in no other cycle.
theorem idleIff (quiet : x.rst = false) (busy : e.state ≠ .idle) :
    (e.next p x).state = .idle ↔ ∃ b ∈ e.beatSent p x, b.last = true := by
  cases state : e.state with
  | idle => exact absurd state busy
  | hdr =>
    cases ready : x.axisReady with
    | false => simp [next,quiet,state,ready,beatSent,countPulses]
    | true =>
      cases more : e.hasPayload <;>
        simp [next,quiet,state,ready,beatSent,axisValid,axisLast,headerTaken,more]
  | payload =>
    cases taken : (e.beatValid && x.axisReady) with
    | false => simp [next,quiet,state,taken,beatSent,axisValid,loadedState,countPulses]
    | true =>
      cases last : e.beatLast <;>
        simp [next,quiet,state,taken,beatSent,axisValid,axisLast,loadedState,rowTaken,last,countPulses]

theorem idleSilent (idle : e.state = .idle) : e.beatSent p x = none := by
  simp [beatSent,axisValid,idle]

theorem startedNext (quiet : x.rst = false) (idle : e.state = .idle) :
    (e.next p x).state ≠ .idle ↔ e.startAccepted x = true := by
  cases started : e.startAccepted x <;> simp [next,quiet,idle,started,countPulses,admitFrame]

def admitted (m : Move TxEngine Inputs) : Bool := m.before.startAccepted m.op

theorem sentSnoc : sentIn p (moves ++ [m]) = sentIn p moves ++ (m.before.beatSent p m.op).toList :=
  filterMapSnoc ..

/- One last beat for each frame that was admitted, but for the frame under way. -/
theorem lastsCounted (ran : Ran (system p) moves e) :
    (sentIn p moves).countP Beat.last + (if e.state = .idle then 0 else 1) =
      moves.countP admitted := by
  induction ran with
  | start h =>
    cases h
    rfl
  | @move moves e x e' before step ih =>
    obtain ⟨quiet,rfl⟩ := step
    rw [sentSnoc,List.countP_append,List.countP_append,List.countP_singleton,← ih]
    by_cases idle : e.state = .idle
    · have started := startedNext (p := p) quiet idle
      rw [idleSilent idle,if_pos idle]
      cases accepted : e.startAccepted x <;> simp [admitted,accepted] at started ⊢ <;> simp [started]
    · have refused : admitted ⟨e,x,e.next p x⟩ = false := by simp [admitted,startAccepted,idle]
      have ends := idleIff (p := p) quiet idle
      rw [refused,if_neg idle]
      cases beat : e.beatSent p x with
      | none => simp [beat] at ends ⊢; simp [ends]
      | some b =>
        cases last : b.last <;> simp [beat,last] at ends ⊢ <;> simp [ends]

-- What has been sent since a frame was admitted: no last beat yet, or the whole frame.
inductive FrameSoFar (e : TxEngine) : List Beat → Prop where
  | going {sent : List Beat} (busy : e.state ≠ .idle) (more : ∀ b ∈ sent, b.last = false) :
      FrameSoFar e sent
  | done (idle : e.state = .idle) (f : Frame Beat.last) : FrameSoFar e f.beats

theorem frameSoFar (ran : Ran (system p) (pre ++ start :: inner) e) (begun : admitted start = true)
    (busy : ∀ m ∈ inner, m.before.state ≠ .idle) : FrameSoFar e (sentIn p inner) := by
  have sending := ranSending ran begun busy
  generalize sentIn p inner = sent at sending
  cases sending with
  | header state => exact .going (by simp [state]) (by simp)
  | payload state offers more =>
    refine .going (by simp [state]) ?_
    intro b member
    rcases List.mem_cons.mp member with rfl | row
    · simp [headerBeat,offers]
    · exact more b row
  | empty state none => exact .done state ⟨[],headerBeat p start.op,by simp,by simp [headerBeat,none]⟩
  | @sent rows last state offers more ends =>
    refine .done state ⟨headerBeat p start.op :: rows,last,?_,ends⟩
    intro b member
    rcases List.mem_cons.mp member with rfl | row
    · simp [headerBeat,offers]
    · exact more b row

def deaf (x : Inputs) : Inputs :=
  { x with
    txStartPulse := false, txWindow := false, txEndPulse := false
    txRoundId := 0, txRunId := 0, txRow := 0 }

def uncounted (e : TxEngine) : TxEngine := {e with counts := {}}

theorem loadUncounted (q : TxEngine) : (e.loadRow x q).uncounted = e.loadRow x q.uncounted := by
  simp only [loadRow]
  split
  · rfl
  · rfl

theorem rowUncounted (q : TxEngine) :
    (e.rowTaken q).uncounted = (e.rowTaken q.uncounted).uncounted := by
  simp only [rowTaken]
  split
  · rfl
  · rfl

theorem headerUncounted (q : TxEngine) :
    (e.headerTaken q).uncounted = (e.headerTaken q.uncounted).uncounted := by
  simp only [headerTaken]
  split
  · rfl
  · rfl

theorem busyDeaf (busy : e.state ≠ .idle) :
    e.beatSent p (deaf x) = e.beatSent p x ∧ (e.next p (deaf x)).uncounted = (e.next p x).uncounted := by
  refine ⟨rfl,?_⟩
  have pulses : (e.countPulses (deaf x) e).uncounted = (e.countPulses x e).uncounted := rfl
  cases quiet : x.rst with
  | true => simp [next,deaf,quiet]
  | false =>
    have quiet' : (deaf x).rst = false := quiet
    have ready : (deaf x).axisReady = x.axisReady := rfl
    cases state : e.state with
    | idle => exact absurd state busy
    | hdr =>
      simp only [next,quiet,quiet',state,ready,Bool.false_eq_true,if_false]
      split
      · rw [headerUncounted,pulses,← headerUncounted]
      · exact pulses
    | payload =>
      have load (q : TxEngine) : e.loadRow (deaf x) q = e.loadRow x q := rfl
      simp only [next,quiet,quiet',state,ready,Bool.false_eq_true,if_false,load,loadUncounted]
      split
      · rw [rowUncounted,pulses,← rowUncounted]
      · rw [pulses]

section Progress
variable (run : Endless (system p)) {n : Nat}

theorem headerLeaves (ready : ∀ n, ∃ k ≥ n, (run.op k).axisReady = true)
    (header : (run.state n).state = .hdr) (busy : ∀ k ≥ n, (run.state k).state ≠ .idle) :
    ∃ k ≥ n, (run.state k).state = .payload := by
  have keep (k : Nat) (_ : n ≤ k) (held : (run.state k).state = .hdr)
      (waits : (run.op k).axisReady = false) : (run.state (k + 1)).state = .hdr := by
    obtain ⟨quiet,after⟩ := run.step k
    rw [after]
    simp [next,quiet,held,waits,countPulses]
  obtain ⟨k,le,held,goes⟩ := keptUntil header keep (ready n)
  obtain ⟨quiet,after⟩ := run.step k
  refine ⟨k + 1,Nat.le_succ_of_le le,?_⟩
  have on := busy (k + 1) (Nat.le_succ_of_le le)
  rw [after] at on ⊢
  cases more : (run.state k).hasPayload with
  | true => simp [next,quiet,held,goes,headerTaken,more]
  | false => simp [next,quiet,held,goes,headerTaken,more] at on

theorem payloadStays (payload : (run.state n).state = .payload)
    (busy : ∀ k ≥ n, (run.state k).state ≠ .idle) : ∀ k ≥ n, (run.state k).state = .payload := by
  intro k le
  induction k, le using Nat.le_induction with
  | base => exact payload
  | succ k le ih =>
    obtain ⟨quiet,after⟩ := run.step k
    have on := busy (k + 1) (Nat.le_succ_of_le le)
    rw [after] at on ⊢
    simp only [next,quiet,ih,Bool.false_eq_true,if_false,loadedState] at on ⊢
    split at on
    · next taken =>
      rw [if_pos taken]
      cases last : (run.state k).beatLast with
      | true => simp [rowTaken,last] at on
      | false => simp [rowTaken,last,countPulses,ih]
    · next kept =>
      rw [if_neg kept]
      exact ih

def takesLast (e : TxEngine) (x : Inputs) : Bool := e.payloadSpace x && x.bufRdValid && x.bufTxLast

/- A sink that is ready again and again, and a buffer that does not leave the engine waiting
for the end of a slot, see every admitted frame to its end. -/
theorem frameCompletes (ready : ∀ n, ∃ k ≥ n, (run.op k).axisReady = true)
    (fed : ∀ n, (∀ k ≥ n, (run.state k).state = .payload) →
      ∃ k ≥ n, takesLast (run.state k) (run.op k) = true)
    (begun : (run.state n).startAccepted (run.op n) = true) :
    ∃ k > n, (run.state k).state = .idle := by
  by_contra none
  have busy (k : Nat) (after : n + 1 ≤ k) : (run.state k).state ≠ .idle :=
    fun idle => none ⟨k,after,idle⟩
  have header : (run.state (n + 1)).state = .hdr := by
    obtain ⟨quiet,after⟩ := run.step n
    have idle : (run.state n).state = .idle := by
      simp only [startAccepted,Bool.and_eq_true,decide_eq_true_eq] at begun
      exact begun.2
    rw [after]
    simp [next,quiet,idle,begun,admitFrame]
  obtain ⟨k,later,payload⟩ := headerLeaves run ready header busy
  have stays := payloadStays run payload (fun i le => busy i (le_trans later le))
  obtain ⟨i,le,taken⟩ := fed k stays
  -- From the next cycle on the engine holds the row that ends the slot.
  have holds : (run.state (i + 1)).beatValid = true ∧ (run.state (i + 1)).beatLast = true := by
    simp only [takesLast,Bool.and_eq_true] at taken
    obtain ⟨quiet,after⟩ := run.step i
    rw [after]
    simp [next,quiet,stays i le,loadRow,taken.1.1,taken.1.2,taken.2]
  have keep (j : Nat) (after : i + 1 ≤ j)
      (held : (run.state j).beatValid = true ∧ (run.state j).beatLast = true)
      (waits : (run.op j).axisReady = false) :
      (run.state (j + 1)).beatValid = true ∧ (run.state (j + 1)).beatLast = true := by
    obtain ⟨quiet,next⟩ := run.step j
    have on := stays j (le_trans le (Nat.le_of_succ_le after))
    rw [next,heldNext (p := p) quiet waits (by simp [axisValid,on,held.1])]
    exact held
  obtain ⟨j,after,held,goes⟩ := keptUntil holds keep (ready (i + 1))
  have on := stays j (le_trans le (Nat.le_of_succ_le after))
  obtain ⟨quiet,next⟩ := run.step j
  have beat : (run.state j).beatSent p (run.op j) =
      some ⟨(run.state j).axisData p,(run.state j).axisKeep,(run.state j).axisLast,axisUser p⟩ := by
    simp [beatSent,axisValid,on,held.1,goes]
  have last : (run.state j).axisLast = true := by simp [axisLast,on,held.2]
  have ends := (idleIff (p := p) quiet (busy j (le_trans later (le_trans le (by omega))))).mpr
    ⟨_,beat,last⟩
  rw [← next] at ends
  exact busy (j + 1) (by omega) ends

end Progress

inductive Sent where
  | header (h : Header) (alone : Bool)
  | row (data : BitVec 512) (keep : BitVec 64) (last : Bool)

def Sent.beat (p : Parameters) : Sent → Beat
  | .header h alone => ⟨headerBits p.dstMac p.srcMac h,BitVec.allOnes 64,alone,axisUser p⟩
  | .row data keep last => ⟨data,keep,last,axisUser p⟩

def sent (p : Parameters) (e : TxEngine) (x : Inputs) : Option Sent :=
  if !x.axisReady then none
  else
    match e.state with
    | .idle => none
    | .hdr => some (.header (e.header p) (!e.hasPayload))
    | .payload => if e.beatValid then some (.row e.beatData e.axisKeep e.beatLast) else none

theorem sentBeat : (sent p e x).map (Sent.beat p) = e.beatSent p x := by
  cases ready : x.axisReady with
  | false => simp [sent,beatSent,ready]
  | true =>
    cases state : e.state with
    | idle => simp [sent,beatSent,axisValid,state]
    | hdr => simp [sent,beatSent,axisValid,axisData,axisKeep,axisLast,ready,state,Sent.beat]
    | payload =>
      cases held : e.beatValid with
      | false => simp [sent,beatSent,axisValid,state,held]
      | true => simp [sent,beatSent,axisValid,axisData,axisLast,ready,state,held,Sent.beat]

inductive Echo where
  | sof (roundId : BitVec 64) (len : BitVec 16)
  | beat (data : BitVec 512) (last : Bool)
  deriving DecidableEq, Repr

def Sent.echo : Sent → Echo
  | .header h _ => .sof h.roundId h.length
  | .row data _ last => .beat data last

def reported (echo : LocalEcho) : List Echo :=
  (if echo.sof then [.sof echo.roundId echo.len] else []) ++
    if echo.valid then [.beat echo.data echo.last] else []

theorem echoNext (quiet : x.rst = false) :
    reported (e.next p x).echo = ((sent p e x).map Sent.echo).toList := by
  have pulses : reported (e.countPulses x e).echo = [] := by simp [reported,countPulses]
  have load (q : TxEngine) : (e.loadRow x q).echo = q.echo := by
    simp only [loadRow]
    split
    · rfl
    · rfl
  cases state : e.state with
  | idle =>
    have silent : sent p e x = none := by simp [sent,state]
    rw [silent]
    cases begun : e.startAccepted x with
    | true => simp [next,quiet,state,begun,admitFrame,reported,countPulses]
    | false => simpa [next,quiet,state,begun] using pulses
  | hdr =>
    cases ready : x.axisReady with
    | false => simpa [next,quiet,state,ready,sent] using pulses
    | true =>
      cases more : e.hasPayload <;>
        simp [next,quiet,state,ready,sent,headerTaken,more,reported,countPulses,Sent.echo,header]
  | payload =>
    cases taken : (e.beatValid && x.axisReady) with
    | false =>
      have silent : sent p e x = none := by
        cases ready : x.axisReady <;> simp_all [sent]
      rw [silent]
      simpa [next,quiet,state,taken,load] using pulses
    | true =>
      obtain ⟨held,ready⟩ := Bool.and_eq_true_iff.mp taken
      cases last : e.beatLast <;>
        simp [next,quiet,state,held,ready,load,sent,rowTaken,last,reported,countPulses,Sent.echo]

def sentAs (p : Parameters) (moves : List (Move TxEngine Inputs)) : List Sent :=
  moves.filterMap (fun m => sent p m.before m.op)

theorem sentAsBeats : (sentAs p moves).map (Sent.beat p) = sentIn p moves := by
  simp only [sentAs,sentIn,List.map_filterMap,sentBeat]

def Sent.isRow : Sent → Bool
  | .header .. => false
  | .row .. => true

inductive HeaderFirst (h : Header) (e : TxEngine) : List Sent → Prop where
  | waits (state : e.state = .hdr) : HeaderFirst h e []
  | opened {rows : List Sent} (alone : Bool) (state : e.state ≠ .hdr)
      (only : ∀ s ∈ rows, s.isRow = true) : HeaderFirst h e (.header h alone :: rows)

theorem headerOnly (quiet : x.rst = false) (state : e.state = .hdr) :
    x.axisReady = false ∧ sent p e x = none ∧ (e.next p x).state = .hdr ∨
    sent p e x = some (.header (e.header p) (!e.hasPayload)) ∧ (e.next p x).state ≠ .hdr := by
  cases ready : x.axisReady with
  | false =>
    left
    simp [sent,ready,next,quiet,state,countPulses]
  | true =>
    right
    cases more : e.hasPayload <;> simp [sent,ready,next,quiet,state,headerTaken,more]

theorem rowsOnly (quiet : x.rst = false) (state : e.state = .payload) :
    (∀ s ∈ sent p e x, s.isRow = true) ∧ (e.next p x).state ≠ .hdr := by
  constructor
  · intro s member
    cases ready : x.axisReady <;> cases held : e.beatValid <;>
      simp [sent,ready,state,held] at member
    rw [← member]
    rfl
  · simp only [next,quiet,state,Bool.false_eq_true,if_false,loadedState]
    split
    · cases last : e.beatLast <;> simp [rowTaken,last,countPulses,state]
    · simp [countPulses,state]

theorem headerFirst (ran : Ran (system p) (pre ++ start :: inner) e) (begun : admitted start = true)
    (busy : ∀ m ∈ inner, m.before.state ≠ .idle) :
    HeaderFirst (headerOf p start.op) e (sentAs p inner) := by
  induction inner using List.reverseRecOn generalizing e with
  | nil =>
    have sending := ranSending ran begun busy
    cases sending with
    | header state => exact .waits state
  | append_singleton inner last ih =>
    rw [← List.cons_append,← List.append_assoc] at ran
    obtain ⟨before,⟨quiet,after⟩,same⟩ := ranSnoc ran
    have within := fun m member => busy m (List.mem_append_left _ member)
    have grown : sentAs p (inner ++ [last]) =
        sentAs p inner ++ (sent p last.before last.op).toList := filterMapSnoc ..
    have on := busy last (by simp)
    rw [← same,after,grown]
    have earlier := ih before within
    generalize sentAs p inner = sofar at earlier
    cases earlier with
    | waits state =>
      have latched : last.before.header p = headerOf p start.op := by
        have sending := ranSending before begun within
        generalize sentIn p inner = beats at sending
        cases sending with
        | header _ latched => exact latched
        | payload other => cases state.symm.trans other
        | empty other => exact absurd other on
        | sent other => exact absurd other on
      rcases headerOnly quiet state with ⟨_,none,stays⟩ | ⟨header,leaves⟩
      · rw [none]
        exact .waits stays
      · rw [header,latched]
        exact .opened _ leaves (by simp)
    | @opened rows alone state only =>
      have payload : last.before.state = .payload := by
        cases held : last.before.state with
        | idle => exact absurd held on
        | hdr => exact absurd held state
        | payload => rfl
      obtain ⟨row,leaves⟩ := rowsOnly (p := p) quiet payload
      refine @HeaderFirst.opened _ _ (rows ++ (sent p last.before last.op).toList) alone leaves ?_
      intro s member
      rcases List.mem_append.mp member with old | new
      · exact only s old
      · exact row s (Option.mem_toList.mp new)

/- The stream rules, frames that end in their one last beat, and an echo that repeats in
each cycle what was taken in the cycle before. -/
theorem txStream (p : Parameters) :
    (∀ moves e, Ran (system p) moves e → Steady (moves.map (lane p)) ∧
      (sentIn p moves).countP Beat.last + (if e.state = .idle then 0 else 1) = moves.countP admitted ∧
      ∀ m ∈ moves, (sent p m.before m.op).map (Sent.beat p) = (lane p m).taken ∧
        reported m.after.echo = ((sent p m.before m.op).map Sent.echo).toList) ∧
    (∀ pre start inner e, Ran (system p) (pre ++ start :: inner) e → admitted start = true →
      (∀ m ∈ inner, m.before.state ≠ .idle) →
        FrameSoFar e (sentIn p inner) ∧ HeaderFirst (headerOf p start.op) e (sentAs p inner) ∧
          (sentAs p inner).map (Sent.beat p) = sentIn p inner) ∧
    (∀ (e : TxEngine) x, e.state ≠ .idle → e.beatSent p (deaf x) = e.beatSent p x ∧
      (e.next p (deaf x)).uncounted = (e.next p x).uncounted) ∧
    ∀ run : Endless (system p), (∀ n, ∃ k ≥ n, (run.op k).axisReady = true) →
      (∀ n, (∀ k ≥ n, (run.state k).state = .payload) →
        ∃ k ≥ n, takesLast (run.state k) (run.op k) = true) →
      ∀ n, (run.state n).startAccepted (run.op n) = true → ∃ k > n, (run.state k).state = .idle := by
  refine ⟨?_,?_,?_,?_⟩
  · intro moves e ran
    refine ⟨laneSteady ran,lastsCounted ran,?_⟩
    intro m member
    obtain ⟨quiet,after⟩ := ranStep ran member
    rw [laneTaken,after]
    exact ⟨sentBeat,echoNext quiet⟩
  · intro pre start inner e ran begun busy
    exact ⟨frameSoFar ran begun busy,headerFirst ran begun busy,sentAsBeats⟩
  · intro e x busy
    exact busyDeaf busy
  · intro run ready fed n begun
    exact frameCompletes run ready fed begun

theorem soloNarrow : 1 ≤ 8 := by decide

def solo : Parameters := {nodeId := 0, nodeCount := 1, named := Nat.zero_lt_one, narrow := soloNarrow}

-- A frame of one row, held up on its header and on its row.
def soloInputs : List Inputs :=
  [{txStartPulse := true, txWindow := true, txRoundId := 7, bufRdValid := true, bufTxLen := 64},
    {}, {axisReady := true},
    {bufRdData := 5, bufRdValid := true, bufTxLast := true, bufTxLen := 64, txStartPulse := true},
    {txEndPulse := true}, {axisReady := true}, {}]

def soloAt (n : Nat) : Inputs := soloInputs.getD n {axisReady := true}

def soloState : Nat → TxEngine
  | 0 => {}
  | n + 1 => (soloState n).next solo (soloAt n)

theorem soloQuiet (n : Nat) : (soloAt n).rst = false := by
  obtain given | after := Nat.lt_or_ge n 7
  · exact (show ∀ k < 7, (soloAt k).rst = false by decide) n given
  · obtain ⟨k,rfl⟩ := Nat.exists_eq_add_of_le' after
    rfl

theorem soloIdle (k : Nat) : (soloState (k + 7)).state = .idle := by
  induction k with
  | zero => decide +kernel
  | succ k ih =>
    have waits : (soloState (k + 7)).startAccepted (soloAt (k + 7)) = false := rfl
    rw [Nat.succ_add_eq_add_succ,soloState,next,soloQuiet,ih,waits]
    simp [countPulses,ih]

def soloRun : Endless (system solo) where
  state := soloState
  op := soloAt
  start := rfl
  step n := ⟨soloQuiet n,rfl⟩

theorem txStreamOnce : (∃ moves e, play solo soloInputs = .ok (moves,e) ∧
    moves.flatMap (fun m => reported m.after.echo) = [.sof 7 64,.beat 5 true] ∧
    Steady (moves.map (lane solo)) ∧ (sentIn solo moves).countP Beat.last = 1) ∧
    (soloRun.state 0).startAccepted (soloRun.op 0) = true ∧
      ∃ k > 0, (soloRun.state k).state = .idle := by
  have value : (play solo soloInputs).toOption.map (fun result =>
      decide (result.1.flatMap (fun m => reported m.after.echo) = [.sof 7 64,.beat 5 true] ∧
        result.1.countP admitted = 1 ∧ result.2.state = .idle)) = some true := by decide +kernel
  obtain ⟨⟨moves,e⟩,done,found⟩ := okFound value
  obtain ⟨echo,starts,idle⟩ := of_decide_eq_true found
  obtain ⟨steady,lasts,_⟩ := (txStream solo).1 moves e (playRan done)
  rw [if_pos idle,starts] at lasts
  have ready (n : Nat) : ∃ k ≥ n, (soloRun.op k).axisReady = true := ⟨n + 7,Nat.le_add_right n 7,rfl⟩
  have fed (n : Nat) (stays : ∀ k ≥ n, (soloRun.state k).state = .payload) :
      ∃ k ≥ n, takesLast (soloRun.state k) (soloRun.op k) = true := by
    have busy := stays (n + 7) (Nat.le_add_right n 7)
    cases busy.symm.trans (soloIdle n)
  have begun : (soloRun.state 0).startAccepted (soloRun.op 0) = true := by decide +kernel
  exact ⟨⟨moves,e,done,echo,steady,lasts⟩,begun,(txStream solo).2.2.2 soloRun ready fed 0 begun⟩

end TxEngine
end Syncons
