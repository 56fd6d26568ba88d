import Syncons.TxStream
import Syncons.HeaderCodec

/-! The transmit engine fed with slots. A buffer hands over the rows of its slots in order,
when it likes; the engine holds at most one of them. Every payload frame carries the rows
of the next slot. Its header and its last keep are those of the slot that is on offer when
the frame is admitted, which is another one, or none, when a row is held by then. -/
namespace Syncons.SlotFeed
open Runs AxiStream TxEngine

structure Row where
  data : BitVec 512
  last : Bool
  len : BitVec 16
  deriving DecidableEq, Repr

structure Slot where
  len : BitVec 16
  body : List (BitVec 512)
  final : BitVec 512
  sized : len ≠ 0

def Slot.row (s : Slot) (last : Bool) (data : BitVec 512) : Row := ⟨data,last,s.len⟩

def Slot.frame (s : Slot) : Frame Row.last where
  body := s.body.map (s.row false)
  final := s.row true s.final
  runs := by simp [Slot.row]
  ends := rfl

def Slot.rows (s : Slot) : List Row := s.frame.beats

structure Feed where
  engine : TxEngine := {}
  held : Option Row := none
  left : List Row

variable (p : Parameters) (slots : List Slot)

def takes (e : TxEngine) (x : Inputs) : Bool := e.payloadSpace x && x.bufRdValid
def gives (e : TxEngine) (x : Inputs) : Bool := e.state = .payload && e.beatValid && x.axisReady
def offered (x : Inputs) : Row := ⟨x.bufRdData,x.bufTxLast,x.bufTxLen⟩

def next (f : Feed) (x : Inputs) : Feed where
  engine := f.engine.next p x
  held :=
    if takes f.engine x then some (offered x) else if gives f.engine x then none else f.held
  left := if takes f.engine x then f.left.tail else f.left

-- Rows are offered in order, in any cycle.
def system : System Feed Inputs where
  start f := f = {left := slots.flatMap Slot.rows}
  step f x f' := (x.rst = false ∧ (x.bufRdValid = true → f.left.head? = some (offered x))) ∧
    f' = next p f x

variable {p : Parameters} {slots : List Slot} {f f' : Feed} {e : TxEngine} {x : Inputs}
  {m start : Move Feed Inputs} {moves pre inner post : List (Move Feed Inputs)}

def view (m : Move Feed Inputs) : Move TxEngine Inputs := ⟨m.before.engine,m.op,m.after.engine⟩

theorem ranView (ran : Ran (system p slots) moves f) :
    Ran (TxEngine.system p) (moves.map view) f.engine := by
  induction ran with
  | start h =>
    cases h
    exact .start rfl
  | @move moves f x f' before h ih =>
    rw [List.map_append]
    obtain ⟨⟨quiet,_⟩,rfl⟩ := h
    exact .move ih ⟨quiet,rfl⟩

structure Holding (e e' : TxEngine) (x : Inputs) : Prop where
  loads : takes e x = true →
    e'.beatValid = true ∧ e'.beatData = x.bufRdData ∧ e'.beatLast = x.bufTxLast
  clears : takes e x = false → gives e x = true → e'.beatValid = false
  keeps : takes e x = false → gives e x = false →
    e'.beatValid = e.beatValid ∧ e'.beatData = e.beatData ∧ e'.beatLast = e.beatLast

theorem rowTakenValid (q : TxEngine) : (e.rowTaken q).beatValid = false := by
  simp only [rowTaken]
  split
  · rfl
  · rfl

theorem rowLoaded (load : takes e x = true) (q : TxEngine) :
    e.loadRow x q =
      {q with beatData := x.bufRdData, beatLast := x.bufTxLast, beatValid := true} := if_pos load

theorem rowSkipped (load : takes e x = false) (q : TxEngine) : e.loadRow x q = q :=
  if_neg (by simpa [takes] using load)

theorem holding (quiet : x.rst = false) : Holding e (e.next p x) x := by
  cases state : e.state with
  | idle =>
    refine ⟨by simp [takes,payloadSpace,state],by simp [gives,state],?_⟩
    intro _ _
    cases begun : e.startAccepted x <;> simp [TxEngine.next,quiet,state,begun,countPulses,admitFrame]
  | hdr =>
    refine ⟨by simp [takes,payloadSpace,state],by simp [gives,state],?_⟩
    intro _ _
    cases ready : x.axisReady <;> cases more : e.hasPayload <;>
      simp [TxEngine.next,quiet,state,ready,headerTaken,more,countPulses]
  | payload =>
    have shape : e.next p x = e.loadRow x (if e.beatValid && x.axisReady then
        e.rowTaken (e.countPulses x e) else e.countPulses x e) := by
      simp [TxEngine.next,quiet,state]
    rw [shape]
    refine ⟨?_,?_,?_⟩
    · intro load
      rw [rowLoaded load]
      exact ⟨rfl,rfl,rfl⟩
    · intro idle taken
      have taken : (e.beatValid && x.axisReady) = true := by simpa [gives,state] using taken
      rw [rowSkipped idle,if_pos taken,rowTakenValid]
    · intro idle kept
      have kept : (e.beatValid && x.axisReady) = false := by simpa [gives,state] using kept
      rw [rowSkipped idle,kept]
      exact ⟨rfl,rfl,rfl⟩

structure Tracks (f : Feed) : Prop where
  valid : f.engine.beatValid = f.held.isSome
  row : ∀ r ∈ f.held, f.engine.beatData = r.data ∧ f.engine.beatLast = r.last

theorem tracksStep (tracks : Tracks f) (step : (system p slots).step f x f') : Tracks f' := by
  obtain ⟨⟨quiet,_⟩,rfl⟩ := step
  have holding := holding (p := p) (e := f.engine) quiet
  cases load : takes f.engine x with
  | true =>
    obtain ⟨valid,data,last⟩ := holding.loads load
    constructor
    · simpa [next,load] using valid
    · simpa [next,load,offered] using ⟨data,last⟩
  | false =>
    cases give : gives f.engine x with
    | true =>
      have valid := holding.clears load give
      constructor
      · simpa [next,load,give] using valid
      · simp [next,load,give]
    | false =>
      obtain ⟨valid,data,last⟩ := holding.keeps load give
      constructor
      · simpa [next,load,give,valid] using tracks.valid
      · simpa [next,load,give,data,last] using tracks.row

theorem ranTracks (ran : Ran (system p slots) moves f) : Tracks f := by
  refine ranInvariant ?_ (fun _ _ _ tracks step => tracksStep tracks step) ran
  rintro s rfl
  exact ⟨rfl,by simp⟩

def rowSent (m : Move Feed Inputs) : Option Row :=
  if gives m.before.engine m.op then m.before.held else none

def rowTaken (m : Move Feed Inputs) : Option Row :=
  if takes m.before.engine m.op then some (offered m.op) else none

def rowsSent (moves : List (Move Feed Inputs)) : List Row := moves.filterMap rowSent
def rowsTaken (moves : List (Move Feed Inputs)) : List Row := moves.filterMap rowTaken

def slotsSent (moves : List (Move Feed Inputs)) : Nat := (rowsSent moves).countP Row.last

def unsent (f : Feed) : List Row := f.held.toList ++ f.left

theorem rowStep (tracks : Tracks m.before) (step : (system p slots).step m.before m.op m.after) :
    (rowSent m).toList ++ m.after.held.toList = m.before.held.toList ++ (rowTaken m).toList ∧
      (rowTaken m).toList ++ m.after.left = m.before.left := by
  obtain ⟨⟨_,offers⟩,after⟩ := step
  rw [after]
  cases load : takes m.before.engine m.op with
  | true =>
    have space := Bool.and_eq_true_iff.mp load
    obtain ⟨rest,front⟩ := List.head?_eq_some_iff.mp (offers space.2)
    constructor
    · cases give : gives m.before.engine m.op with
      | true => simp [rowSent,rowTaken,next,load,give]
      | false =>
        have empty : m.before.held = none := by
          have free := space.1
          simp only [payloadSpace,Bool.and_eq_true,Bool.or_eq_true,decide_eq_true_eq] at free
          have valid := tracks.valid
          cases held : m.before.held with
          | none => rfl
          | some r =>
            rw [held] at valid
            simp [gives,free.1,valid] at give
            simp [valid,give] at free
        simp [rowSent,rowTaken,next,load,give,empty]
    · simp [rowTaken,next,load,front]
  | false =>
    constructor
    · cases give : gives m.before.engine m.op <;> simp [rowSent,rowTaken,next,load,give]
    · simp [rowTaken,next,load]

theorem ranRows (ran : Ran (system p slots) moves f) :
    rowsSent moves ++ f.held.toList = rowsTaken moves ∧
      rowsTaken moves ++ f.left = slots.flatMap Slot.rows := by
  constructor
  · refine ranConserved (fun f => f.held.toList) ?_ ?_ ran
    · rintro s rfl
      rfl
    · intro pre m before step
      exact (rowStep (ranTracks before) step).1
  · induction ran with
    | start h =>
      cases h
      rfl
    | @move moves f x f' before step ih =>
      have moved := (rowStep (m := ⟨f,x,f'⟩) (ranTracks before) step).2
      rw [← ih,rowsTaken,filterMapSnoc,List.append_assoc,moved]
      rfl

theorem ranUnsent (ran : Ran (system p slots) moves f) :
    rowsSent moves ++ unsent f = (slots.map Slot.frame).flatMap Frame.beats := by
  obtain ⟨taken,all⟩ := ranRows ran
  rw [unsent,← List.append_assoc,taken,all,List.flatMap_map]
  rfl

theorem rowsSentSnoc : rowsSent (moves ++ [m]) = rowsSent moves ++ (rowSent m).toList :=
  filterMapSnoc ..

theorem payloadNext (quiet : x.rst = false) (state : e.state = .payload) :
    (e.next p x).state = if gives e x && e.beatLast then .idle else .payload := by
  have shape : e.next p x = e.loadRow x (if e.beatValid && x.axisReady then
      e.rowTaken (e.countPulses x e) else e.countPulses x e) := by
    simp [TxEngine.next,quiet,state]
  have gives : gives e x = (e.beatValid && x.axisReady) := by simp [SlotFeed.gives,state]
  rw [shape,loadedState,gives]
  cases taken : (e.beatValid && x.axisReady) <;> cases last : e.beatLast <;>
    simp [TxEngine.rowTaken,last,countPulses,state]

theorem givesPayload (give : gives e x = true) : e.state = .payload := by
  simp only [gives,Bool.and_eq_true,decide_eq_true_eq] at give
  exact give.1.1

theorem sentHeld (tracks : Tracks m.before) {r : Row} (sent : rowSent m = some r) :
    gives m.before.engine m.op = true ∧ m.before.held = some r ∧
      m.before.engine.beatData = r.data ∧ m.before.engine.beatLast = r.last := by
  cases give : gives m.before.engine m.op with
  | false => simp [rowSent,give] at sent
  | true =>
    have held : m.before.held = some r := by simpa [rowSent,give] using sent
    exact ⟨rfl,held,tracks.row r held⟩

/- The rows sent are frames, and outside the payload state whole frames. -/
theorem ranFramed (ran : Ran (system p slots) moves f) :
    ∃ frames part, Framed Row.last (rowsSent moves) frames part ∧
      (f.engine.state ≠ .payload → part = []) := by
  induction ran with
  | start h => exact ⟨[],[],framedNothing,fun _ => rfl⟩
  | @move moves f x f' before step ih =>
    obtain ⟨frames,part,framed,whole⟩ := ih
    have tracks := ranTracks before
    obtain ⟨⟨quiet,_⟩,rfl⟩ := step
    rw [rowsSentSnoc]
    cases sent : rowSent ⟨f,x,next p f x⟩ with
    | none =>
      refine ⟨frames,part,by simpa using framed,?_⟩
      intro outside
      refine whole ?_
      intro inside
      have held : gives f.engine x = false := by
        cases give : gives f.engine x with
        | false => rfl
        | true =>
          have valid := tracks.valid
          simp only [gives,Bool.and_eq_true] at give
          simp [rowSent,gives,give.1.1,give.1.2,give.2] at sent
          simp [give.1.2,sent] at valid
      exact outside (by simp [next,payloadNext quiet inside,held])
    | some r =>
      obtain ⟨give,_,_,last⟩ := sentHeld tracks sent
      have inside : f.engine.state = .payload := givesPayload give
      cases ends : r.last with
      | true => exact ⟨_,[],framed.close ends,fun _ => rfl⟩
      | false =>
        refine ⟨frames,part ++ [r],framed.extend ends,?_⟩
        intro outside
        have more : f.engine.beatLast = false := last.trans ends
        exact absurd (by simp [next,payloadNext quiet inside,more]) outside

def rowBeat (p : Parameters) (keep : BitVec 64) (r : Row) : Beat :=
  ⟨r.data,if r.last then keep else BitVec.allOnes 64,r.last,axisUser p⟩

def beatsSent (p : Parameters) (moves : List (Move Feed Inputs)) : List Beat :=
  sentIn p (moves.map view)

theorem beatsSentSnoc : beatsSent p (moves ++ [m]) =
    beatsSent p moves ++ (m.before.engine.beatSent p m.op).toList := by
  rw [beatsSent,List.map_append]
  exact filterMapSnoc ..

-- What is on the wire of the frame that `x` admitted, by the rows it was made of.
structure Said (p : Parameters) (x : Inputs) (f : Feed) (beats : List Beat) (rows : List Row) : Prop where
  keeps : f.engine.state ≠ .idle → f.engine.lastKeep = offeredKeep x
  waits : f.engine.state = .hdr → beats = [] ∧ rows = []
  begun : f.engine.state ≠ .hdr → beats = headerBeat p x :: rows.map (rowBeat p (offeredKeep x))

theorem lastKeepNext (quiet : x.rst = false) (busy : e.state ≠ .idle) :
    (e.next p x).lastKeep = e.lastKeep := by
  cases state : e.state with
  | idle => exact absurd state busy
  | hdr =>
    cases ready : x.axisReady <;> cases more : e.hasPayload <;>
      simp [TxEngine.next,quiet,state,ready,headerTaken,more,countPulses]
  | payload =>
    cases load : takes e x <;> cases taken : (e.beatValid && x.axisReady) <;>
      cases last : e.beatLast <;>
      simp [TxEngine.next,quiet,state,taken,rowLoaded,rowSkipped,load,TxEngine.rowTaken,last,countPulses]

theorem rowSentBeat (tracks : Tracks m.before) (state : m.before.engine.state = .payload) :
    m.before.engine.beatSent p m.op =
      (rowSent m).map (rowBeat p m.before.engine.lastKeep) := by
  cases give : gives m.before.engine m.op with
  | false =>
    have idle : (m.before.engine.beatValid && m.op.axisReady) = false := by
      simpa [gives,state] using give
    simp [rowSent,give,beatSent,axisValid,state,idle]
  | true =>
    have going := give
    simp only [gives,state,decide_true,Bool.true_and,Bool.and_eq_true] at going
    obtain ⟨valid,ready⟩ := going
    obtain ⟨r,held⟩ := Option.isSome_iff_exists.mp (tracks.valid.symm.trans valid)
    obtain ⟨data,last⟩ := tracks.row r held
    simp [rowSent,give,held,beatSent,axisValid,axisData,axisKeep,axisLast,state,valid,ready,data,last,rowBeat]

theorem rowSentOutside (state : m.before.engine.state ≠ .payload) : rowSent m = none := by
  simp [rowSent,gives,state]

theorem startIdle (begun : admitted (view start) = true) : start.before.engine.state = .idle := by
  simp only [admitted,view,startAccepted,Bool.and_eq_true] at begun
  exact of_decide_eq_true begun.2

theorem headerSaid (ran : Ran (system p slots) (pre ++ start :: inner) f)
    (begun : admitted (view start) = true) (busy : ∀ m ∈ inner, m.before.engine.state ≠ .idle)
    (state : f.engine.state = .hdr) {x : Inputs} (ready : x.axisReady = true) :
    f.engine.beatSent p x = some (headerBeat p start.op) := by
  have engine := ranView ran
  rw [List.map_append,List.map_cons] at engine
  have sending := ranSending engine begun (by simpa [view] using busy)
  generalize sentIn p (inner.map view) = beats at sending
  cases sending with
  | header _ latched offers =>
    simp [beatSent,axisValid,axisData,axisKeep,axisLast,state,ready,latched,offers,headerBeat,view]
  | payload other => cases state.symm.trans other
  | empty other => cases state.symm.trans other
  | sent other => cases state.symm.trans other

theorem said (ran : Ran (system p slots) (pre ++ start :: inner) f)
    (begun : admitted (view start) = true) (busy : ∀ m ∈ inner, m.before.engine.state ≠ .idle) :
    Said p start.op f (beatsSent p inner) (rowsSent inner) := by
  induction inner using List.reverseRecOn generalizing f with
  | nil =>
    obtain ⟨_,⟨⟨quiet,_⟩,after⟩,same⟩ := ranSnoc ran
    have idle := startIdle begun
    have begun : start.before.engine.startAccepted start.op = true := begun
    have shape : f.engine = start.before.engine.admitFrame p start.op
        (start.before.engine.countPulses start.op start.before.engine) := by
      rw [← same,after]
      simp [next,TxEngine.next,quiet,idle,begun]
    constructor
    · intro _
      rw [shape]
      rfl
    · intro _
      exact ⟨rfl,rfl⟩
    · intro off
      exact absurd (by rw [shape]; rfl) off
  | append_singleton inner last ih =>
    rw [← List.cons_append,← List.append_assoc] at ran
    obtain ⟨before,⟨⟨quiet,_⟩,after⟩,same⟩ := ranSnoc ran
    have within := fun m member => busy m (List.mem_append_left _ member)
    have earlier := ih before within
    have on := busy last (by simp)
    have state' : f.engine = last.before.engine.next p last.op := by
      rw [← same,after]
      rfl
    have keep := earlier.keeps on
    have keep' : f.engine.lastKeep = offeredKeep start.op := by
      rw [state',lastKeepNext quiet on,keep]
    rw [beatsSentSnoc,rowsSentSnoc]
    cases state : last.before.engine.state with
    | idle => exact absurd state on
    | hdr =>
      obtain ⟨nothing,none⟩ := earlier.waits state
      have silent := rowSentOutside (m := last) (by simp [state])
      rw [nothing,none,silent]
      rcases headerOnly (p := p) quiet state with ⟨waits,_,stays⟩ | ⟨header,leaves⟩
      · have held : last.before.engine.beatSent p last.op = Option.none := by simp [beatSent,waits]
        rw [held]
        exact ⟨fun _ => keep',fun _ => ⟨rfl,rfl⟩,fun off => absurd (state' ▸ stays) off⟩
      · have ready : last.op.axisReady = true := by
          cases ready : last.op.axisReady with
          | true => rfl
          | false => simp [sent,ready] at header
        rw [headerSaid before begun within state ready]
        exact ⟨fun _ => keep',fun on => absurd (state' ▸ on) leaves,fun _ => rfl⟩
    | payload =>
      have onward : f.engine.state ≠ .hdr := by
        rw [state',payloadNext quiet state]
        split <;> decide
      have already := earlier.begun (by simp [state])
      refine ⟨fun _ => keep',fun on => absurd on onward,fun _ => ?_⟩
      rw [already,rowSentBeat (ranTracks before) state,keep]
      cases rowSent last <;> simp

def tailKeep (len : BitVec 16) : BitVec 64 := BitVec.ofNat 64 (2 ^ ((len.toNat - 1) % 64 + 1) - 1)

theorem tailOffered (valid : x.bufRdValid = true) (sized : x.bufTxLen ≠ 0) :
    (offeredTail x).toNat = (x.bufTxLen.toNat - 1) % 64 + 1 := by
  have len : offeredLen x = x.bufTxLen := by simp [offeredLen,valid]
  have positive : x.bufTxLen.toNat ≠ 0 := by
    intro zero
    exact sized (BitVec.eq_of_toNat_eq zero)
  have bound := x.bufTxLen.isLt
  have one : (1 : BitVec 16).toNat = 1 := rfl
  have width : beatBytes.toNat = 64 := rfl
  have beats : (offeredBeats x).toNat = (x.bufTxLen.toNat + 63) % 65536 / 64 := by
    rw [offeredBeats,len,BitVec.toNat_udiv,BitVec.toNat_sub,BitVec.toNat_add,one,width]
    omega
  rw [offeredTail,BitVec.toNat_sub,BitVec.toNat_mul,BitVec.toNat_sub,beats,len,one,width]
  omega

theorem keepOffered (valid : x.bufRdValid = true) (sized : x.bufTxLen ≠ 0) :
    offeredKeep x = tailKeep x.bufTxLen := by
  have tail := tailOffered valid sized
  have short : (offeredTail x).toNat ≤ 64 := by omega
  have power : 2 ^ (offeredTail x).toNat ≤ 2 ^ 64 := Nat.pow_le_pow_right (by decide) short
  have positive : 0 < 2 ^ (offeredTail x).toNat := Nat.two_pow_pos _
  apply BitVec.eq_of_toNat_eq
  rw [offeredKeep,tailKeep,← tail,BitVec.toNat_setWidth,BitVec.toNat_sub,BitVec.toNat_shiftLeft,
    BitVec.toNat_ofNat,BitVec.toNat_ofNat,Nat.shiftLeft_eq]
  generalize 2 ^ (offeredTail x).toNat = n at *
  omega

structure Whole (start : Move Feed Inputs) (inner : List (Move Feed Inputs)) : Prop where
  admitted : admitted (view start) = true
  busy : ∀ m ∈ inner, m.before.engine.state ≠ .idle
  ends : ∀ m ∈ (start :: inner).getLast?, m.after.engine.state = .idle

def slotFrame (p : Parameters) (x : Inputs) (s : Slot) : List Beat :=
  ⟨headerBits p.dstMac p.srcMac {headerOf p x with length := s.len},BitVec.allOnes 64,false,axisUser p⟩ ::
    s.rows.map (rowBeat p (tailKeep s.len))

def emptyFrame (p : Parameters) (x : Inputs) : List Beat :=
  [⟨headerBits p.dstMac p.srcMac {headerOf p x with length := 0},BitVec.allOnes 64,true,axisUser p⟩]

/- The frame of the next slot, or a header alone when there is no row, held or offered. -/
inductive Carries (p : Parameters) (slots : List Slot) (pre : List (Move Feed Inputs))
    (start : Move Feed Inputs) (inner : List (Move Feed Inputs)) : Prop where
  | slot (s : Slot) (next : slots[slotsSent pre]? = some s)
      (beats : beatsSent p inner = slotFrame p start.op s)
  | nothing (held : start.before.held = none) (silent : start.op.bufRdValid = false)
      (beats : beatsSent p inner = emptyFrame p start.op)

structure OneSlotOneFrame (p : Parameters) (slots : List Slot) (moves : List (Move Feed Inputs))
    (f : Feed) : Prop where
  frames : ∀ pre start inner post, moves = pre ++ start :: inner ++ post → Whole start inner →
    Carries p slots pre start inner
  consumed : f.engine.state ≠ .payload →
    rowsTaken moves = (slots.take (slotsSent moves)).flatMap Slot.rows ++ f.held.toList

-- A row that is held when a frame is admitted is of a slot as long as the one on offer.
def Sound (start : Move Feed Inputs) : Prop :=
  ∀ r ∈ start.before.held, start.op.bufRdValid = true ∧ start.op.bufTxLen = r.len

theorem between (ran : Ran (system p slots) moves f) (outside : f.engine.state ≠ .payload) :
    rowsSent moves = (slots.take (slotsSent moves)).flatMap Slot.rows ∧
      unsent f = (slots.drop (slotsSent moves)).flatMap Slot.rows := by
  obtain ⟨frames,part,framed,whole⟩ := ranFramed ran
  cases whole outside
  have count : slotsSent moves = frames.length := framed.count
  have all := ranUnsent ran
  have sent := framed.whole
  rw [List.append_nil] at sent
  rw [sent] at all
  obtain ⟨firsts,others⟩ := framesPrefix all
  rw [count,sent,others]
  constructor
  · conv_lhs => rw [firsts]
    rw [← List.map_take,List.flatMap_map]
    rfl
  · rw [← List.map_drop,List.flatMap_map]
    rfl

theorem frameRows (ran : Ran (system p slots) (pre ++ start :: inner) f)
    (begun : admitted (view start) = true) : unsent start.before = rowsSent inner ++ unsent f := by
  have before := ranUnsent (ranAt ran).1
  have after := ranUnsent ran
  have none : rowSent start = none := rowSentOutside (by simp [startIdle begun])
  have grown : rowsSent (pre ++ start :: inner) = rowsSent pre ++ rowsSent inner := by
    simp [rowsSent,none]
  rw [grown,List.append_assoc] at after
  exact List.append_cancel_left (before.trans after.symm)

theorem frameSlot (ran : Ran (system p slots) (pre ++ start :: inner) f)
    (begun : admitted (view start) = true) {g : Frame Row.last} (rows : rowsSent inner = g.beats) :
    ∃ s rest, slots[slotsSent pre]? = some s ∧ rowsSent inner = s.rows ∧
      unsent start.before = s.rows ++ rest := by
  have before := (between (ranAt ran).1 (by simp [startIdle begun])).2
  have split := frameRows ran begun
  rw [before,rows] at split
  cases others : slots.drop (slotsSent pre) with
  | nil => simp [others,Frame.beats] at split
  | cons s more =>
    rw [others,List.flatMap_cons] at split
    obtain ⟨rfl,_⟩ := frameCancel split
    have next : slots[slotsSent pre]? = some s := by
      have first := @List.getElem?_drop _ slots (slotsSent pre) 0
      rw [others,Nat.add_zero] at first
      exact first.symm
    exact ⟨s,more.flatMap Slot.rows,next,rows,by rw [before,others]; rfl⟩

inductive Framing (p : Parameters) (slots : List Slot) (pre : List (Move Feed Inputs))
    (start : Move Feed Inputs) (inner : List (Move Feed Inputs)) : Prop where
  | alone (none : offeredValid start.op = false) (beats : beatsSent p inner = [headerBeat p start.op])
  | rows (s : Slot) (rest : List Row) (offers : offeredValid start.op = true)
      (next : slots[slotsSent pre]? = some s) (front : unsent start.before = s.rows ++ rest)
      (beats : beatsSent p inner =
        headerBeat p start.op :: s.rows.map (rowBeat p (offeredKeep start.op)))

theorem framing (ran : Ran (system p slots) (pre ++ start :: inner) f)
    (begun : admitted (view start) = true) (busy : ∀ m ∈ inner, m.before.engine.state ≠ .idle)
    (ends : f.engine.state = .idle) : Framing p slots pre start inner := by
  have engine := ranView ran
  rw [List.map_append,List.map_cons] at engine
  have said := (said ran begun busy).begun (by simp [ends])
  rcases frameShape engine ⟨begun,by simpa [view] using busy,ends⟩ with
    ⟨none,beats⟩ | ⟨offers,rows,last,beats,more,final⟩
  · exact .alone none beats
  · have same := said.symm.trans beats
    rw [List.cons_append] at same
    obtain ⟨front,back,split,firsts,lasts⟩ := List.map_eq_append_iff.mp (List.cons.inj same).2
    obtain ⟨r,rfl,rfl⟩ := List.map_eq_singleton_iff.mp lasts
    have runs : ∀ b ∈ front, b.last = false := by
      intro b member
      rw [← firsts] at more
      exact more (rowBeat p _ b) (List.mem_map_of_mem member)
    obtain ⟨s,rest,next,rowsOf,unsent⟩ := frameSlot (g := ⟨front,r,runs,final⟩) ran begun split
    rw [rowsOf] at said
    exact .rows s rest offers next unsent said

theorem rowLen {s : Slot} {r : Row} (member : r ∈ s.rows) : r.len = s.len := by
  rcases List.mem_append.mp member with body | final
  · obtain ⟨data,_,rfl⟩ := List.mem_map.mp body
    rfl
  · rw [List.mem_singleton.mp final]
    rfl

theorem frontLen {s : Slot} {r : Row} {others rest : List Row} (front : r :: others = s.rows ++ rest) :
    r.len = s.len := by
  obtain ⟨tail,first⟩ := s.frame.firstIs
  have rows : s.rows = s.frame.first :: tail := first
  rw [rows] at front
  rw [(List.cons.inj front).1]
  exact rowLen (by simp [rows])

theorem offeredSized (ran : Ran (system p slots) moves f)
    (offers : x.bufRdValid = true → f.left.head? = some (offered x)) (valid : x.bufRdValid = true) :
    x.bufTxLen ≠ 0 := by
  have among : offered x ∈ slots.flatMap Slot.rows := by
    rw [← (ranRows ran).2]
    exact List.mem_append_right _ (List.mem_of_mem_head? (offers valid))
  obtain ⟨s,_,member⟩ := List.mem_flatMap.mp among
  have len : x.bufTxLen = s.len := rowLen member
  rw [len]
  exact s.sized

theorem headerLength {h h' : Header} {dstMac srcMac : BitVec 48}
    (same : headerBits dstMac srcMac h = headerBits dstMac srcMac h') : h.length = h'.length := by
  have read := congrArg HeaderCodec.readHeader same
  rw [HeaderCodec.readWritten,HeaderCodec.readWritten] at read
  rw [read]

theorem carriesIff (ran : Ran (system p slots) (pre ++ start :: inner) f)
    (begun : admitted (view start) = true) (busy : ∀ m ∈ inner, m.before.engine.state ≠ .idle)
    (ends : f.engine.state = .idle) : Carries p slots pre start inner ↔ Sound start := by
  obtain ⟨before,⟨⟨_,offers⟩,_⟩,_⟩ := ranAt ran
  have framed := framing ran begun busy ends
  constructor
  · intro carries r held
    cases carries with
    | slot s next beats =>
      cases framed with
      | alone none alone => simp [alone,slotFrame,Slot.rows,Frame.beats] at beats
      | rows s' rest offersLen next' front beats' =>
        cases Option.some.inj (next.symm.trans next')
        have header := (List.cons.inj (beats'.symm.trans beats)).1
        have length : offeredLen start.op = s.len :=
          headerLength (Beat.mk.inj header).1
        have valid := (Bool.and_eq_true_iff.mp offersLen).1
        rw [unsent,Option.mem_def.mp held] at front
        refine ⟨valid,?_⟩
        rw [frontLen front,← length]
        simp [offeredLen,valid]
    | nothing none => simp [none] at held
  · intro sound
    cases framed with
    | alone none alone =>
      have silent : start.op.bufRdValid = false := by
        cases valid : start.op.bufRdValid with
        | false => rfl
        | true =>
          have sized := offeredSized before offers valid
          simp only [offeredValid,offeredLen,valid,Bool.true_and,if_true,bne_eq_false_iff_eq] at none
          exact absurd none sized
      have empty : start.before.held = Option.none := by
        cases held : start.before.held with
        | none => rfl
        | some r => cases silent.symm.trans (sound r held).1
      refine .nothing empty silent ?_
      rw [alone,emptyFrame,headerBeat,none,headerOf]
      simp [offeredLen,silent]
    | rows s rest offersLen next front beats =>
      have valid := (Bool.and_eq_true_iff.mp offersLen).1
      have length : start.op.bufTxLen = s.len := by
        cases held : start.before.held with
        | some r =>
          rw [unsent,held] at front
          rw [(sound r held).2,frontLen front]
        | none =>
          obtain ⟨others,left⟩ := List.head?_eq_some_iff.mp (offers valid)
          rw [unsent,held,left] at front
          exact frontLen front
      refine .slot s next ?_
      have sized : start.op.bufTxLen ≠ 0 := length ▸ s.sized
      have len : offeredLen start.op = s.len := by simp [offeredLen,valid,length]
      rw [beats,slotFrame,keepOffered valid sized,length,headerBeat,offersLen,headerOf,len]
      rfl

/- Each frame carries one slot, and each slot is in one frame, if and only if no frame is
admitted while a row is held of a slot that is not as long as the one on offer. -/
theorem oneSlotOneFrame (ran : Ran (system p slots) moves f) : OneSlotOneFrame p slots moves f ↔
    ∀ pre start inner post, moves = pre ++ start :: inner ++ post → Whole start inner →
      Sound start := by
  have each (pre start inner post) (split : moves = pre ++ start :: inner ++ post)
      (whole : Whole start inner) : Carries p slots pre start inner ↔ Sound start := by
    rw [split] at ran
    obtain ⟨f',upTo⟩ := ranPrefix ran
    have ends : f'.engine.state = .idle := by
      rcases List.eq_nil_or_concat (start :: inner) with none | ⟨front,z,last⟩
      · simp at none
      · rw [List.concat_eq_append] at last
        rw [last,← List.append_assoc] at upTo
        rw [← (ranSnoc upTo).2.2]
        exact whole.ends z (by rw [last,List.getLast?_concat]; rfl)
    exact carriesIff upTo whole.admitted whole.busy ends
  constructor
  · intro one pre start inner post split whole
    exact (each pre start inner post split whole).mp (one.frames pre start inner post split whole)
  · intro sound
    constructor
    · intro pre start inner post split whole
      exact (each pre start inner post split whole).mpr (sound pre start inner post split whole)
    · intro outside
      rw [← (between ran outside).1]
      exact (ranRows ran).1.symm

def clear (m : Move Feed Inputs) : Bool :=
  !(gives m.before.engine m.op && m.before.engine.beatLast && m.op.bufRdValid)

theorem clearHeld (ran : Ran (system p slots) moves f) (clears : ∀ m ∈ moves, clear m = true) :
    f.engine.state ≠ .payload → f.held = none := by
  induction ran with
  | start h =>
    cases h
    exact fun _ => rfl
  | @move moves f x f' before step ih =>
    have earlier := ih (fun m member => clears m (List.mem_append_left _ member))
    have this := clears ⟨f,x,f'⟩ (by simp)
    obtain ⟨⟨quiet,_⟩,rfl⟩ := step
    intro outside
    by_cases inside : f.engine.state = .payload
    · have ends : (gives f.engine x && f.engine.beatLast) = true := by
        by_contra goes
        exact outside (by simp [next,payloadNext quiet inside,goes])
      have silent : x.bufRdValid = false := by simpa [clear,ends] using this
      have give := (Bool.and_eq_true_iff.mp ends).1
      simp [next,takes,silent,give]
    · simp [next,takes,payloadSpace,gives,inside,earlier inside]

theorem clearSound (ran : Ran (system p slots) moves f) (clears : ∀ m ∈ moves, clear m = true)
    (member : m ∈ moves) (begun : admitted (view m) = true) : Sound m := by
  obtain ⟨pre,post,rfl⟩ := List.append_of_mem member
  have none := clearHeld (ranAt ran).1 (fun x within => clears x (List.mem_append_left _ within))
    (by simp [startIdle begun])
  simp [Sound,none]

def cycle (p : Parameters) (f : Feed) (x : Inputs) : Except Unit Feed :=
  if x.rst = false ∧ (x.bufRdValid = true → f.left.head? = some (offered x)) then .ok (next p f x)
  else .error ()

def play (p : Parameters) (slots : List Slot) (inputs : List Inputs) :
    Except Unit (List (Move Feed Inputs) × Feed) :=
  record (cycle p) inputs {left := slots.flatMap Slot.rows}

theorem playRan {inputs : List Inputs} (done : play p slots inputs = .ok (moves,f)) :
    Ran (system p slots) moves f := by
  refine recordRan ?_ (.start rfl) done
  intro x _ f f' took
  simp only [cycle] at took
  split at took
  · cases took
    exact ⟨by assumption,rfl⟩
  · cases took

def shortSlot : Slot := ⟨64,[],1,by decide⟩
def longSlot : Slot := ⟨70,[2],3,by decide⟩

def start_ : Inputs := {txStartPulse := true, txWindow := true}
def offering (x : Inputs) (r : Row) : Inputs :=
  {x with bufRdValid := true, bufRdData := r.data, bufTxLast := r.last, bufTxLen := r.len}

def spacedInputs : List Inputs :=
  [offering start_ ⟨1,true,64⟩,{axisReady := true},offering {} ⟨1,true,64⟩,{axisReady := true},
    offering start_ ⟨2,false,70⟩,{axisReady := true},offering {} ⟨2,false,70⟩,
    offering {axisReady := true} ⟨3,true,70⟩,{axisReady := true}]

theorem oneSlotOneFrameOnce : ∃ moves f, play solo [shortSlot,longSlot] spacedInputs = .ok (moves,f) ∧
    slotsSent moves = 2 ∧ OneSlotOneFrame solo [shortSlot,longSlot] moves f := by
  have value : (play solo [shortSlot,longSlot] spacedInputs).toOption.map (fun result =>
      decide (slotsSent result.1 = 2 ∧ ∀ m ∈ result.1, clear m = true)) = some true := by
    decide +kernel
  obtain ⟨⟨moves,f⟩,done,found⟩ := okFound value
  obtain ⟨sent,clears⟩ := of_decide_eq_true found
  have ran := playRan done
  refine ⟨moves,f,done,sent,(oneSlotOneFrame ran).mpr ?_⟩
  rintro pre start inner post rfl whole
  exact clearSound ran clears (by simp) whole.admitted

def bufferLane (m : Move Feed Inputs) : LinkCycle Row where
  offer := if m.op.bufRdValid then some (offered m.op) else none
  ready := m.before.engine.payloadSpace m.op

def crowdedInputs : List Inputs :=
  [offering start_ ⟨1,true,64⟩,offering {axisReady := true} ⟨1,true,64⟩,offering {} ⟨1,true,64⟩,
    offering {axisReady := true} ⟨1,true,64⟩,start_,{axisReady := true}]

/- Two slots of one row each: the second row moves up as the first leaves, and the frame
that is admitted next is a header alone. -/
theorem headerWhileHeld : ∃ moves f, Ran (system solo [shortSlot,shortSlot]) moves f ∧
    Steady (moves.map bufferLane) ∧ ¬ OneSlotOneFrame solo [shortSlot,shortSlot] moves f := by
  have value : (play solo [shortSlot,shortSlot] crowdedInputs).toOption.map (fun result =>
      decide (Steady (result.1.map bufferLane)) &&
        (Runs.cut 4 result.1).any (fun (_,start,inner) =>
          admitted (view start) && inner.all (fun m => m.before.engine.state ≠ .idle) &&
            (start :: inner).getLast?.all (fun m => m.after.engine.state = .idle) &&
            start.before.held.isSome && (beatsSent solo inner).length = 1)) = some true := by
    decide +kernel
  obtain ⟨⟨moves,f⟩,done,found⟩ := okFound value
  simp only [Bool.and_eq_true,decide_eq_true_eq] at found
  obtain ⟨steady,found⟩ := found
  obtain ⟨⟨pre,start,inner⟩,place,found⟩ := (Option.any_eq_true _ _).mp found
  simp only [Bool.and_eq_true,decide_eq_true_eq,List.all_eq_true] at found
  obtain ⟨⟨⟨⟨begun,busy⟩,ends⟩,held⟩,alone⟩ := found
  refine ⟨moves,f,playRan done,steady,?_⟩
  intro one
  have split : moves = pre ++ start :: inner ++ [] := by simpa using cutIs place
  have whole : Whole start inner :=
    ⟨begun,busy,fun m last => of_decide_eq_true ((Option.all_eq_true _ _).mp ends m last)⟩
  cases one.frames pre start inner [] split whole with
  | slot s next beats => simp [beats,slotFrame,Slot.rows,Frame.beats] at alone
  | nothing none => simp [none] at held

end Syncons.SlotFeed
