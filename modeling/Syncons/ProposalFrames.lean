import Syncons.ProposalDelivery
import Syncons.TxSlots

/-! The transmit path: the reader fills the proposal buffer, the buffer streams its head slot to
the transmit engine, and the engine frames what it is handed. The reader and the buffer are a
feed of slots of one length, so every payload frame is one fetched entry. -/
namespace Syncons
open Runs
open AxiStream (Frame)
open TxEngine (axisUser)
open SlotFeed (Slot Row Feed tailKeep)

namespace Gathered
variable {α : Type}

def marked : List α → List (α × Bool)
  | [] => []
  | [a] => [(a,true)]
  | a :: b :: rest => (a,false) :: marked (b :: rest)

theorem markedSnoc (part : List α) (a : α) : marked (part ++ [a]) = part.map (·,false) ++ [(a,true)] := by
  induction part with
  | nil => rfl
  | cons b part ih =>
    cases part with
    | nil => rfl
    | cons c part =>
      rw [List.cons_append,List.cons_append,marked,← List.cons_append,ih]
      rfl

theorem markedAt {entry : List α} {a : α} {i : Nat} (there : entry[i]? = some a) :
    ∃ more, marked entry = (entry.take i).map (·,false) ++ (a,decide (i + 1 = entry.length)) :: more := by
  induction entry generalizing i with
  | nil => simp at there
  | cons b entry ih =>
    cases entry with
    | nil =>
      cases i with
      | zero =>
        obtain rfl : b = a := by simpa using there
        exact ⟨[],rfl⟩
      | succ i => simp at there
    | cons c entry =>
      cases i with
      | zero =>
        obtain rfl : b = a := by simpa using there
        exact ⟨marked (c :: entry),by simp [marked]⟩
      | succ i =>
        obtain ⟨more,split⟩ := ih (i := i) (by simpa using there)
        exact ⟨more,by simp [marked,split]⟩

theorem ofBeatsSnoc (beats : List (α × Bool)) (b : α × Bool) :
    ofBeats (beats ++ [b]) = (ofBeats beats).add b := by
  simp [ofBeats]

theorem markedBeats (beats : List (α × Bool)) :
    (ofBeats beats).slots.flatMap marked ++ (ofBeats beats).part.map (·,false) = beats := by
  induction beats using List.reverseRecOn with
  | nil => rfl
  | append_singleton beats b ih =>
    obtain ⟨a,last⟩ := b
    rw [ofBeatsSnoc]
    conv_rhs => rw [← ih]
    cases last with
    | true => simp [add,markedSnoc]
    | false => simp [add]

theorem slotsLength (beats : List (α × Bool)) : (ofBeats beats).slots.length = beats.countP Prod.snd := by
  induction beats using List.reverseRecOn with
  | nil => rfl
  | append_singleton beats b ih =>
    obtain ⟨a,last⟩ := b
    rw [ofBeatsSnoc]
    cases last <;> simp [add,ih]

end Gathered

namespace ProposalPath
open Gathered (marked)

variable {w : Nat} {p : Parameters w} {s : ProposalPath w}
  {moves : List (Move (ProposalPath w) (Inputs w))}

theorem payloadSized (ran : Ran (system p) moves s) :
    ∀ entry ∈ moves.filterMap payload, entry.length = p.buffer.beatCount := by
  intro entry member
  obtain ⟨m,among,paid⟩ := List.mem_filterMap.mp member
  obtain ⟨pre,post,rfl⟩ := List.append_of_mem among
  obtain ⟨before,⟨quiet,engine,after⟩,_⟩ := ranAt ran
  obtain ⟨s,x,s'⟩ := m
  have after : s' = next p s x := after
  subst after
  have coupled := ranCoupled before
  cases status : x.status with
  | none =>
    rw [payload,answeredIs coupled engine,status] at paid
    cases paid
  | some t =>
    have waits := (statusAnswers coupled engine status).1
    rw [payloadIs coupled engine status] at paid
    split at paid
    · rw [slotAtTail coupled waits] at paid
      rw [← Option.some.inj paid]
      exact Rings.slotLength
    · cases paid

theorem streamNext (ran : Ran (system p) moves s) (valid : s.buffer.rdValid = true) :
    ∃ more, (moves.filterMap payload).flatMap marked =
      moves.filterMap streamed ++ (s.buffer.rdData,s.buffer.txLast) :: more := by
  have coupled := ranCoupled ran
  have beats := Gathered.markedBeats (moves.filterMap streamed)
  rw [ranGathered ran] at beats
  cases coupled.streams with
  | idle state index silent command reads => cases valid.symm.trans silent
  | asks state queued index silent command reads addr => cases valid.symm.trans silent
  | fetches state queued index silent command reads => cases valid.symm.trans silent
  | offers state count index _ command reads data last =>
    obtain ⟨others,count⟩ := Nat.exists_eq_add_of_lt count
    rw [Nat.zero_add] at count
    have there : (ProposalBuffer.slotRows p.buffer s.buffer.ram s.buffer.headPtr)[s.buffer.txBeatIndex]? =
        some (ProposalBuffer.current p.buffer s.buffer) := by
      simp [ProposalBuffer.slotRows,Rings.slot,index,ProposalBuffer.current]
    obtain ⟨more,head⟩ := Gathered.markedAt there
    have mark : decide (s.buffer.txBeatIndex + 1 =
        (ProposalBuffer.slotRows p.buffer s.buffer.ram s.buffer.headPtr).length) = s.buffer.txLast := by
      have length : (ProposalBuffer.slotRows p.buffer s.buffer.ram s.buffer.headPtr).length =
          p.buffer.beatCount := Rings.slotLength
      have some := p.buffer.someBeats
      rw [last,length,CommitBuffer.Parameters.lastBeatIndex]
      exact decide_eq_decide.mpr (by omega)
    rw [mark,← data] at head
    rw [← ranQueued ran,queued,ProposalBuffer.held,count,Rings.queuePop coupled.ring.head,
      List.flatMap_append,List.cons_append,List.flatMap_cons,head,← beats,ProposalBuffer.begun]
    exact ⟨_,by rw [List.append_assoc,List.append_assoc,List.cons_append]⟩

end ProposalPath

structure TxPath where
  path : ProposalPath 64
  engine : TxEngine := {}

namespace TxPath

-- The rows are those of the stream to the engine, and so is the width of a length.
structure Parameters where
  path : ProposalPath.Parameters 64
  engine : TxEngine.Parameters
  lenWidth : path.buffer.dmaLenWidth = 16

-- What the wires between the parts carry is not among the inputs: it replaces their values here.
structure Inputs where
  path : ProposalPath.Inputs 64 := {}
  engine : TxEngine.Inputs := {}

variable (p : Parameters) (s : TxPath) (x : Inputs)

def engineInputs : TxEngine.Inputs :=
  { x.engine with
    rst := x.path.rst
    bufRdData := s.path.buffer.rdData
    bufRdValid := s.path.buffer.rdValid
    bufTxLast := s.path.buffer.txLast
    bufTxLen := BitVec.ofNat 16 (ProposalBuffer.txLen p.path.buffer.toParameters) }

def pathInputs : ProposalPath.Inputs 64 :=
  {x.path with rdReady := s.engine.payloadSpace (engineInputs p s x)}

def next : TxPath :=
  { path := ProposalPath.next p.path s.path (pathInputs p s x)
    engine := s.engine.next p.engine (engineInputs p s x) }

def start : TxPath := {path := ProposalPath.start p.path}

-- Cycles after a reset, with a DMA engine that answers and writes for what it has accepted.
def system : System TxPath Inputs where
  start s := s = start p
  step s x s' := (x.path.rst = false ∧ ProposalPath.Engine s.path (pathInputs p s x)) ∧ s' = next p s x

section Views

def pathView (m : Move TxPath Inputs) : Move (ProposalPath 64) (ProposalPath.Inputs 64) :=
  ⟨m.before.path,pathInputs p m.before m.op,m.after.path⟩

def engineView (m : Move TxPath Inputs) : Move TxEngine TxEngine.Inputs :=
  ⟨m.before.engine,engineInputs p m.before m.op,m.after.engine⟩

def fetched (moves : List (Move TxPath Inputs)) : List (List (BitVec 512)) :=
  moves.filterMap (fun m => ProposalPath.payload (pathView p m))

def handedOver (moves : List (Move TxPath Inputs)) : List (BitVec 512 × Bool) :=
  moves.filterMap (fun m => ProposalPath.streamed (pathView p m))

def beatsSent (moves : List (Move TxPath Inputs)) : List Beat :=
  TxEngine.sentIn p.engine (moves.map (engineView p))

end Views

section Slots

variable {p : Parameters} {s : TxPath} {x : Inputs} {m : Move TxPath Inputs}
  {moves : List (Move TxPath Inputs)} {entries : List (List (BitVec 512))}

theorem ranPath (ran : Ran (system p) moves s) :
    Ran (ProposalPath.system p.path) (moves.map (pathView p)) s.path := by
  induction ran with
  | start h =>
    cases h
    exact .start rfl
  | move before h ih =>
    obtain ⟨⟨quiet,engine⟩,rfl⟩ := h
    rw [List.map_append]
    exact .move ih ⟨quiet,engine,rfl⟩

def slotLen (p : Parameters) : BitVec 16 := BitVec.ofNat 16 (ProposalBuffer.txLen p.path.buffer.toParameters)

theorem slotLenIs (p : Parameters) : (slotLen p).toNat = p.path.buffer.slotBytes := by
  have short := p.path.short
  rw [p.lenWidth] at short
  rw [slotLen,BitVec.toNat_ofNat,ProposalBuffer.txLen,p.lenWidth,Nat.mod_mod,Nat.mod_eq_of_lt short]

theorem slotLenSized (p : Parameters) : slotLen p ≠ 0 := by
  intro zero
  have none := slotLenIs p
  rw [zero] at none
  exact p.path.buffer.sized none.symm

theorem tailFull (p : Parameters) : tailKeep (slotLen p) = BitVec.allOnes 64 := by
  have whole : p.path.buffer.beatCount * 64 = p.path.buffer.slotBytes := p.path.buffer.beatsWhole
  have some := p.path.buffer.someBeats
  have full : (p.path.buffer.slotBytes - 1) % 64 + 1 = 64 := by omega
  rw [tailKeep,slotLenIs,full]
  rfl

def entrySlot (p : Parameters) (entry : List (BitVec 512)) : Slot where
  len := slotLen p
  body := entry.dropLast
  final := entry.getLastD 0
  sized := slotLenSized p

def handedRow (p : Parameters) (b : BitVec 512 × Bool) : Row := ⟨b.1,b.2,slotLen p⟩

theorem entryRows {entry : List (BitVec 512)} (filled : entry ≠ []) :
    (entrySlot p entry).rows = (Gathered.marked entry).map (handedRow p) := by
  obtain ⟨part,a,rfl⟩ := List.eq_nil_or_concat entry |>.resolve_left filled
  rw [List.concat_eq_append,Gathered.markedSnoc]
  simp [entrySlot,Slot.rows,Slot.frame,Frame.beats,Slot.row,handedRow,Function.comp_def]

theorem entriesRows (filled : ∀ entry ∈ entries, entry ≠ []) :
    (entries.map (entrySlot p)).flatMap Slot.rows =
      (entries.flatMap Gathered.marked).map (handedRow p) := by
  rw [List.flatMap_map,List.map_flatMap]
  refine List.flatMap_congr ?_
  intro entry member
  exact entryRows (filled entry member)

theorem fetchedSome (ran : Ran (system p) moves s) : ∀ entry ∈ fetched p moves, entry ≠ [] := by
  rintro entry member rfl
  have sized := ProposalPath.payloadSized (ranPath ran) [] (by
    rw [List.filterMap_map]
    exact member)
  exact absurd sized (Nat.ne_of_lt p.path.buffer.someBeats)

-- The reader and the buffer feed the engine with the slots of the entries.
theorem ranFed (ran : Ran (system p) moves s) (later : fetched p moves <+: entries)
    (filled : ∀ entry ∈ entries, entry ≠ []) :
    ∃ fed f, Ran (SlotFeed.system p.engine (entries.map (entrySlot p))) fed f ∧
      fed.map SlotFeed.view = moves.map (engineView p) ∧ f.engine = s.engine ∧
      SlotFeed.rowsTaken fed = (handedOver p moves).map (handedRow p) := by
  induction ran with
  | start h =>
    cases h
    exact ⟨[],_,.start rfl,rfl,rfl,rfl⟩
  | @move moves s x s' before step ih =>
    obtain ⟨⟨quiet,_⟩,rfl⟩ := step
    have grown : fetched p (moves ++ [⟨s,x,next p s x⟩]) = fetched p moves ++
        (ProposalPath.payload (pathView p ⟨s,x,next p s x⟩)).toList := filterMapSnoc ..
    rw [grown] at later
    have earlier := (List.prefix_append _ _).trans later
    obtain ⟨fed,f,fedRan,same,engine,taken⟩ := ih earlier
    have offers : (engineInputs p s x).bufRdValid = true →
        f.left.head? = some (SlotFeed.offered (engineInputs p s x)) := by
      intro valid
      obtain ⟨rest,all⟩ := earlier
      obtain ⟨more,stream⟩ := ProposalPath.streamNext (ranPath before) valid
      rw [List.filterMap_map,List.filterMap_map] at stream
      have rows := (SlotFeed.ranRows fedRan).2
      rw [taken,entriesRows filled,← all,List.flatMap_append,fetched] at rows
      have split : (handedOver p moves).map (handedRow p) ++ f.left =
          (handedOver p moves).map (handedRow p) ++
            ((s.path.buffer.rdData,s.path.buffer.txLast) :: more ++ rest.flatMap Gathered.marked).map
              (handedRow p) := by
        rw [rows,← List.map_append,← List.append_assoc]
        exact congrArg (fun front => (front ++ rest.flatMap Gathered.marked).map (handedRow p)) stream
      rw [List.append_cancel_left split]
      rfl
    refine ⟨fed ++ [⟨f,engineInputs p s x,SlotFeed.next p.engine f (engineInputs p s x)⟩],_,
      .move fedRan ⟨⟨quiet,offers⟩,rfl⟩,?_,?_,?_⟩
    · rw [List.map_append,List.map_append,same]
      simp [SlotFeed.view,engineView,SlotFeed.next,next,engine]
    · simp [SlotFeed.next,next,engine]
    · have row : SlotFeed.rowTaken ⟨f,engineInputs p s x,SlotFeed.next p.engine f (engineInputs p s x)⟩ =
          (ProposalPath.streamed (pathView p ⟨s,x,next p s x⟩)).map (handedRow p) := by
        cases valid : s.path.buffer.rdValid <;>
          simp [SlotFeed.rowTaken,SlotFeed.takes,engine,ProposalPath.streamed,
            ProposalBuffer.streamed,pathView,ProposalPath.bufferInputs,pathInputs,valid,
            engineInputs,SlotFeed.offered,handedRow,slotLen]
      rw [SlotFeed.rowsTaken,filterMapSnoc,row,handedOver,filterMapSnoc,List.map_append]
      rw [SlotFeed.rowsTaken,handedOver] at taken
      rw [taken]
      cases ProposalPath.streamed (pathView p ⟨s,x,next p s x⟩) <;> rfl

end Slots

section Frames

variable {p : Parameters} {s : TxPath} {m start : Move TxPath Inputs}
  {moves pre inner : List (Move TxPath Inputs)}

def entrySent (m : Move TxEngine TxEngine.Inputs) : Bool :=
  SlotFeed.gives m.before m.op && m.before.beatLast

def entriesSent (p : Parameters) (moves : List (Move TxPath Inputs)) : Nat :=
  (moves.map (engineView p)).countP entrySent

def holdsLast (s : TxPath) : Bool := s.engine.beatValid && s.engine.beatLast

theorem slotsSentIs {q : TxEngine.Parameters} {slots : List Slot} {f : Feed}
    {fed : List (Move Feed TxEngine.Inputs)} (ran : Ran (SlotFeed.system q slots) fed f) :
    SlotFeed.slotsSent fed = (fed.map SlotFeed.view).countP entrySent := by
  induction ran with
  | start => rfl
  | @move fed f x f' before step ih =>
    have tracks := SlotFeed.ranTracks before
    rw [List.map_append,List.countP_append,← ih,SlotFeed.slotsSent,SlotFeed.rowsSentSnoc,
      List.countP_append,SlotFeed.slotsSent]
    congr 1
    cases give : SlotFeed.gives f.engine x with
    | false => simp [SlotFeed.rowSent,SlotFeed.view,entrySent,give]
    | true =>
      have valid : f.engine.beatValid = true := by
        simp only [SlotFeed.gives,Bool.and_eq_true] at give
        exact give.1.2
      obtain ⟨r,held⟩ := Option.isSome_iff_exists.mp (tracks.valid.symm.trans valid)
      have last := (tracks.row r held).2
      cases ends : r.last <;>
        simp [SlotFeed.rowSent,SlotFeed.view,entrySent,give,held,last,ends]

structure Whole (p : Parameters) (start : Move TxPath Inputs) (inner : List (Move TxPath Inputs)) :
    Prop where
  admitted : TxEngine.admitted (engineView p start) = true
  busy : ∀ m ∈ inner, m.before.engine.state ≠ .idle
  ends : ∀ m ∈ (start :: inner).getLast?, m.after.engine.state = .idle

def headerFor (p : Parameters) (x : TxEngine.Inputs) (length : BitVec 16) (alone : Bool) : Beat :=
  ⟨headerBits p.engine.dstMac p.engine.srcMac
    ⟨BitVec.ofNat 8 p.engine.nodeId,x.txRow,x.txRunId,x.txRoundId,length⟩,BitVec.allOnes 64,alone,
    axisUser p.engine⟩

def entryFrame (p : Parameters) (x : TxEngine.Inputs) (entry : List (BitVec 512)) : List Beat :=
  headerFor p x (slotLen p) false ::
    (Gathered.marked entry).map (fun b => ⟨b.1,BitVec.allOnes 64,b.2,axisUser p.engine⟩)

/- A frame is the next entry, or, when the buffer offers nothing to a start pulse, a header. -/
inductive Carries (p : Parameters) (moves pre : List (Move TxPath Inputs)) (start : Move TxPath Inputs)
    (inner : List (Move TxPath Inputs)) : Prop where
  | entry (e : List (BitVec 512)) (offers : start.before.path.buffer.rdValid = true)
      (next : (fetched p moves)[entriesSent p pre]? = some e)
      (beats : beatsSent p inner = entryFrame p start.op.engine e)
  | alone (silent : start.before.path.buffer.rdValid = false)
      (beats : beatsSent p inner = [headerFor p start.op.engine 0 true])

structure FramesCarryEntries (p : Parameters) (moves : List (Move TxPath Inputs)) (s : TxPath) :
    Prop where
  frames : ∀ pre start inner post, moves = pre ++ start :: inner ++ post → Whole p start inner →
    Carries p moves pre start inner
  accounted : entriesSent p moves + (if holdsLast s then 1 else 0) +
    (ProposalPath.queued p.path s.path).length = (fetched p moves).length

theorem slotOffered (p : Parameters) (s : TxPath) (x : Inputs) :
    TxEngine.offeredLen (engineInputs p s x) = (if s.path.buffer.rdValid then slotLen p else 0) ∧
      TxEngine.offeredValid (engineInputs p s x) = s.path.buffer.rdValid := by
  have len : TxEngine.offeredLen (engineInputs p s x) = if s.path.buffer.rdValid then slotLen p else 0 :=
    rfl
  refine ⟨len,?_⟩
  rw [TxEngine.offeredValid,len]
  cases valid : s.path.buffer.rdValid with
  | false => simp [engineInputs,valid]
  | true => simpa [engineInputs,valid] using slotLenSized p

theorem headerSpoken (p : Parameters) (s : TxPath) (x : Inputs) :
    TxEngine.headerBeat p.engine (engineInputs p s x) =
      headerFor p x.engine (if s.path.buffer.rdValid then slotLen p else 0) (!s.path.buffer.rdValid) := by
  obtain ⟨len,valid⟩ := slotOffered p s x
  rw [TxEngine.headerBeat,valid,TxEngine.headerOf,len]
  rfl

theorem carriesEntry (ran : Ran (system p) (pre ++ start :: inner) s)
    (begun : TxEngine.admitted (engineView p start) = true)
    (busy : ∀ m ∈ inner, m.before.engine.state ≠ .idle) (ends : s.engine.state = .idle) :
    Carries p (pre ++ start :: inner) pre start inner := by
  obtain ⟨fed,f,fedRan,same,engine,_⟩ := ranFed ran (List.prefix_refl _) (fetchedSome ran)
  rw [List.map_append,List.map_cons] at same
  obtain ⟨fedPre,rest,rfl,before,after⟩ := List.map_eq_append_iff.mp same
  obtain ⟨fedStart,fedInner,rfl,first,inside⟩ := List.map_eq_cons_iff.mp after
  have sent : SlotFeed.slotsSent fedPre = entriesSent p pre := by
    rw [slotsSentIs (ranAt fedRan).1,before,entriesSent]
  have beats : SlotFeed.beatsSent p.engine fedInner = beatsSent p inner := by
    rw [SlotFeed.beatsSent,inside,beatsSent]
  have op : fedStart.op = engineInputs p start.before start.op :=
    congrArg (fun m : Move TxEngine TxEngine.Inputs => m.op) first
  have works : ∀ m ∈ fedInner, m.before.engine.state ≠ .idle := by
    intro m member
    have view : SlotFeed.view m ∈ inner.map (engineView p) := inside ▸ List.mem_map_of_mem member
    obtain ⟨m',among,alike⟩ := List.mem_map.mp view
    have state := busy m' among
    rw [← show (engineView p m').before = m.before.engine from congrArg _ alike]
    exact state
  have framed := SlotFeed.framing fedRan (by rw [first]; exact begun) works (engine ▸ ends)
  cases framed with
  | alone none alone =>
    rw [op,(slotOffered ..).2] at none
    rw [op,headerSpoken,none] at alone
    exact .alone none (beats.symm.trans alone)
  | rows slot rest offers next front rows =>
    rw [op,(slotOffered ..).2] at offers
    rw [sent,List.getElem?_map] at next
    obtain ⟨e,there,rfl⟩ := Option.map_eq_some_iff.mp next
    have filled := fetchedSome ran e (List.mem_of_getElem? there)
    have keep : TxEngine.offeredKeep (engineInputs p start.before start.op) = BitVec.allOnes 64 := by
      rw [SlotFeed.keepOffered offers (slotLenSized p)]
      exact tailFull p
    refine .entry e offers there ?_
    rw [← beats,rows,op,headerSpoken,offers,keep,entryRows filled,List.map_map,entryFrame]
    congr 1
    refine List.map_congr_left ?_
    rintro ⟨data,last⟩ _
    cases last <;> rfl

theorem ranAccounted (ran : Ran (system p) moves s) :
    entriesSent p moves + (if holdsLast s then 1 else 0) + (ProposalPath.queued p.path s.path).length =
      (fetched p moves).length := by
  obtain ⟨fed,f,fedRan,same,engine,taken⟩ := ranFed ran (List.prefix_refl _) (fetchedSome ran)
  have tracks := SlotFeed.ranTracks fedRan
  have path := ranPath ran
  have queue := congrArg List.length (ProposalPath.ranQueued path)
  have popped := congrArg (fun g => g.slots.length) (ProposalPath.ranGathered path)
  simp only [Gathered.slotsLength] at popped
  rw [List.length_append,← popped,List.filterMap_map,List.filterMap_map] at queue
  have rows := congrArg (List.countP Row.last) (SlotFeed.ranRows fedRan).1
  have handed : (SlotFeed.rowsTaken fed).countP Row.last = (handedOver p moves).countP Prod.snd := by
    rw [taken,List.countP_map]
    rfl
  have held : f.held.toList.countP Row.last = if holdsLast s then 1 else 0 := by
    rw [holdsLast,← engine,tracks.valid]
    cases held : f.held with
    | none => rfl
    | some r =>
      have last := (tracks.row r held).2
      cases ends : r.last <;> simp [last,ends]
  rw [List.countP_append,handed,held] at rows
  have sent : (SlotFeed.rowsSent fed).countP Row.last = entriesSent p moves := by
    rw [entriesSent,← same]
    exact slotsSentIs fedRan
  rw [sent] at rows
  rw [rows]
  exact queue

theorem wholeEnds (ran : Ran (system p) (pre ++ start :: inner) s) (whole : Whole p start inner) :
    s.engine.state = .idle := by
  obtain ⟨front,z,last⟩ := List.eq_nil_or_concat (start :: inner) |>.resolve_left (by simp)
  rw [List.concat_eq_append] at last
  rw [last,← List.append_assoc] at ran
  rw [← (ranSnoc ran).2.2]
  refine whole.ends z ?_
  rw [last,List.getLast?_concat]
  rfl

theorem framesCarryEntries (ran : Ran (system p) moves s) : FramesCarryEntries p moves s := by
  refine ⟨?_,ranAccounted ran⟩
  rintro pre start inner post rfl whole
  obtain ⟨s',upTo⟩ := ranPrefix ran
  have carried := carriesEntry upTo whole.admitted whole.busy (wholeEnds upTo whole)
  cases carried with
  | alone silent beats => exact .alone silent beats
  | entry e offers next beats =>
    refine .entry e offers ?_ beats
    rw [fetched,List.filterMap_append]
    exact (List.getElem?_append_left (List.getElem?_eq_some_iff.mp next).1).trans next

end Frames

section Session

variable {p : Parameters} {s : TxPath} {moves : List (Move TxPath Inputs)}

def cycle (p : Parameters) (s : TxPath) (x : Inputs) : Except Unit TxPath :=
  if !x.path.rst && ProposalPath.answersAll s.path (pathInputs p s x) then .ok (next p s x) else .error ()

def play (p : Parameters) (inputs : List Inputs) : Except Unit (List (Move TxPath Inputs) × TxPath) :=
  record (cycle p) inputs (start p)

theorem playRan {inputs : List Inputs} (done : play p inputs = .ok (moves,s)) :
    Ran (system p) moves s := by
  refine recordRan ?_ (.start rfl) done
  intro x _ s s' fits
  cases legal : !x.path.rst && ProposalPath.answersAll s.path (pathInputs p s x) with
  | true =>
    rw [cycle,if_pos legal,Except.ok.injEq] at fits
    simp only [Bool.and_eq_true,Bool.not_eq_true'] at legal
    exact ⟨⟨legal.1,ProposalPath.answersEngine legal.2⟩,fits.symm⟩
  | false =>
    rw [cycle,legal] at fits
    cases fits

theorem twoRowsLimit : 128 ≤ 2 ^ 20 := by decide
theorem twoRowsRound : 128 &&& (128 - 1) = 0 := by decide
theorem twoRowsSized : 128 ≠ 0 := by decide
theorem twoRowsWhole : 128 % 64 = 0 := by decide
theorem twoRowsFit : 128 * 2 ≤ 2 ^ 16 := by decide
theorem twoRowsLong : 128 ≤ 2 ^ 16 := by decide
theorem twoRowsShort : 128 < 2 ^ 16 := by decide
theorem twoPointed : (if 1 < 2 then Nat.clog 2 2 else 1) ≤ 16 := by decide

def twoRows : ProposalPath.Parameters 64 where
  reader := {proposalSlotBytes := 128, limit := twoRowsLimit, binary := twoRowsRound}
  buffer :=
    { slotBytes := 128, slotCount := 2, sized := twoRowsSized, whole := twoRowsWhole,
      binary := twoRowsRound, populated := CommitBuffer.Parameters.twoPopulated,
      round := CommitBuffer.Parameters.twoRound, fits := twoRowsFit, expressible := twoRowsLong,
      pointed := twoPointed }
  sameSlots := rfl
  sameLen := rfl
  several := Nat.le_refl 2
  short := twoRowsShort

def lonely : Parameters := ⟨twoRows,TxEngine.solo,rfl⟩

def silence : Inputs := ⟨{},{}⟩

def hostWrite (addr : BitVec 24) (data : BitVec 32) : List Inputs :=
  [{silence with path := {regWr := some ⟨addr,data⟩}},silence]

def row (r : Nat) (data : BitVec 512) : RamWrite 64 := ⟨r,BitVec.allOnes 64,data⟩

-- A batch of one; its entry waits for a start pulse and is sent with a pause after the header.
def lonelyInputs : List Inputs :=
  hostWrite 0x114 1 ++ hostWrite 0x118 1 ++
    [silence,{silence with path := {descReady := true, ramWrites := [row 0 7]}},
      {silence with path := {status := some ⟨0,0⟩, ramWrites := [row 1 8]}}] ++
    List.replicate 6 silence ++ [{silence with engine := {txStartPulse := true, txWindow := true}},
      {silence with engine := {axisReady := true}}] ++ List.replicate 4 silence ++
    List.replicate 4 {silence with engine := {axisReady := true}}

theorem framesCarryEntriesOnce : ∃ moves s, play lonely lonelyInputs = .ok (moves,s) ∧
    fetched lonely moves = [[7,8]] ∧ entriesSent lonely moves = 1 ∧ FramesCarryEntries lonely moves s := by
  have value : (play lonely lonelyInputs).toOption.map (fun result =>
      decide (fetched lonely result.1 = [[7,8]] ∧ entriesSent lonely result.1 = 1)) = some true := by
    decide +kernel
  obtain ⟨⟨moves,s⟩,done,found⟩ := okFound value
  obtain ⟨entry,sent⟩ := of_decide_eq_true found
  exact ⟨moves,s,done,entry,sent,framesCarryEntries (playRan done)⟩

end Session

end TxPath
end Syncons
