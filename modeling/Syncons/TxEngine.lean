import Syncons.Runs
import Syncons.BitFields

/-! The transmit engine: one header beat for each admitted round start, followed by the
rows of the proposal slot on offer. A frame is a header beat alone, or a header beat and
rows of which only the final one is marked last. -/
namespace Syncons
open Runs
open BitFields (put swapBytes)

section Packet

def ssrEthertype : BitVec 16 := 0x88B5#16

def ssrOffDstMac : Nat := 0
def ssrOffSrcMac : Nat := 6
def ssrOffEthertype : Nat := 12
def ssrOffNodeId : Nat := 14
def ssrOffRow : Nat := 15
def ssrOffRunId : Nat := 16
def ssrOffRoundId : Nat := 20
def ssrOffLength : Nat := 28

def be16 (v : BitVec 16) : BitVec 16 := swapBytes 2 v
def be32 (v : BitVec 32) : BitVec 32 := swapBytes 4 v
def be48 (v : BitVec 48) : BitVec 48 := swapBytes 6 v
def be64 (v : BitVec 64) : BitVec 64 := swapBytes 8 v

structure Header where
  nodeId : BitVec 8
  row : BitVec 8
  runId : BitVec 32
  roundId : BitVec 64
  length : BitVec 16
  deriving DecidableEq, Repr

-- The header beat; the bytes after the length are reserved and zero.
def headerBits (dstMac srcMac : BitVec 48) (h : Header) : BitVec 512 :=
  let bits : BitVec 512 := 0
  let bits := put bits (ssrOffDstMac * 8) (be48 dstMac)
  let bits := put bits (ssrOffSrcMac * 8) (be48 srcMac)
  let bits := put bits (ssrOffEthertype * 8) (be16 ssrEthertype)
  let bits := put bits (ssrOffNodeId * 8) h.nodeId
  let bits := put bits (ssrOffRow * 8) h.row
  let bits := put bits (ssrOffRunId * 8) (be32 h.runId)
  let bits := put bits (ssrOffRoundId * 8) (be64 h.roundId)
  put bits (ssrOffLength * 8) (be16 h.length)

structure Beat where
  data : BitVec 512
  keep : BitVec 64
  last : Bool
  user : BitVec 17
  deriving DecidableEq, Repr

end Packet

inductive TxState where
  | idle | hdr | payload
  deriving DecidableEq, Repr

structure LocalEcho where
  sof : Bool := false
  roundId : BitVec 64 := 0
  len : BitVec 16 := 0
  valid : Bool := false
  data : BitVec 512 := 0
  last : Bool := false
  deriving DecidableEq, Repr

structure TxCounts where
  frame : BitVec 32 := 0
  empty : BitVec 32 := 0
  overrun : BitVec 32 := 0
  missed : BitVec 32 := 0
  lenMismatch : BitVec 32 := 0
  oversize : BitVec 32 := 0
  deriving DecidableEq, Repr

structure TxEngine where
  state : TxState := .idle
  roundId : BitVec 64 := 0
  runId : BitVec 32 := 0
  row : BitVec 8 := 0
  length : BitVec 16 := 0
  hasPayload : Bool := false
  payloadBeats : BitVec 16 := 0
  lastKeep : BitVec 64 := BitVec.allOnes 64
  beatValid : Bool := false
  beatData : BitVec 512 := 0
  beatLast : Bool := false
  beatIndex : BitVec 16 := 0
  echo : LocalEcho := {}
  counts : TxCounts := {}
  deriving DecidableEq, Repr

namespace TxEngine

structure Parameters where
  nodeId : Nat
  nodeCount : Nat
  srcMac : BitVec 48 := 0x020000000000
  dstMac : BitVec 48 := BitVec.allOnes 48
  maxPayloadBytes : Nat := 1024
  txCplTag : BitVec 16 := 0x8000
  named : nodeId < nodeCount
  narrow : nodeCount ≤ 8

structure Inputs where
  rst : Bool := false
  txStartPulse : Bool := false
  txWindow : Bool := false
  txEndPulse : Bool := false
  txRoundId : BitVec 64 := 0
  txRunId : BitVec 32 := 0
  txRow : BitVec 8 := 0
  bufRdData : BitVec 512 := 0
  bufRdValid : Bool := false
  bufTxLast : Bool := false
  bufTxLen : BitVec 16 := 0
  axisReady : Bool := false
  deriving DecidableEq, Repr

def beatBytes : BitVec 16 := 64

section Geometry
variable (x : Inputs)

def offeredLen : BitVec 16 := if x.bufRdValid then x.bufTxLen else 0
def offeredValid : Bool := x.bufRdValid && offeredLen x != 0
def offeredBeats : BitVec 16 := (offeredLen x + beatBytes - 1) / beatBytes
def offeredTail : BitVec 16 := offeredLen x - (offeredBeats x - 1) * beatBytes
def offeredKeep : BitVec 64 := ((1#65 <<< (offeredTail x).toNat) - 1#65).setWidth 64

end Geometry

variable (p : Parameters) (e : TxEngine) (x : Inputs)

def startAccepted : Bool := x.txStartPulse && x.txWindow && e.state = .idle
def startDropped : Bool := x.txStartPulse && !(x.txWindow && e.state = .idle)

def payloadSpace : Bool := e.state = .payload && (!e.beatValid || x.axisReady)

def header : Header := ⟨BitVec.ofNat 8 p.nodeId,e.row,e.runId,e.roundId,e.length⟩

def axisData : BitVec 512 :=
  if e.state = .hdr then headerBits p.dstMac p.srcMac (e.header p) else e.beatData
def axisKeep : BitVec 64 := if e.state = .payload && e.beatLast then e.lastKeep else BitVec.allOnes 64
def axisValid : Bool :=
  match e.state with
  | .hdr => true
  | .payload => e.beatValid
  | .idle => false
def axisLast : Bool := if e.state = .hdr then !e.hasPayload else e.beatLast
def axisUser : BitVec 17 := p.txCplTag ++ 0#1

def beatSent : Option Beat :=
  if e.axisValid && x.axisReady then some ⟨e.axisData p,e.axisKeep,e.axisLast,axisUser p⟩ else none

/- Each block below takes the next values gathered so far and, like a non-blocking
assignment, reads the registers of `e`. -/
def countPulses (q : TxEngine) : TxEngine :=
  { q with
    echo := {q.echo with sof := false, valid := false}
    counts :=
      { q.counts with
        overrun := if x.txEndPulse && e.state ≠ .idle then e.counts.overrun + 1 else e.counts.overrun
        missed := if e.startDropped x then e.counts.missed + 1 else e.counts.missed } }

def admitFrame (q : TxEngine) : TxEngine :=
  { q with
    roundId := x.txRoundId
    runId := x.txRunId
    row := x.txRow
    hasPayload := offeredValid x
    length := offeredLen x
    payloadBeats := offeredBeats x
    lastKeep := offeredKeep x
    counts :=
      { q.counts with
        empty := if offeredValid x then e.counts.empty else e.counts.empty + 1
        oversize :=
          if BitVec.ofNat 16 p.maxPayloadBytes < offeredLen x then e.counts.oversize + 1
          else e.counts.oversize }
    beatIndex := 0
    state := .hdr }

def headerTaken (q : TxEngine) : TxEngine :=
  let q := {q with echo := {q.echo with sof := true, roundId := e.roundId, len := e.length}}
  if e.hasPayload then {q with state := .payload}
  else {q with state := .idle, counts := {q.counts with frame := e.counts.frame + 1}}

def rowTaken (q : TxEngine) : TxEngine :=
  let q := {q with
    beatValid := false
    echo := {q.echo with valid := true, data := e.beatData, last := e.beatLast}}
  if e.beatLast then
    { q with
      state := .idle
      counts :=
        { q.counts with
          lenMismatch :=
            if e.beatIndex ≠ e.payloadBeats - 1 then e.counts.lenMismatch + 1
            else e.counts.lenMismatch
          frame := e.counts.frame + 1 } }
  else {q with beatIndex := e.beatIndex + 1}

def loadRow (q : TxEngine) : TxEngine :=
  if e.payloadSpace x && x.bufRdValid then
    {q with beatData := x.bufRdData, beatLast := x.bufTxLast, beatValid := true}
  else q

def next : TxEngine :=
  if x.rst then {}
  else
    let q := e.countPulses x e
    match e.state with
    | .idle => if e.startAccepted x then e.admitFrame p x q else q
    | .hdr => if x.axisReady then e.headerTaken q else q
    | .payload => e.loadRow x (if e.beatValid && x.axisReady then e.rowTaken q else q)

def system : System TxEngine Inputs where
  start e := e = {}
  step e x e' := x.rst = false ∧ e' = e.next p x

def cycle (e : TxEngine) (x : Inputs) : Except Unit TxEngine :=
  if x.rst then .error () else .ok (e.next p x)

def play (inputs : List Inputs) : Except Unit (List (Move TxEngine Inputs) × TxEngine) :=
  record (cycle p) inputs {}

theorem playRan {p : Parameters} {inputs : List Inputs} {moves : List (Move TxEngine Inputs)}
    {e : TxEngine} (done : play p inputs = .ok (moves,e)) : Ran (system p) moves e := by
  refine recordRan ?_ (.start rfl) done
  intro x _ e e' fits
  cases quiet : x.rst with
  | true => simp [cycle,quiet] at fits
  | false =>
    simp only [cycle,quiet,Bool.false_eq_true,if_false,Except.ok.injEq] at fits
    exact ⟨quiet,fits.symm⟩

section Frame

variable {p : Parameters} {e e' : TxEngine} {x : Inputs} {start m : Move TxEngine Inputs}
  {pre inner : List (Move TxEngine Inputs)}

def sentIn (p : Parameters) (moves : List (Move TxEngine Inputs)) : List Beat :=
  moves.filterMap (fun m => m.before.beatSent p m.op)

def headerOf (p : Parameters) (x : Inputs) : Header :=
  ⟨BitVec.ofNat 8 p.nodeId,x.txRow,x.txRunId,x.txRoundId,offeredLen x⟩

def headerBeat (p : Parameters) (x : Inputs) : Beat :=
  ⟨headerBits p.dstMac p.srcMac (headerOf p x),BitVec.allOnes 64,!offeredValid x,axisUser p⟩

structure Transmission (start : Move TxEngine Inputs) (inner : List (Move TxEngine Inputs))
    (e : TxEngine) : Prop where
  admitted : start.before.startAccepted start.op = true
  busy : ∀ m ∈ inner, m.before.state ≠ .idle
  ends : e.state = .idle

-- What has been sent of the frame, and what the engine still holds of it.
inductive Sending (p : Parameters) (x : Inputs) (e : TxEngine) : List Beat → Prop where
  | header (state : e.state = .hdr) (latched : e.header p = headerOf p x)
      (offers : e.hasPayload = offeredValid x) : Sending p x e []
  | payload {rows : List Beat} (state : e.state = .payload) (offers : offeredValid x = true)
      (more : ∀ row ∈ rows, row.last = false) : Sending p x e (headerBeat p x :: rows)
  | empty (state : e.state = .idle) (none : offeredValid x = false) : Sending p x e [headerBeat p x]
  | sent {rows : List Beat} {last : Beat} (state : e.state = .idle) (offers : offeredValid x = true)
      (more : ∀ row ∈ rows, row.last = false) (ends : last.last = true) :
      Sending p x e (headerBeat p x :: rows ++ [last])

theorem admittedSending (admitted : e.startAccepted x = true) (quiet : x.rst = false) :
    Sending p x (e.next p x) [] := by
  have idle : e.state = .idle := by
    simp only [startAccepted,Bool.and_eq_true,decide_eq_true_eq] at admitted
    exact admitted.2
  have shape : e.next p x = e.admitFrame p x (e.countPulses x e) := by
    simp only [next,quiet,idle,admitted]
    rfl
  rw [shape]
  exact .header rfl rfl rfl

theorem loadedState (q : TxEngine) : (e.loadRow x q).state = q.state := by
  unfold loadRow
  split
  · rfl
  · rfl

theorem stepSending {sent : List Beat} {x₀ : Inputs} (h : Sending p x₀ e sent) (quiet : x.rst = false)
    (busy : e.state ≠ .idle) : Sending p x₀ (e.next p x) (sent ++ (e.beatSent p x).toList) := by
  cases h with
  | header state latched offers =>
    cases ready : x.axisReady with
    | false =>
      have shape : e.next p x = e.countPulses x e := by simp [next,quiet,state,ready]
      have none : e.beatSent p x = none := by simp [beatSent,ready]
      rw [shape,none]
      exact .header state latched offers
    | true =>
      have beat : e.beatSent p x = some (headerBeat p x₀) := by
        simp [beatSent,axisValid,axisData,axisKeep,axisLast,state,ready,latched,offers,headerBeat]
      have shape : e.next p x = e.headerTaken (e.countPulses x e) := by simp [next,quiet,state,ready]
      rw [shape,beat,headerTaken,offers]
      cases held : offeredValid x₀ with
      | false => exact .empty rfl held
      | true => exact @Sending.payload p x₀ _ [] rfl held (by simp)
  | @payload rows state offers more =>
    have shape : e.next p x =
        e.loadRow x (if e.beatValid && x.axisReady then e.rowTaken (e.countPulses x e)
          else e.countPulses x e) := by
      simp [next,quiet,state]
    cases taken : (e.beatValid && x.axisReady) with
    | false =>
      have none : e.beatSent p x = none := by simp [beatSent,axisValid,state,taken]
      have stays : (e.loadRow x (e.countPulses x e)).state = .payload := (loadedState _).trans state
      rw [shape,taken,none]
      simpa using Sending.payload stays offers more
    | true =>
      have beat : e.beatSent p x = some ⟨e.beatData,e.axisKeep,e.beatLast,axisUser p⟩ := by
        simp [beatSent,axisValid,axisData,axisLast,state,taken]
      rw [shape,taken,beat,if_pos rfl]
      cases last : e.beatLast with
      | false =>
        have goes : (e.loadRow x (e.rowTaken (e.countPulses x e))).state = .payload := by
          rw [loadedState]
          simp [rowTaken,last,countPulses,state]
        refine @Sending.payload p x₀ _ (rows ++ [_]) goes offers ?_
        intro row member
        rcases List.mem_append.mp member with old | new
        · exact more row old
        · rw [List.mem_singleton.mp new]
      | true =>
        have stops : (e.loadRow x (e.rowTaken (e.countPulses x e))).state = .idle := by
          rw [loadedState]
          simp [rowTaken,last]
        exact .sent stops offers more rfl
  | empty state none => exact absurd state busy
  | sent state offers more ends => exact absurd state busy

theorem ranSending (ran : Ran (system p) (pre ++ start :: inner) e)
    (admitted : start.before.startAccepted start.op = true)
    (busy : ∀ m ∈ inner, m.before.state ≠ .idle) : Sending p start.op e (sentIn p inner) := by
  induction inner using List.reverseRecOn generalizing e with
  | nil =>
    obtain ⟨_,⟨quiet,after⟩,same⟩ := ranSnoc ran
    rw [← same,after]
    exact admittedSending admitted quiet
  | append_singleton inner last ih =>
    rw [← List.cons_append,← List.append_assoc] at ran
    obtain ⟨before,⟨quiet,after⟩,same⟩ := ranSnoc ran
    have earlier := ih before (fun m member => busy m (List.mem_append_left _ member))
    have step := stepSending earlier quiet (busy last (by simp))
    have grown : sentIn p (inner ++ [last]) =
        sentIn p inner ++ (last.before.beatSent p last.op).toList := filterMapSnoc ..
    rw [← same,after,grown]
    exact step

-- Every frame is a header beat alone, or a header beat and rows ended by their last.
theorem frameShape (ran : Ran (system p) (pre ++ start :: inner) e)
    (whole : Transmission start inner e) :
    offeredValid start.op = false ∧ sentIn p inner = [headerBeat p start.op] ∨
    offeredValid start.op = true ∧ ∃ rows last, sentIn p inner = headerBeat p start.op :: rows ++ [last] ∧
      (∀ row ∈ rows, row.last = false) ∧ last.last = true := by
  have ends := whole.ends
  have sending := ranSending ran whole.admitted whole.busy
  generalize sentIn p inner = sent at sending
  cases sending with
  | header state => cases state.symm.trans ends
  | payload state => cases state.symm.trans ends
  | empty _ none => exact Or.inl ⟨none,rfl⟩
  | sent _ offers more last => exact Or.inr ⟨offers,_,_,rfl,more,last⟩

end Frame
end TxEngine
end Syncons
