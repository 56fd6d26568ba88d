import Syncons.HeaderCodec
import Syncons.WaitingRoom

/-! The receive engine: each whole frame from the MAC is parsed into the first stage, and
in the next cycle the verdict of the core decides whether it is written into the commit
ring. The payload of this node itself comes in beside the wire and waits, one deep, while
a frame of a peer has the write port. -/
namespace Syncons
open Runs
open BitFields (field byteAt)
open BigEndian (readBytes)

def ssrOffPayload : Nat := 64

-- The address of a ring write is the round and the node; `k` is the payload size in bytes.
structure RingWrite (k : Nat) where
  roundId : BitVec 64
  nodeId : BitVec 8
  payload : BitVec (8 * k)
  deriving DecidableEq, Repr

structure RxFrame (k : Nat) where
  nodeId : BitVec 8 := 0
  row : BitVec 8 := 0
  runId : BitVec 32 := 0
  roundId : BitVec 64 := 0
  payload : BitVec (8 * k) := 0
  deriving DecidableEq, Repr

def RxFrame.slot {k : Nat} (f : RxFrame k) : RingWrite k := ⟨f.roundId,f.nodeId,f.payload⟩

structure LocalPayload (k : Nat) where
  roundId : BitVec 64 := 0
  payload : BitVec (8 * k) := 0
  deriving DecidableEq, Repr

structure RxCounts where
  frame : BitVec 32 := 0
  foreign : BitVec 32 := 0
  rejected : BitVec 32 := 0
  localOffers : BitVec 32 := 0
  collision : BitVec 32 := 0
  deriving DecidableEq, Repr

-- The output registers have no value before the first edge, which clears their valid bit.
structure RxEngine (k : Nat) where
  presentValid : Bool := false
  present : RxFrame k := {}
  localPending : Bool := false
  localHeld : LocalPayload k := {}
  ringWrValid : Bool := false
  ringWr : RingWrite k := ⟨0,0,0⟩
  counts : RxCounts := {}
  deriving DecidableEq, Repr

namespace RxEngine

-- Elaboration parameters, with the checks of the `initial` block.
structure Parameters where
  nodeId : Nat
  nodeCount : Nat
  payloadBytes : Nat
  keepWidth : Nat
  fits : ssrOffPayload + payloadBytes ≤ keepWidth
  narrow : nodeCount ≤ 8

structure MacBeat (n : Nat) where
  data : BitVec n
  last : Bool
  bad : Bool
  deriving DecidableEq, Repr

structure Inputs (p : Parameters) where
  rst : Bool := false
  beat : Option (MacBeat (8 * p.keepWidth)) := none
  rxAccepted : Bool := false
  localOffer : Option (LocalPayload p.payloadBytes) := none
  deriving DecidableEq

section Parse
variable {n : Nat} (d : BitVec n)

def rd16 (off : Nat) : BitVec 16 := readBytes d off 2
def rd32 (off : Nat) : BitVec 32 := readBytes d off 4
def rd64 (off : Nat) : BitVec 64 := readBytes d off 8

end Parse

section Step

variable (p : Parameters) (r : RxEngine p.payloadBytes) (x : Inputs p)

def frameIsOurs (b : MacBeat (8 * p.keepWidth)) : Bool :=
  rd16 b.data ssrOffEthertype = ssrEthertype && !b.bad

-- A frame that names this node as its sender is no peer's.
def nodeIdSane (b : MacBeat (8 * p.keepWidth)) : Bool :=
  (byteAt b.data ssrOffNodeId).toNat < p.nodeCount && (byteAt b.data ssrOffNodeId).toNat ≠ p.nodeId

def parsed (b : MacBeat (8 * p.keepWidth)) : RxFrame p.payloadBytes where
  nodeId := byteAt b.data ssrOffNodeId
  row := byteAt b.data ssrOffRow
  runId := rd32 b.data ssrOffRunId
  roundId := rd64 b.data ssrOffRoundId
  payload := field b.data (ssrOffPayload * 8) (8 * p.payloadBytes)

-- The engine is always ready, and looks at the last beat of a frame only.
def beatTaken : Option (MacBeat (8 * p.keepWidth)) := x.beat.filter (fun b => b.last)

def ownNode : BitVec 8 := BitVec.ofNat 8 p.nodeId

def remoteWrites : Bool := r.presentValid && x.rxAccepted

/- Each block takes the next values gathered so far and, like a non-blocking assignment,
reads the registers of `r`. -/
def parse (q : RxEngine p.payloadBytes) : RxEngine p.payloadBytes :=
  match beatTaken p x with
  | none => q
  | some b =>
    if !frameIsOurs p b then {q with counts := {q.counts with foreign := r.counts.foreign + 1}}
    else if !nodeIdSane p b then {q with counts := {q.counts with foreign := r.counts.foreign + 1}}
    else
      { q with
        present := parsed p b
        presentValid := true
        counts := {q.counts with frame := r.counts.frame + 1} }

def judge (q : RxEngine p.payloadBytes) : RxEngine p.payloadBytes :=
  if r.presentValid then
    if x.rxAccepted then {q with ringWrValid := true, ringWr := r.present.slot}
    else {q with counts := {q.counts with rejected := r.counts.rejected + 1}}
  else q

def takeLocal (q : RxEngine p.payloadBytes) : RxEngine p.payloadBytes :=
  match x.localOffer with
  | some l =>
    let q := {q with counts := {q.counts with localOffers := r.counts.localOffers + 1}}
    if remoteWrites p r x then
      { q with
        localPending := true
        localHeld := l
        counts := {q.counts with collision := r.counts.collision + 1} }
    else {q with ringWrValid := true, ringWr := ⟨l.roundId,ownNode p,l.payload⟩}
  | none =>
    if r.localPending && !remoteWrites p r x then
      { q with
        localPending := false
        ringWrValid := true
        ringWr := ⟨r.localHeld.roundId,ownNode p,r.localHeld.payload⟩ }
    else q

def reset (q : RxEngine p.payloadBytes) : RxEngine p.payloadBytes :=
  if x.rst then
    { q with
      presentValid := false
      ringWrValid := false
      ringWr := ⟨0,0,0⟩
      localPending := false
      counts := {} }
  else q

def next : RxEngine p.payloadBytes :=
  let q := parse p r x {r with presentValid := false, ringWrValid := false}
  let q := judge p r x q
  let q := takeLocal p r x q
  reset p x q

end Step

structure Cleared {k : Nat} (r : RxEngine k) : Prop where
  idle : r.presentValid = false
  free : r.localPending = false
  silent : r.ringWrValid = false
  counts : r.counts = {}

theorem powerUpCleared (k : Nat) : ({} : RxEngine k).Cleared := ⟨rfl,rfl,rfl,rfl⟩

theorem resetClears {p : Parameters} {r : RxEngine p.payloadBytes} {x : Inputs p} (held : x.rst = true) :
    (next p r x).Cleared := by
  simp only [next,reset,held,if_true]
  exact ⟨rfl,rfl,rfl,rfl⟩

def system (p : Parameters) : System (RxEngine p.payloadBytes) (Inputs p) where
  start r := r.Cleared
  step r x r' := x.rst = false ∧ r' = next p r x

section Trace

variable (p : Parameters) (r : RxEngine p.payloadBytes) (x : Inputs p)
  (m : Move (RxEngine p.payloadBytes) (Inputs p))

def heardIn : Option (RxFrame p.payloadBytes) :=
  ((beatTaken p x).filter (fun b => frameIsOurs p b && nodeIdSane p b)).map (parsed p)

def ownSlot (l : LocalPayload p.payloadBytes) : RingWrite p.payloadBytes := ⟨l.roundId,ownNode p,l.payload⟩

def verdict : Option (RxFrame p.payloadBytes × Bool) :=
  if r.presentValid then some (r.present,x.rxAccepted) else none

def underway : Option (RxFrame p.payloadBytes) := if r.presentValid then some r.present else none

def waiting : Option (LocalPayload p.payloadBytes) := if r.localPending then some r.localHeld else none

def ringWrite : Option (RingWrite p.payloadBytes) := if r.ringWrValid then some r.ringWr else none

def heard := heardIn p m.op
def judged := verdict p m.before m.op
def written := ringWrite p m.after

def peerWrite : Option (RingWrite p.payloadBytes) :=
  (written p m).filter (fun w => w.nodeId ≠ ownNode p)

def ownWrite : Option (LocalPayload p.payloadBytes) :=
  ((written p m).filter (fun w => w.nodeId = ownNode p)).map (fun w => ⟨w.roundId,w.payload⟩)

def ignored : Bool := (beatTaken p m.op).isSome && (heard p m).isNone

end Trace

variable {p : Parameters} {r r' : RxEngine p.payloadBytes} {x : Inputs p}
  {m : Move (RxEngine p.payloadBytes) (Inputs p)}
  {moves : List (Move (RxEngine p.payloadBytes) (Inputs p))}

/- All that a cycle does: what it takes in, what it writes, what it leaves waiting and
what it counts. -/
structure Cycle (p : Parameters) (r : RxEngine p.payloadBytes) (x : Inputs p)
    (r' : RxEngine p.payloadBytes) : Prop where
  takes : underway p r' = heardIn p x
  writes : ringWrite p r' =
    if remoteWrites p r x then some r.present.slot
    else ((x.localOffer.or (waiting p r)).map (ownSlot p))
  waits : waiting p r' =
    if remoteWrites p r x then x.localOffer.or (waiting p r)
    else if x.localOffer.isSome then waiting p r else none
  frames : r'.counts.frame =
    if (heardIn p x).isSome then r.counts.frame + 1 else r.counts.frame
  foreign : r'.counts.foreign =
    if (beatTaken p x).isSome && (heardIn p x).isNone then r.counts.foreign + 1 else r.counts.foreign
  rejected : r'.counts.rejected =
    if r.presentValid && !x.rxAccepted then r.counts.rejected + 1 else r.counts.rejected
  offers : r'.counts.localOffers =
    if x.localOffer.isSome then r.counts.localOffers + 1 else r.counts.localOffers
  collision : r'.counts.collision =
    if x.localOffer.isSome && remoteWrites p r x then r.counts.collision + 1 else r.counts.collision

structure Parsed (p : Parameters) (r : RxEngine p.payloadBytes) (x : Inputs p)
    (q q' : RxEngine p.payloadBytes) : Prop where
  takes : underway p q' = (heardIn p x).or (underway p q)
  frames : q'.counts.frame =
    if (heardIn p x).isSome then r.counts.frame + 1 else q.counts.frame
  foreign : q'.counts.foreign =
    if (beatTaken p x).isSome && (heardIn p x).isNone then r.counts.foreign + 1 else q.counts.foreign
  others : q' = {q with
    presentValid := q'.presentValid
    present := q'.present
    counts := {q.counts with frame := q'.counts.frame, foreign := q'.counts.foreign}}

theorem parses (q : RxEngine p.payloadBytes) : Parsed p r x q (parse p r x q) := by
  unfold parse
  cases taken : beatTaken p x with
  | none => constructor <;> simp [heardIn,taken]
  | some b =>
    cases ours : frameIsOurs p b with
    | false => constructor <;> simp [heardIn,taken,ours,Option.filter,underway]
    | true =>
      cases sane : nodeIdSane p b with
      | false => constructor <;> simp [heardIn,taken,ours,sane,Option.filter,underway]
      | true => constructor <;> simp [heardIn,taken,ours,sane,Option.filter,underway]

theorem judgesFree (free : remoteWrites p r x = false) (q : RxEngine p.payloadBytes) :
    judge p r x q = {q with
      counts := {q.counts with
        rejected :=
          if r.presentValid && !x.rxAccepted then r.counts.rejected + 1 else q.counts.rejected}} := by
  unfold judge
  cases shown : r.presentValid with
  | false => simp
  | true =>
    have refused : x.rxAccepted = false := by simpa [remoteWrites,shown] using free
    simp [refused]

theorem cycle (quiet : x.rst = false) : Cycle p r x (next p r x) := by
  have first := @parses p r x {r with presentValid := false, ringWrValid := false}
  simp only [next,reset,quiet,Bool.false_eq_true,if_false]
  generalize parse p r x {r with presentValid := false, ringWrValid := false} = q at first
  obtain ⟨takes,frames,foreign,others⟩ := first
  rw [others]
  simp only [underway,Bool.false_eq_true,if_false,Option.or_none] at takes
  cases port : remoteWrites p r x with
  | true =>
    have both := port
    simp only [remoteWrites,Bool.and_eq_true] at both
    cases offer : x.localOffer with
    | none =>
      constructor <;>
        simp [judge,takeLocal,both,port,offer,underway,ringWrite,waiting,takes,frames,foreign]
    | some l =>
      constructor <;>
        simp [judge,takeLocal,both,port,offer,underway,ringWrite,waiting,takes,frames,foreign]
  | false =>
    rw [judgesFree port]
    cases offer : x.localOffer with
    | none =>
      cases held : r.localPending <;> constructor <;>
        simp [takeLocal,port,offer,held,underway,ringWrite,waiting,ownSlot,takes,frames,foreign]
    | some l =>
      constructor <;>
        simp [takeLocal,port,offer,underway,ringWrite,waiting,ownSlot,takes,frames,foreign]

section Peers

def Peer (p : Parameters) (f : RxFrame p.payloadBytes) : Prop :=
  f.nodeId.toNat < p.nodeCount ∧ f.nodeId.toNat ≠ p.nodeId

theorem heardPeer {f : RxFrame p.payloadBytes} (held : heardIn p x = some f) : Peer p f := by
  obtain ⟨b,taken,rfl⟩ := Option.map_eq_some_iff.mp held
  have passes := (Option.filter_eq_some_iff.mp taken).2
  simp only [nodeIdSane,Bool.and_eq_true,decide_eq_true_eq] at passes
  exact passes.2

theorem peerNotOwn {f : RxFrame p.payloadBytes} (named : p.nodeId < p.nodeCount) (peer : Peer p f) :
    f.slot.nodeId ≠ ownNode p := by
  intro same
  have narrow := p.narrow
  have value := congrArg BitVec.toNat same
  simp only [ownNode,BitVec.toNat_ofNat] at value
  rw [Nat.mod_eq_of_lt (by omega)] at value
  exact peer.2 value

theorem ranPeer (ran : Ran (system p) moves r) : ∀ f ∈ underway p r, Peer p f := by
  induction ran with
  | start h => simp [underway,h.idle]
  | move before h ih =>
    obtain ⟨quiet,rfl⟩ := h
    rw [(cycle quiet).takes]
    exact fun f => heardPeer

theorem verdictFrame : (judged p m).map Prod.fst = underway p m.before := by
  cases shown : m.before.presentValid <;> simp [judged,verdict,underway,shown]

theorem peerWrites (named : p.nodeId < p.nodeCount) (peers : ∀ f ∈ underway p m.before, Peer p f)
    (step : (system p).step m.before m.op m.after) :
    peerWrite p m = ((judged p m).filter (·.2)).map (·.1.slot) := by
  obtain ⟨quiet,after⟩ := step
  have does := @cycle p m.before m.op quiet
  rw [← after] at does
  rw [peerWrite,written,does.writes]
  cases port : remoteWrites p m.before m.op with
  | true =>
    simp only [remoteWrites,Bool.and_eq_true] at port
    have peer := peers m.before.present (by simp [underway,port.1])
    simp [judged,verdict,port,Option.filter,peerNotOwn named peer]
  | false =>
    have refused : (judged p m).filter (·.2) = none := by
      cases shown : m.before.presentValid with
      | false => simp [judged,verdict,shown]
      | true =>
        have refused : m.op.rxAccepted = false := by simpa [remoteWrites,shown] using port
        simp [judged,verdict,shown,refused]
    rw [refused]
    cases offer : m.op.localOffer.or (waiting p m.before) <;> simp [ownSlot,Option.filter]

theorem ownWrites (named : p.nodeId < p.nodeCount) (peers : ∀ f ∈ underway p m.before, Peer p f)
    (step : (system p).step m.before m.op m.after) :
    ownWrite p m =
      if remoteWrites p m.before m.op then none else m.op.localOffer.or (waiting p m.before) := by
  obtain ⟨quiet,after⟩ := step
  have does := @cycle p m.before m.op quiet
  rw [← after] at does
  rw [ownWrite,written,does.writes]
  cases port : remoteWrites p m.before m.op with
  | true =>
    simp only [remoteWrites,Bool.and_eq_true] at port
    have peer := peers m.before.present (by simp [underway,port.1])
    simp [Option.filter,peerNotOwn named peer]
  | false =>
    cases offer : m.op.localOffer.or (waiting p m.before) <;> simp [ownSlot,Option.filter]

/- Every frame of a peer gets one verdict, in the cycle after it was heard, and the frames
written under other nodes' ids are those accepted, in this order; the counters agree. -/
structure FramesJudged (p : Parameters) (moves : List (Move (RxEngine p.payloadBytes) (Inputs p)))
    (r : RxEngine p.payloadBytes) : Prop where
  judged : (moves.filterMap (judged p)).map Prod.fst ++ (underway p r).toList = moves.filterMap (heard p)
  written : moves.filterMap (peerWrite p) =
    ((moves.filterMap (RxEngine.judged p)).filter (·.2)).map (·.1.slot)
  frames : r.counts.frame = BitVec.ofNat 32 (moves.filterMap (heard p)).length
  rejected : r.counts.rejected =
    BitVec.ofNat 32 ((moves.filterMap (RxEngine.judged p)).countP (fun j => !j.2))
  foreign : r.counts.foreign = BitVec.ofNat 32 (moves.countP (ignored p))

theorem ranJudged (ran : Ran (system p) moves r) :
    (moves.filterMap (judged p)).map Prod.fst ++ (underway p r).toList = moves.filterMap (heard p) := by
  rw [List.map_filterMap]
  refine ranConserved (fun r => (underway p r).toList) ?_ ?_ ran
  · intro r start
    simp [underway,start.idle]
  · intro pre m _ step
    obtain ⟨quiet,after⟩ := step
    rw [verdictFrame,after,(cycle quiet).takes]
    rfl

theorem framesJudged (named : p.nodeId < p.nodeCount) (ran : Ran (system p) moves r) :
    FramesJudged p moves r := by
  refine ⟨ranJudged ran,?_,?_,?_,?_⟩
  · rw [List.filter_filterMap,List.map_filterMap]
    refine List.filterMap_congr ?_
    intro m member
    obtain ⟨pre,post,rfl⟩ := List.append_of_mem member
    obtain ⟨before,step,_⟩ := ranAt ran
    exact peerWrites named (ranPeer before) step
  · rw [List.length_filterMap_eq_countP]
    refine ranTally (fun r => r.counts.frame) (fun r start => by rw [start.counts]) ?_ ran
    rintro m ⟨quiet,after⟩
    rw [after,(cycle quiet).frames]
    rfl
  · rw [List.countP_filterMap]
    refine ranTally (fun r => r.counts.rejected) (fun r start => by rw [start.counts]) ?_ ran
    rintro m ⟨quiet,after⟩
    rw [after,(cycle quiet).rejected]
    cases shown : m.before.presentValid <;> simp [judged,verdict,shown]
  · refine ranTally (fun r => r.counts.foreign) (fun r start => by rw [start.counts]) ?_ ran
    rintro m ⟨quiet,after⟩
    rw [after,(cycle quiet).foreign]
    rfl

end Peers

section Locals

def offered (m : Move (RxEngine p.payloadBytes) (Inputs p)) : Option (LocalPayload p.payloadBytes) :=
  m.op.localOffer

def crowds (m : Move (RxEngine p.payloadBytes) (Inputs p)) : Bool :=
  (waiting p m.before).isSome && (offered m).isSome

def portCycle (m : Move (RxEngine p.payloadBytes) (Inputs p)) :
    WaitingRoom.Cycle (LocalPayload p.payloadBytes) :=
  ⟨remoteWrites p m.before m.op,offered m⟩

-- The place beside the write port is a waiting room.
theorem ranRoom (named : p.nodeId < p.nodeCount) (ran : Ran (system p) moves r) :
    WaitingRoom.run (moves.map portCycle) = ⟨moves.filterMap (ownWrite p),waiting p r⟩ := by
  induction ran with
  | start h => simp [WaitingRoom.run,waiting,h.free]
  | @move moves r x r' before h ih =>
    have writes := ownWrites named (m := ⟨r,x,r'⟩) (ranPeer before) h
    obtain ⟨quiet,after⟩ := h
    rw [List.map_append,List.map_singleton,WaitingRoom.runSnoc,ih,filterMapSnoc,writes,after,
      (cycle quiet).waits]
    rfl

theorem arrivalsOffered : WaitingRoom.arrivals (moves.map portCycle) = moves.filterMap offered := by
  rw [WaitingRoom.arrivals,List.filterMap_map]
  rfl

theorem roomSpaced (named : p.nodeId < p.nodeCount) (ran : Ran (system p) moves r) :
    WaitingRoom.Spaced (moves.map portCycle) ↔ ∀ m ∈ moves, crowds m = false := by
  constructor
  · intro spaced m member
    obtain ⟨pre,post,rfl⟩ := List.append_of_mem member
    have here := spaced (pre.map portCycle) (portCycle m) (post.map portCycle) (by simp)
    rwa [ranRoom named (ranAt ran).1] at here
  · intro each pre c post split
    obtain ⟨front,rest,whole,rfl,later⟩ := List.map_eq_append_iff.mp split
    obtain ⟨m,post',rfl,rfl,_⟩ := List.map_eq_cons_iff.mp later
    subst whole
    rw [ranRoom named (ranAt ran).1]
    exact each m (by simp)

/- What this node offers: written in order and without a loss if and only if no payload comes
in while another one waits, and never written twice or made up. -/
structure LocalsKept (p : Parameters) (moves : List (Move (RxEngine p.payloadBytes) (Inputs p)))
    (r : RxEngine p.payloadBytes) : Prop where
  order : (moves.filterMap offered).Nodup →
    (moves.filterMap (ownWrite p) ++ (waiting p r).toList = moves.filterMap offered ↔
      ∀ m ∈ moves, crowds m = false)
  genuine : (moves.filterMap (ownWrite p) ++ (waiting p r).toList).Subperm (moves.filterMap offered)
  offers : r.counts.localOffers = BitVec.ofNat 32 (moves.filterMap offered).length
  collisions : r.counts.collision =
    BitVec.ofNat 32 (moves.countP (fun m => (offered m).isSome && remoteWrites p m.before m.op))

theorem localsKept (named : p.nodeId < p.nodeCount) (ran : Ran (system p) moves r) :
    LocalsKept p moves r := by
  have room := ranRoom named ran
  constructor
  case order =>
    intro distinct
    rw [← arrivalsOffered] at distinct
    have iff := WaitingRoom.inOrderIff distinct
    rwa [room,arrivalsOffered,roomSpaced named ran] at iff
  case genuine =>
    have subperm := WaitingRoom.orderSubperm (moves.map portCycle)
    rwa [room,arrivalsOffered] at subperm
  case offers =>
    rw [List.length_filterMap_eq_countP]
    refine ranTally (fun r => r.counts.localOffers) (fun r start => by rw [start.counts]) ?_ ran
    rintro m ⟨quiet,after⟩
    rw [after,(cycle quiet).offers]
    rfl
  case collisions =>
    refine ranTally (fun r => r.counts.collision) (fun r start => by rw [start.counts]) ?_ ran
    rintro m ⟨quiet,after⟩
    rw [after,(cycle quiet).collision]
    rfl

end Locals

section Session

def replay (p : Parameters) (inputs : List (Inputs p)) :
    Except Unit (List (Move (RxEngine p.payloadBytes) (Inputs p)) × RxEngine p.payloadBytes) :=
  record (fun r x => if x.rst then .error () else .ok (next p r x)) inputs {}

theorem replayRan {inputs : List (Inputs p)} (done : replay p inputs = .ok (moves,r)) :
    Ran (system p) moves r := by
  refine recordRan ?_ (.start (powerUpCleared _)) done
  intro x _ r r' fits
  cases quiet : x.rst with
  | true => simp [quiet] at fits
  | false =>
    simp only [quiet,Bool.false_eq_true,if_false,Except.ok.injEq] at fits
    exact ⟨quiet,fits.symm⟩

theorem narrowFits : ssrOffPayload + 1 ≤ 65 := by decide

theorem narrowNodes : 3 ≤ 8 := by decide

def narrowNode : Parameters :=
  { nodeId := 0, nodeCount := 3, payloadBytes := 1, keepWidth := 65
    fits := narrowFits, narrow := narrowNodes }

def wireFrame (node : BitVec 8) (payload : Nat) : MacBeat 520 :=
  ⟨(headerBits 0 0 ⟨node,7,4,9,0⟩).setWidth 520 ||| BitVec.ofNat 520 (payload * 2 ^ 512),true,false⟩

/- Node 1 and 2 are heard, then a frame in the name of node 0 itself; the core accepts the
first of them while this node offers its own payload. -/
def narrowInputs : List (Inputs narrowNode) :=
  [{beat := some (wireFrame 1 0xA1)},
    {beat := some (wireFrame 2 0xA2), rxAccepted := true, localOffer := some ⟨9,0xA0⟩},
    {beat := some (wireFrame 0 0xAF)},{},{localOffer := some ⟨10,0xB0⟩}]

theorem framesJudgedOnce : ∃ moves r, replay narrowNode narrowInputs = .ok (moves,r) ∧
    moves.filterMap (peerWrite narrowNode) = [(⟨9,1,0xA1⟩ : RingWrite narrowNode.payloadBytes)] ∧
      r.counts.foreign = 1 ∧ r.counts.rejected = 1 ∧ FramesJudged narrowNode moves r := by
  have value : (replay narrowNode narrowInputs).toOption.map (fun result =>
      decide (result.1.filterMap (peerWrite narrowNode) =
          [(⟨9,1,0xA1⟩ : RingWrite narrowNode.payloadBytes)] ∧
        result.2.counts.foreign = 1 ∧ result.2.counts.rejected = 1)) = some true := by
    decide +kernel
  obtain ⟨⟨moves,r⟩,done,found⟩ := okFound value
  obtain ⟨written,foreign,rejected⟩ := of_decide_eq_true found
  exact ⟨moves,r,done,written,foreign,rejected,framesJudged (by decide) (replayRan done)⟩

theorem localsKeptOnce : ∃ moves r, replay narrowNode narrowInputs = .ok (moves,r) ∧
    moves.filterMap (ownWrite narrowNode) = [(⟨9,0xA0⟩ : LocalPayload narrowNode.payloadBytes),⟨10,0xB0⟩] ∧
      LocalsKept narrowNode moves r := by
  have value : (replay narrowNode narrowInputs).toOption.map (fun result =>
      decide (result.1.filterMap (ownWrite narrowNode) =
        [(⟨9,0xA0⟩ : LocalPayload narrowNode.payloadBytes),⟨10,0xB0⟩])) = some true := by
    decide +kernel
  obtain ⟨⟨moves,r⟩,done,found⟩ := okFound value
  exact ⟨moves,r,done,of_decide_eq_true found,localsKept (by decide) (replayRan done)⟩

end Session

end RxEngine
end Syncons
