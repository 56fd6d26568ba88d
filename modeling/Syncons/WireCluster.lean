import Syncons.RxStation
import Syncons.CoreAgreement
import Syncons.TxEngine

/-! Cores behind their engines on a wire. Each core has a transmit engine that latches its
row at the start pulse, and a receive engine that shows it what comes off the wire; seen
core by core this is the deployment over the abstract network, in which a core is shown
only rows that were announced. -/
namespace Syncons
open Runs
open BitFields (field byteAt fieldGet)
open BigEndian (readBytes readSwapped)
open ConsensusCore (Core Bench RxRow FaultFree Deployment Fabric deployed emitted frame)

structure WireSite where
  station : RxStation.Parameters
  tx : TxEngine.Parameters
  sameNode : tx.nodeId = station.core.nodeId

structure WirePlant where
  nodeCount : Nat
  site : Nat → WireSite
  counted : ∀ i, (site i).station.core.nodeCount = nodeCount
  identified : ∀ i, i < nodeCount → (site i).station.core.nodeId = i

namespace ConsensusCore

-- Two quorums for one round share a core, and that core speaks for the round once.
theorem backedAgree {d : Deployment} {moves : List (Move Fabric (Nat × Inputs))} {f : Fabric}
    {i j : Nat} {a b : Move Bench Inputs} {r : BitVec 64} (ran : Ran (deployed d) moves f)
    (straight : ∀ k, ∃ epoch, Unwrapped (d.core k) epoch (parts k moves)) (left : a ∈ parts i moves)
    (right : b ∈ parts j moves) (held : committed a = some r) (held' : committed b = some r) :
    a.after.core.protocol.commitSet = b.after.core.protocol.commitSet ∧
      a.after.core.protocol.currentRunId = b.after.core.protocol.currentRunId := by
  obtain ⟨voters,backed⟩ := commitBacked ran left held
  obtain ⟨voters',backed'⟩ := commitBacked ran right held'
  obtain ⟨k,once,twice⟩ :=
    quorumsMeet (by omega) backed.inside backed'.inside backed.quorum backed'.quorum
  obtain ⟨row,voice,set⟩ := backed.spoken k once
  obtain ⟨row',voice',set'⟩ := backed'.spoken k twice
  obtain ⟨epoch,unwrapped⟩ := straight k
  obtain ⟨run,same⟩ := (ranVoiced (partsRan k ran) unwrapped).once _ _ _ _ _ voice voice'
  have mask : (d.core i).memberMask = (d.core j).memberMask := by simp only [Parameters.memberMask,d.counted]
  exact ⟨by rw [← set,← set',same,mask],run⟩

end ConsensusCore

namespace TxEngine

def headerSent (p : Parameters) (e : TxEngine) (x : Inputs) : Option (BitVec 512) :=
  if e.state = .hdr && x.axisReady then some (e.axisData p) else none

def announces (p : Parameters) (e : TxEngine) : RxRow := ⟨BitVec.ofNat 8 p.nodeId,e.row,e.runId,e.roundId⟩

variable {p : Parameters} {e : TxEngine} {x : Inputs}

theorem announcesKept (quiet : x.rst = false) (busy : e.state ≠ .idle) :
    (e.next p x).announces p = e.announces p := by
  cases state : e.state with
  | idle => exact absurd state busy
  | hdr =>
    cases ready : x.axisReady <;> cases more : e.hasPayload <;>
      simp [announces,next,quiet,state,ready,headerTaken,more,countPulses]
  | payload =>
    cases load : (e.payloadSpace x && x.bufRdValid) <;> cases taken : (e.beatValid && x.axisReady) <;>
      cases last : e.beatLast <;>
      simp [announces,next,quiet,state,taken,loadRow,load,rowTaken,last,countPulses]

theorem announcesNext (busy : (e.next p x).state ≠ .idle) :
    e.state ≠ .idle ∧ (e.next p x).announces p = e.announces p ∨
      x.txStartPulse = true ∧
        (e.next p x).announces p = ⟨BitVec.ofNat 8 p.nodeId,x.txRow,x.txRunId,x.txRoundId⟩ := by
  cases quiet : x.rst with
  | true => simp [next,quiet] at busy
  | false =>
    by_cases idle : e.state = .idle
    · right
      cases starts : e.startAccepted x with
      | false => simp [next,quiet,idle,starts,countPulses] at busy
      | true =>
        have pulse : x.txStartPulse = true := by
          simp only [startAccepted,Bool.and_eq_true] at starts
          exact starts.1.1
        have shape : e.next p x = e.admitFrame p x (e.countPulses x e) := by
          simp only [next,quiet,idle,starts]
          rfl
        rw [shape]
        exact ⟨pulse,rfl⟩
    · exact Or.inl ⟨idle,announcesKept quiet idle⟩

end TxEngine

namespace WirePlant

variable (d : WirePlant)

structure Node (i : Nat) where
  station : RxStation (d.site i).station.engine.payloadBytes
  tx : TxEngine := {}

structure Inputs (i : Nat) where
  station : RxStation.Inputs (d.site i).station
  tx : TxEngine.Inputs := {}

/- The header beats that were handed over to the wire so far. `announced` is kept for the
statements only: the rows of all start pulses so far. -/
structure State where
  nodes : (i : Nat) → Node d i
  wire : List (BitVec 512) := []
  announced : List RxRow := []

variable {d}

section Wiring

variable {i : Nat} (n : Node d i) (x : Inputs d i)

def core : Core := n.station.bench.core

def txInputs : TxEngine.Inputs :=
  { x.tx with
    rst := x.station.core.rst
    txStartPulse := (core n).oTxStartPulse
    txWindow := (core n).oTxWindow
    txRoundId := (core n).protocol.txRoundId
    txRunId := (core n).protocol.txRunId
    txRow := (core n).protocol.txRow }

def headerSent : Option (BitVec 512) := n.tx.headerSent (d.site i).tx (txInputs n x)

def next : Node d i :=
  ⟨RxStation.next (d.site i).station n.station x.station,n.tx.next (d.site i).tx (txInputs n x)⟩

end Wiring

abbrev Op (d : WirePlant) := Σ i, Inputs d i

variable {w w' : State d} {op : Op d} {m : Move (State d) (Op d)} {moves pre post : List (Move (State d) (Op d))}
  {i j : Nat}

/- A frame of the protocol's type that arrives whole and unmarked begins with a header beat
that was on the wire before; it may be late, or come again. -/
def Delivers (w : State d) (op : Op d) : Prop :=
  ∀ b, op.2.station.beat = some b → b.last = true →
    RxEngine.frameIsOurs (d.site op.1).station.engine b = true → b.data.setWidth 512 ∈ w.wire

def after (w : State d) (op : Op d) : State d where
  nodes := Function.update w.nodes op.1 (next (w.nodes op.1) op.2)
  wire := w.wire ++ (headerSent (w.nodes op.1) op.2).toList
  announced := w.announced ++ emitted op.1 (core (w.nodes op.1))

def system (d : WirePlant) : System (State d) (Op d) where
  start w := (∀ i, (w.nodes i).station.bench = ⟨ConsensusCore.powerUp (d.site i).station.core,none⟩ ∧
    (w.nodes i).station.engine.Cleared ∧ (w.nodes i).tx = {}) ∧ w.wire = [] ∧ w.announced = []
  step w op w' := op.1 < d.nodeCount ∧
    FaultFree (d.site op.1).station.core (w.nodes op.1).station.bench.now op.2.station.core ∧
    Delivers w op ∧ w' = after w op

section Abstraction

def deployment (d : WirePlant) : Deployment :=
  ⟨d.nodeCount,fun i => (d.site i).station.core,d.counted,d.identified⟩

def fabric (w : State d) : Fabric := ⟨fun i => (w.nodes i).station.bench,w.announced⟩

def coreInputs (w : State d) (op : Op d) : ConsensusCore.Inputs :=
  RxStation.coreInputs (d.site op.1).station (w.nodes op.1).station op.2.station

def coresOnly (m : Move (State d) (Op d)) : Move Fabric (Nat × ConsensusCore.Inputs) :=
  ⟨fabric m.before,(m.op.1,coreInputs m.before m.op),fabric m.after⟩

theorem fabricNext : fabric (after w op) =
    ⟨Function.update (fabric w).benches op.1
        ⟨((fabric w).benches op.1).core.next (d.site op.1).station.core (coreInputs w op),
          some (coreInputs w op).instant⟩,
      (fabric w).sent ++ emitted op.1 ((fabric w).benches op.1).core⟩ := by
  refine congrArg (fun benches => (⟨benches,_⟩ : Fabric)) (funext fun i => ?_)
  by_cases own : i = op.1
  · subst own
    simp only [after,Function.update_self]
    rfl
  · simp only [after,fabric,Function.update_of_ne own]

end Abstraction

section Headers

variable {dstMac srcMac : BitVec 48} {h : Header}

theorem fieldNarrowed {n k o width : Nat} (data : BitVec n) (inside : o + width ≤ k) :
    field (data.setWidth k) o width = field data o width := by
  apply BitVec.eq_of_getLsbD_eq
  intro i bound
  have low : o + i < k := by omega
  simp only [fieldGet,BitVec.getLsbD_setWidth,low,decide_true,Bool.true_and]

theorem readNarrowed {n o k : Nat} (data : BitVec n) (inside : 8 * o + 8 * k ≤ 512) :
    readBytes (data.setWidth 512) o k = readBytes data o k := by
  rw [readSwapped,readSwapped,fieldNarrowed data inside]

theorem parsedWritten {p : RxEngine.Parameters} {b : RxEngine.MacBeat (8 * p.keepWidth)}
    (same : b.data.setWidth 512 = headerBits dstMac srcMac h) :
    (RxEngine.parsed p b).nodeId = h.nodeId ∧ (RxEngine.parsed p b).row = h.row ∧
      (RxEngine.parsed p b).runId = h.runId ∧ (RxEngine.parsed p b).roundId = h.roundId := by
  have read := @HeaderCodec.readWritten dstMac srcMac h
  rw [← same] at read
  have byte (o : Nat) (inside : 8 * o + 8 ≤ 512) : byteAt (b.data.setWidth 512) o = byteAt b.data o :=
    fieldNarrowed b.data inside
  refine ⟨?_,?_,?_,?_⟩
  · rw [← congrArg Header.nodeId read]
    exact (byte _ (by decide)).symm
  · rw [← congrArg Header.row read]
    exact (byte _ (by decide)).symm
  · rw [← congrArg Header.runId read]
    exact (readNarrowed b.data (by decide)).symm
  · rw [← congrArg Header.roundId read]
    exact (readNarrowed b.data (by decide)).symm

end Headers

section Sources

def shown (w : State d) (i : Nat) : Option RxRow := RxStation.shown (d.site i).station (w.nodes i).station

structure Sourced (w : State d) : Prop where
  latched : ∀ i < d.nodeCount, (w.nodes i).tx.state ≠ .idle →
    (w.nodes i).tx.announces (d.site i).tx ∈ w.announced
  carried : ∀ beat ∈ w.wire, ∃ dstMac srcMac h, beat = headerBits dstMac srcMac h ∧
    (⟨h.nodeId,h.row,h.runId,h.roundId⟩ : RxRow) ∈ w.announced
  shown : ∀ i < d.nodeCount, ∀ r, shown w i = some r → r ∈ w.announced

theorem nodeNumber (inside : i < d.nodeCount) : (d.site i).tx.nodeId = i :=
  (d.site i).sameNode.trans (d.identified i inside)

theorem latchedAfter (sourced : Sourced w) (inside : op.1 < d.nodeCount)
    (busy : (next (w.nodes op.1) op.2).tx.state ≠ .idle) :
    (next (w.nodes op.1) op.2).tx.announces (d.site op.1).tx ∈ (after w op).announced := by
  rcases TxEngine.announcesNext busy with ⟨was,same⟩ | ⟨pulse,same⟩
  · refine List.mem_append_left _ ?_
    rw [show (next (w.nodes op.1) op.2).tx.announces (d.site op.1).tx = _ from same]
    exact sourced.latched op.1 inside was
  · refine List.mem_append_right _ ?_
    rw [show (next (w.nodes op.1) op.2).tx.announces (d.site op.1).tx = _ from same,nodeNumber inside]
    have pulse : (core (w.nodes op.1)).oTxStartPulse = true := pulse
    rw [emitted,if_pos pulse]
    exact List.mem_singleton_self _

theorem carriedAfter (sourced : Sourced w) (inside : op.1 < d.nodeCount) :
    ∀ beat ∈ (after w op).wire, ∃ dstMac srcMac h, beat = headerBits dstMac srcMac h ∧
      (⟨h.nodeId,h.row,h.runId,h.roundId⟩ : RxRow) ∈ (after w op).announced := by
  intro beat member
  rcases List.mem_append.mp member with old | new
  · obtain ⟨dstMac,srcMac,h,same,announced⟩ := sourced.carried beat old
    exact ⟨dstMac,srcMac,h,same,List.mem_append_left _ announced⟩
  · have sent := Option.mem_toList.mp new
    simp only [headerSent,TxEngine.headerSent] at sent
    split at sent
    case isFalse => cases sent
    case isTrue leaves =>
      simp only [Bool.and_eq_true,decide_eq_true_eq] at leaves
      cases Option.some.inj sent
      refine ⟨_,_,(w.nodes op.1).tx.header (d.site op.1).tx,by rw [TxEngine.axisData,if_pos leaves.1],?_⟩
      exact List.mem_append_left _ (sourced.latched op.1 inside (by simp [leaves.1]))

theorem shownAfter (sourced : Sourced w) (delivers : Delivers w op) {r : RxRow}
    (held : RxStation.shown (d.site op.1).station (next (w.nodes op.1) op.2).station = some r) :
    r ∈ (after w op).announced := by
  obtain ⟨f,under,rfl⟩ := Option.map_eq_some_iff.mp held
  cases alive : op.2.station.core.rst with
  | true =>
    have idle := (RxEngine.resetClears (r := (w.nodes op.1).station.engine)
      (x := RxStation.engineInputs _ (w.nodes op.1).station op.2.station) alive).idle
    simp [next,RxStation.next,RxEngine.underway,idle] at under
  | false =>
    have takes := (RxEngine.cycle (r := (w.nodes op.1).station.engine)
      (x := RxStation.engineInputs _ (w.nodes op.1).station op.2.station) alive).takes
    have heard := takes.symm.trans under
    obtain ⟨b,taken,rfl⟩ := Option.map_eq_some_iff.mp heard
    obtain ⟨taken,passes⟩ := Option.filter_eq_some_iff.mp taken
    obtain ⟨arrives,last⟩ := Option.filter_eq_some_iff.mp taken
    simp only [Bool.and_eq_true] at passes
    obtain ⟨dstMac,srcMac,h,same,announced⟩ := sourced.carried _ (delivers b arrives last passes.1)
    obtain ⟨nodeId,row,runId,roundId⟩ := parsedWritten same
    rw [nodeId,row,runId,roundId]
    exact List.mem_append_left _ announced

theorem sourcedStep (step : (system d).step w op w') (sourced : Sourced w) : Sourced w' := by
  obtain ⟨inside,_,delivers,rfl⟩ := step
  refine ⟨?_,carriedAfter sourced inside,?_⟩
  · intro i bound busy
    by_cases own : i = op.1
    · subst own
      simp only [after,Function.update_self] at busy ⊢
      exact latchedAfter sourced inside busy
    · simp only [after,Function.update_of_ne own] at busy ⊢
      exact List.mem_append_left _ (sourced.latched i bound busy)
  · intro i bound r held
    by_cases own : i = op.1
    · subst own
      simp only [shown,after,Function.update_self] at held
      exact shownAfter sourced delivers held
    · simp only [shown,after,Function.update_of_ne own] at held
      exact List.mem_append_left _ (sourced.shown i bound r held)

theorem ranSourced (ran : Ran (system d) moves w) : Sourced w := by
  induction ran with
  | start h =>
    obtain ⟨nodes,wire,announced⟩ := h
    refine ⟨?_,?_,?_⟩
    · intro i _ busy
      simp [(nodes i).2.2] at busy
    · simp [wire]
    · intro i _ r held
      simp [shown,RxStation.shown,RxEngine.underway,(nodes i).2.1.idle] at held
  | move before h ih => exact sourcedStep h ih

end Sources

section Refinement

-- Seen through its cores alone, the wired cluster is a deployment over the abstract network.
theorem ranFabric (ran : Ran (system d) moves w) :
    Ran (deployed (deployment d)) (moves.map coresOnly) (fabric w) := by
  induction ran with
  | @start w h =>
    have off : fabric w = ⟨fun i => ⟨ConsensusCore.powerUp (d.site i).station.core,none⟩,[]⟩ := by
      rw [fabric,h.2.2]
      exact congrArg (fun benches => (⟨benches,[]⟩ : Fabric)) (funext fun i => (h.1 i).1)
    exact .start off
  | @move moves w op w' before h ih =>
    obtain ⟨inside,free,delivers,rfl⟩ := h
    have sourced := ranSourced before
    rw [List.map_append]
    refine .move ih ⟨inside,RxStation.freeShown free,?_,fabricNext⟩
    exact fun r held => sourced.shown op.1 inside r held

theorem announcedIs (ran : Ran (system d) moves w) :
    w.announced = moves.flatMap (fun m => emitted m.op.1 (core (m.before.nodes m.op.1))) := by
  induction ran with
  | start h => exact h.2.2
  | move before h ih =>
    obtain ⟨_,_,_,rfl⟩ := h
    rw [List.flatMap_append,← ih]
    simp [after]

def accepted (m : Move (State d) (Op d)) : Option RxRow :=
  RxStation.rxAccepted (d.site m.op.1).station (m.before.nodes m.op.1).station m.op.2.station

def coreView (m : Move (State d) (Op d)) : Move Bench ConsensusCore.Inputs :=
  ⟨(m.before.nodes m.op.1).station.bench,coreInputs m.before m.op,(m.after.nodes m.op.1).station.bench⟩

def committed (m : Move (State d) (Op d)) : Option (BitVec 64) := ConsensusCore.committed (coreView m)

def Unwrapped (d : WirePlant) (moves : List (Move (State d) (Op d))) : Prop :=
  ∀ i, ∃ epoch, ∀ m ∈ moves, m.op.1 = i →
    (d.site i).station.core.roundAt m.op.2.station.core.instant / 2 ^ 64 = epoch

theorem coreParts {x : Move Bench ConsensusCore.Inputs}
    (member : x ∈ ConsensusCore.parts i (moves.map coresOnly)) : ∃ m ∈ moves, m.op.1 = i ∧ coreView m = x := by
  obtain ⟨y,inside,own⟩ := List.mem_filterMap.mp member
  obtain ⟨m,held,rfl⟩ := List.mem_map.mp inside
  by_cases mine : m.op.1 = i
  · have view : ConsensusCore.part i (coresOnly m) = some (coreView m) := by
      subst mine
      exact if_pos rfl
    exact ⟨m,held,mine,Option.some.inj (view.symm.trans own)⟩
  · cases (if_neg mine : ConsensusCore.part i (coresOnly m) = none).symm.trans own

theorem viewParts (member : m ∈ moves) : coreView m ∈ ConsensusCore.parts m.op.1 (moves.map coresOnly) :=
  List.mem_filterMap.mpr ⟨coresOnly m,List.mem_map.mpr ⟨m,member,rfl⟩,if_pos rfl⟩

theorem coresUnwrapped (straight : Unwrapped d moves) (i : Nat) : ∃ epoch,
    ConsensusCore.Unwrapped ((deployment d).core i) epoch (ConsensusCore.parts i (moves.map coresOnly)) := by
  obtain ⟨epoch,inside⟩ := straight i
  refine ⟨epoch,fun x member => ?_⟩
  obtain ⟨m,held,own,rfl⟩ := coreParts member
  exact inside m held own

/- The wired cluster. Its cores run as they would over the abstract network; what one of them
accepts, the core it names has announced before; and two commits of one round agree. -/
structure WiredSafety (d : WirePlant) (moves : List (Move (State d) (Op d))) (w : State d) : Prop where
  refines : Ran (deployed (deployment d)) (moves.map coresOnly) (fabric w)
  evidence : ∀ pre m post, moves = pre ++ m :: post → ∀ r, accepted m = some r →
    ∃ x ∈ pre, (core (x.before.nodes x.op.1)).oTxStartPulse = true ∧
      r = frame x.op.1 (core (x.before.nodes x.op.1))
  agree : ∀ m ∈ moves, ∀ m' ∈ moves, ∀ r, committed m = some r → committed m' = some r →
    (coreView m).after.core.protocol.commitSet = (coreView m').after.core.protocol.commitSet ∧
      (coreView m).after.core.protocol.currentRunId = (coreView m').after.core.protocol.currentRunId

theorem wiredSafety (ran : Ran (system d) moves w) (straight : Unwrapped d moves) : WiredSafety d moves w := by
  have cores := ranFabric ran
  refine ⟨cores,?_,?_⟩
  · rintro pre m post rfl r held
    obtain ⟨before,⟨inside,_⟩,_⟩ := ranAt ran
    have same : shown m.before m.op.1 = some r := (Option.filter_eq_some_iff.mp held).1
    have announced := (ranSourced before).shown m.op.1 inside r same
    rw [announcedIs before] at announced
    obtain ⟨x,member,spoken⟩ := List.mem_flatMap.mp announced
    simp only [emitted] at spoken
    split at spoken
    · rename_i pulse
      exact ⟨x,member,pulse,List.mem_singleton.mp spoken⟩
    · cases spoken
  · intro m member m' member' r held held'
    exact ConsensusCore.backedAgree cores (coresUnwrapped straight) (viewParts member) (viewParts member')
      held held'

end Refinement

section Session

instance (b : Option (RxEngine.MacBeat i)) (good : RxEngine.MacBeat i → Prop) [DecidablePred good] :
    Decidable (∀ x, b = some x → good x) :=
  match b with
  | none => isTrue (by simp)
  | some x => decidable_of_iff (good x) (by simp)

instance (w : State d) (op : Op d) : Decidable (Delivers w op) := by unfold Delivers; infer_instance

def cycle (d : WirePlant) (w : State d) (op : Op d) : Except Unit (State d) :=
  if op.1 < d.nodeCount ∧
      FaultFree (d.site op.1).station.core (w.nodes op.1).station.bench.now op.2.station.core ∧ Delivers w op
  then .ok (after w op)
  else .error ()

def powerUp (d : WirePlant) : State d :=
  {nodes := fun i => {station := ⟨⟨ConsensusCore.powerUp (d.site i).station.core,none⟩,{}⟩}}

def play (d : WirePlant) (ops : List (Op d)) : Except Unit (List (Move (State d) (Op d)) × State d) :=
  record (cycle d) ops (powerUp d)

theorem playRan {ops : List (Op d)} (done : play d ops = .ok (moves,w)) : Ran (system d) moves w := by
  have begins : (system d).start (powerUp d) :=
    ⟨fun _ => ⟨rfl,RxEngine.powerUpCleared _,rfl⟩,rfl,rfl⟩
  refine recordRan ?_ (.start begins) done
  intro op _ w w' took
  simp only [cycle] at took
  split at took
  case isTrue legal =>
    cases took
    exact ⟨legal.1,legal.2.1,legal.2.2,rfl⟩
  case isFalse => cases took

theorem pairNamed (i : Nat) : i % 2 < 2 := Nat.mod_lt _ (by decide)

theorem pairNarrow : 2 ≤ 8 := by decide

def pairSite (i : Nat) : WireSite where
  station :=
    { core := ConsensusCore.pairCore i
      engine :=
        { nodeId := i % 2, nodeCount := 2, payloadBytes := 1, keepWidth := 65
          fits := RxEngine.narrowFits, narrow := pairNarrow }
      sameNode := rfl
      sameCount := rfl }
  tx := {nodeId := i % 2, nodeCount := 2, named := pairNamed i, narrow := pairNarrow}
  sameNode := rfl

theorem pairCounted (i : Nat) : (pairSite i).station.core.nodeCount = 2 := rfl

theorem pairIdentified (i : Nat) (inside : i < 2) : (pairSite i).station.core.nodeId = i :=
  Nat.mod_eq_of_lt inside

def pair : WirePlant := ⟨2,pairSite,pairCounted,pairIdentified⟩

def pairFrame (j : BitVec 8) (row : BitVec 8) (r : BitVec 64) : RxEngine.MacBeat 520 :=
  ⟨(headerBits (BitVec.allOnes 48) 0x020000000000 ⟨j,row,1,r,0⟩).setWidth 520,true,false⟩

def pairAt (i : Nat) (t : Nat) (regWr : Option ConsensusCore.RegWrite) (beat : Option (RxEngine.MacBeat 520)) :
    Op pair :=
  ⟨i,{station := {core := ConsensusCore.pairAt t regWr none, beat := beat}, tx := {axisReady := true}}⟩

def pairCycle (t : Nat) (at0 at1 : Option (RxEngine.MacBeat 520)) : List (Op pair) :=
  [pairAt 1 t none at1,pairAt 0 t none at0]

def pairExchange (t : Nat) (r : BitVec 64) (row0 row1 : BitVec 8) : List (Op pair) :=
  pairCycle t none none ++ pairCycle t none none ++ pairCycle t none (some (pairFrame 0 row0 r)) ++
    pairCycle t (some (pairFrame 1 row1 r)) none ++ pairCycle t none none

def pairOps : List (Op pair) :=
  [some ⟨0x003100,1⟩,none,some ⟨0x003104,3⟩,none,some ⟨0x00300C,3⟩].flatMap
      (fun regWr => [pairAt 1 0 regWr none,pairAt 0 0 regWr none]) ++
    (List.range 10).flatMap (fun k => pairCycle (1000 * k) none none) ++ pairExchange 10000 2 1 2 ++
    [11000,12000,13000].flatMap (fun t => pairCycle t none none) ++ pairExchange 14000 3 3 3 ++
    [15000,16000,17000].flatMap (fun t => pairCycle t none none)

def commits (i : Nat) (r : BitVec 64) (m : Move (State d) (Op d)) : Bool := m.op.1 = i && committed m = some r

theorem wiredSafetyOnce : ∃ moves w, play pair pairOps = .ok (moves,w) ∧
    moves.any (commits 0 2) = true ∧ moves.any (commits 1 2) = true ∧ WiredSafety pair moves w := by
  have value : (play pair pairOps).toOption.map (fun result =>
      result.1.any (commits 0 2) && result.1.any (commits 1 2) &&
        result.1.all (fun m => m.op.2.station.core.instant ≤ 17000)) = some true := by
    decide +kernel
  obtain ⟨⟨moves,w⟩,done,found⟩ := okFound value
  simp only [Bool.and_eq_true,List.all_eq_true,decide_eq_true_eq] at found
  obtain ⟨both,early⟩ := found
  refine ⟨moves,w,done,both.1,both.2,wiredSafety (playRan done) ?_⟩
  intro i
  refine ⟨0,fun m member _ => Nat.div_eq_of_lt ?_⟩
  have low := early m member
  have small : (17000 : Nat) < 2 ^ 64 := by decide
  exact lt_of_le_of_lt (Nat.div_le_self _ _) (lt_of_le_of_lt low small)

end Session

end WirePlant
end Syncons
