import Syncons.RxPath
import Syncons.RxEvidence
import Mathlib.Data.List.Basic
import Mathlib.Tactic.IntervalCases

/-! The two wire formats. The transmit engine lays a header out by the offsets of the
packet description, and the parser of the receive path reads the older layout: a 64-bit
run id from byte 14 on, the row at byte 22, the node at byte 23 and the round from
byte 24 on, all in the beat that ends the frame. -/
namespace Syncons
open Runs
open BitFields
open ConsensusCore (Core RxRow RegWrite)

section Header

variable {dstMac srcMac : BitVec 48} {h : Header}

structure HeaderFields (h : Header) (bits : BitVec 512) : Prop where
  ethertype : field bits (8 * 12) (8 * 2) = be16 ssrEthertype
  nodeId : byteAt bits 14 = h.nodeId
  row : byteAt bits 15 = h.row
  runId : field bits (8 * 16) (8 * 4) = be32 h.runId
  roundId : field bits (8 * 20) (8 * 8) = be64 h.roundId
  length : field bits (8 * 28) (8 * 2) = be16 h.length
  reserved : field bits (8 * 30) (8 * 34) = 0

theorem headerFields (dstMac srcMac : BitVec 48) (h : Header) :
    HeaderFields h (headerBits dstMac srcMac h) := by
  simp only [headerBits,ssrOffDstMac,ssrOffSrcMac,ssrOffEthertype,ssrOffNodeId,ssrOffRow,ssrOffRunId,
    ssrOffRoundId,ssrOffLength]
  refine ⟨?_,?_,?_,?_,?_,?_,?_⟩
  · repeat rw [fieldPutOther (by omega) (by omega)]
    exact fieldPut (by omega)
  · rw [byteAt]
    repeat rw [fieldPutOther (by omega) (by omega)]
    exact fieldPut (by omega)
  · rw [byteAt]
    repeat rw [fieldPutOther (by omega) (by omega)]
    exact fieldPut (by omega)
  · repeat rw [fieldPutOther (by omega) (by omega)]
    exact fieldPut (by omega)
  · repeat rw [fieldPutOther (by omega) (by omega)]
    exact fieldPut (by omega)
  · exact fieldPut (by omega)
  · repeat rw [fieldPutOther (by omega) (by omega)]
    exact fieldZero

variable {bits : BitVec 512}

theorem headerBytes (fields : HeaderFields h bits) :
    (∀ j < 4, byteAt bits (16 + j) = byteAt h.runId (3 - j)) ∧
    (∀ j < 8, byteAt bits (20 + j) = byteAt h.roundId (7 - j)) ∧
    (∀ j < 2, byteAt bits (28 + j) = byteAt h.length (1 - j)) ∧
    (∀ j < 34, byteAt bits (30 + j) = 0) := by
  refine ⟨?_,?_,?_,?_⟩
  · intro j inside
    rw [← byteField (k := 4) inside,fields.runId,be32,swapByte (k := 4) inside]
  · intro j inside
    rw [← byteField (k := 8) inside,fields.roundId,be64,swapByte (k := 8) inside]
  · intro j inside
    rw [← byteField (k := 2) inside,fields.length,be16,swapByte (k := 2) inside]
  · intro j inside
    rw [← byteField (k := 34) inside,fields.reserved,byteAt,fieldZero]

end Header

namespace ConsensusRx

variable {n : Nat} {h : Header} {beat : RxBeat}

/- The beat spells the header of the frame in the layout that the parser reads, and
the round fits the 32 bits that the parser passes on. -/
structure Spells (n : Nat) (h : Header) (beat : RxBeat) : Prop where
  ethertype : rxEthertype beat = pEthernetType
  nodeId : rxNode beat = h.nodeId
  row : ((rxKnowledgeVec beat).setWidth n).setWidth 8 = h.row
  runId : rxRunId64 beat = h.runId.setWidth 64
  roundId : rxRoundId64 beat = h.roundId
  narrow : h.roundId.toNat < 2 ^ 32

-- Where the layouts overlap, the top of the older run id is zero, and so what lies under it.
theorem spelledRun (fields : HeaderFields h beat.data)
    (spells : rxRunId64 beat = h.runId.setWidth 64) :
    h.nodeId = 0 ∧ h.row = 0 ∧ h.runId = 0 ∧ byteAt h.roundId 6 = 0 ∧ byteAt h.roundId 7 = 0 := by
  obtain ⟨run,round,_,_⟩ := headerBytes fields
  have runs : ∀ j < 8, byteAt beat.data (14 + j) = byteAt (h.runId.setWidth 64) (8 - 1 - j) :=
    swappedFieldEq.mp spells
  have low : ∀ j < 4, byteAt (h.runId.setWidth 64) j = byteAt h.runId j := by
    intro j inside
    exact (byteWiden (k := 4) (m := 8) (by omega)).trans (if_pos inside)
  have high : ∀ j < 8, 4 ≤ j → byteAt (h.runId.setWidth 64) j = 0 := by
    intro j inside above
    exact (byteWiden (k := 4) (m := 8) inside).trans (if_neg (by omega))
  have nodeId : h.nodeId = 0 :=
    fields.nodeId.symm.trans ((runs 0 (by omega)).trans (high 7 (by omega) (by omega)))
  have row : h.row = 0 :=
    fields.row.symm.trans ((runs 1 (by omega)).trans (high 6 (by omega) (by omega)))
  have run3 : byteAt h.runId 3 = 0 :=
    (run 0 (by omega)).symm.trans ((runs 2 (by omega)).trans (high 5 (by omega) (by omega)))
  have run2 : byteAt h.runId 2 = 0 :=
    (run 1 (by omega)).symm.trans ((runs 3 (by omega)).trans (high 4 (by omega) (by omega)))
  have run1 : byteAt h.runId 1 = 0 :=
    (run 2 (by omega)).symm.trans ((runs 4 (by omega)).trans ((low 3 (by omega)).trans run3))
  have run0 : byteAt h.runId 0 = 0 :=
    (run 3 (by omega)).symm.trans ((runs 5 (by omega)).trans ((low 2 (by omega)).trans run2))
  have round7 : byteAt h.roundId 7 = 0 :=
    (round 0 (by omega)).symm.trans ((runs 6 (by omega)).trans ((low 1 (by omega)).trans run1))
  have round6 : byteAt h.roundId 6 = 0 :=
    (round 1 (by omega)).symm.trans ((runs 7 (by omega)).trans ((low 0 (by omega)).trans run0))
  refine ⟨nodeId,row,?_,round6,round7⟩
  refine bytesZero (k := 4) ?_
  intro j inside
  interval_cases j
  · exact run0
  · exact run1
  · exact run2
  · exact run3

theorem spelledRound (fields : HeaderFields h beat.data) (spells : rxRoundId64 beat = h.roundId)
    (round6 : byteAt h.roundId 6 = 0) (round7 : byteAt h.roundId 7 = 0) : h.roundId = 0 := by
  obtain ⟨_,round,_,reserved⟩ := headerBytes fields
  have rounds : ∀ j < 8, byteAt beat.data (24 + j) = byteAt h.roundId (8 - 1 - j) :=
    swappedFieldEq.mp spells
  have round3 : byteAt h.roundId 3 = 0 :=
    (round 4 (by omega)).symm.trans ((rounds 0 (by omega)).trans round7)
  have round2 : byteAt h.roundId 2 = 0 :=
    (round 5 (by omega)).symm.trans ((rounds 1 (by omega)).trans round6)
  have round1 : byteAt h.roundId 1 = 0 :=
    (rounds 6 (by omega)).symm.trans (reserved 0 (by omega))
  have round0 : byteAt h.roundId 0 = 0 :=
    (rounds 7 (by omega)).symm.trans (reserved 1 (by omega))
  have round5 : byteAt h.roundId 5 = 0 :=
    (rounds 2 (by omega)).symm.trans ((round 6 (by omega)).trans round1)
  have round4 : byteAt h.roundId 4 = 0 :=
    (rounds 3 (by omega)).symm.trans ((round 7 (by omega)).trans round0)
  refine bytesZero (k := 8) ?_
  intro j inside
  interval_cases j
  · exact round0
  · exact round1
  · exact round2
  · exact round3
  · exact round4
  · exact round5
  · exact round6
  · exact round7

theorem clearHeader (fields : HeaderFields h beat.data) (empty : h.length = 0) (nodeId : h.nodeId = 0)
    (row : h.row = 0) (runId : h.runId = 0) (roundId : h.roundId = 0) :
    ∀ j, 14 ≤ j → j < 32 → byteAt beat.data j = 0 := by
  obtain ⟨run,round,length,reserved⟩ := headerBytes fields
  have zero : ∀ {k j : Nat}, byteAt (0 : BitVec (8 * k)) j = 0 := fieldZero
  rw [runId] at run
  rw [roundId] at round
  rw [empty] at length
  intro j above below
  interval_cases j
  · exact fields.nodeId.trans nodeId
  · exact fields.row.trans row
  · exact (run 0 (by omega)).trans (zero (k := 4))
  · exact (run 1 (by omega)).trans (zero (k := 4))
  · exact (run 2 (by omega)).trans (zero (k := 4))
  · exact (run 3 (by omega)).trans (zero (k := 4))
  · exact (round 0 (by omega)).trans (zero (k := 8))
  · exact (round 1 (by omega)).trans (zero (k := 8))
  · exact (round 2 (by omega)).trans (zero (k := 8))
  · exact (round 3 (by omega)).trans (zero (k := 8))
  · exact (round 4 (by omega)).trans (zero (k := 8))
  · exact (round 5 (by omega)).trans (zero (k := 8))
  · exact (round 6 (by omega)).trans (zero (k := 8))
  · exact (round 7 (by omega)).trans (zero (k := 8))
  · exact (length 0 (by omega)).trans (zero (k := 2))
  · exact (length 1 (by omega)).trans (zero (k := 2))
  · exact reserved 0 (by omega)
  · exact reserved 1 (by omega)

theorem headerSpells (fields : HeaderFields h beat.data) (empty : h.length = 0) :
    Spells n h beat ↔ h.nodeId = 0 ∧ h.row = 0 ∧ h.runId = 0 ∧ h.roundId = 0 := by
  constructor
  · intro spells
    obtain ⟨nodeId,row,runId,round6,round7⟩ := spelledRun fields spells.runId
    exact ⟨nodeId,row,runId,spelledRound fields spells.roundId round6 round7⟩
  · rintro ⟨nodeId,row,runId,roundId⟩
    have clear := clearHeader fields empty nodeId row runId roundId
    have word : ∀ o, 14 ≤ o → o + 8 ≤ 32 → swapBytes 8 (field beat.data (8 * o) (8 * 8)) = 0 := by
      intro o above below
      refine swappedFieldEq.mpr ?_
      intro j inside
      rw [clear (o + j) (by omega) (by omega)]
      exact fieldZero.symm
    refine ⟨?_,?_,?_,?_,?_,?_⟩
    · have swapped := congrArg (swapBytes 2) fields.ethertype
      rw [be16,swapTwice] at swapped
      exact swapped
    · exact (clear 23 (by omega) (by omega)).trans nodeId.symm
    · rw [show rxKnowledgeVec beat = 0 from clear 22 (by omega) (by omega),row]
      simp
    · rw [runId]
      exact word 14 (by omega) (by omega)
    · rw [roundId]
      exact word 24 (by omega) (by omega)
    · rw [roundId]
      decide

end ConsensusRx

namespace RxPath
open ConsensusRx
open TxEngine (Transmission sentIn headerOf headerBeat offeredValid offeredLen)

/- A receiver the frame is meant for: its core runs in the run and round that the header
names, has the sender in its sound set, and its receive window is open. -/
structure Tuned (h : Header) (s : RxPath) : Prop where
  running : s.core.protocol.state = .run
  runId : s.core.protocol.currentRunId = h.runId
  roundId : s.core.timing.roundId = h.roundId
  sound : s.core.protocol.currentSoundSet.getLsbD h.nodeId.toNat = true
  window : s.core.oRxWindow = true

structure Reception (h : Header) (frame : List Beat) (cycles : List (Move RxPath Inputs))
    (settle : Move RxPath Inputs) (final : RxBeat) : Prop where
  carried : (cycles.filterMap (fun m => m.op.beat)).map (fun b => (b.data,b.last)) =
    frame.map (fun b => (b.data,b.last))
  ends : (cycles.filterMap (fun m => m.op.beat)).getLast? = some final
  tuned : ∀ m ∈ cycles ++ [settle], Tuned h m.before

-- From the cycle after the first beat on, the core accepts one header, that of the frame.
def Understood (p : Parameters) (h : Header) (cycles : List (Move RxPath Inputs))
    (settle : Move RxPath Inputs) : Prop :=
  (cycles ++ [settle]).tail.filterMap (fun m => accepted p m.before m.op) =
    [⟨h.nodeId,h.row,h.runId,h.roundId⟩]

variable {p : Parameters} {s : RxPath} {x : Inputs} {h : Header} {beat final : RxBeat}
  {m settle : Move RxPath Inputs} {pre cycles : List (Move RxPath Inputs)}

def acceptedIn (p : Parameters) (s : RxPath) : Option RxRow := s.rxRow.filter (s.core.rxAccept p.core)

theorem acceptedLater (ran : Ran (system p) (pre ++ cycles ++ [settle]) s) :
    (cycles ++ [settle]).tail.filterMap (fun m => accepted p m.before m.op) =
      cycles.filterMap (fun m => acceptedIn p m.after) := by
  have shifted := congrArg (List.filterMap (acceptedIn p)) (ranShift ran)
  rw [List.filterMap_map,List.filterMap_map] at shifted
  exact shifted

theorem acceptedFromParsed (step : (system p).step m.before m.op m.after) :
    acceptedIn p m.after =
      ((parsed p m.before m.op).map (headerRow p)).filter (m.after.core.rxAccept p.core) := by
  obtain ⟨quiet,after⟩ := step
  rw [acceptedIn,after,presentedNext quiet]

theorem parsedLast (held : parsed p s x = some beat) : x.beat = some beat ∧ beat.last = true := by
  unfold parsed at held
  split at held
  · obtain ⟨routed,passing⟩ := Option.filter_eq_some_iff.mp held
    have arrived := (Option.filter_eq_some_iff.mp routed).1
    simp only [passes,Bool.and_eq_true] at passing
    exact ⟨arrived,passing.1.1.1.1.1⟩
  · cases held

theorem unmarkedIgnored (step : (system p).step m.before m.op m.after)
    (unmarked : ∀ beat, m.op.beat = some beat → beat.last = false) : acceptedIn p m.after = none := by
  rw [acceptedFromParsed step]
  cases held : parsed p m.before m.op with
  | none => rfl
  | some beat =>
    obtain ⟨arrived,last⟩ := parsedLast held
    cases last.symm.trans (unmarked beat arrived)

theorem parsedIff (tuned : Tuned h s) (speaks : s.core.AdvertisesRun) (arrived : x.beat = some beat)
    (last : beat.last = true) :
    parsed p s x = some beat ↔
      rxEthertype beat = pEthernetType ∧ (rxNode beat).toNat < p.core.nodeCount ∧
        beat.dest.toNat = p.core.nodeId ∧ rxRunId64 beat = h.runId.setWidth 64 ∧
        rxRoundId64 beat = h.roundId := by
  have run : s.core.protocol.txRunId = h.runId := (speaks tuned.running).trans tuned.runId
  have routed : rxEthertype beat = pEthernetType → rxRouteEff beat = .cons := by
    intro typed
    have swapped := congrArg (swapBytes 2) typed
    rw [rxEthertype,swapTwice] at swapped
    exact if_pos swapped
  rw [parsed,if_pos tuned.window,packet,Option.filter_eq_some_iff]
  simp only [rxInputs,consRx,arrived,Option.filter_eq_some_iff,passes,last,Bool.true_and,
    Bool.and_eq_true,decide_eq_true_eq,run,tuned.roundId,true_and]
  constructor
  · rintro ⟨_,⟨⟨⟨typed,inside⟩,dest⟩,runId⟩,roundId⟩
    exact ⟨typed,inside,dest,runId,roundId⟩
  · rintro ⟨typed,inside,dest,runId,roundId⟩
    exact ⟨routed typed,⟨⟨⟨typed,inside⟩,dest⟩,runId⟩,roundId⟩

theorem finalUnderstood (step : (system p).step m.before m.op m.after) (before : Tuned h m.before)
    (after : Tuned h m.after) (speaks : m.before.core.AdvertisesRun)
    (inside : h.nodeId.toNat < p.core.nodeCount) (other : h.nodeId.toNat ≠ p.core.nodeId)
    (arrived : m.op.beat = some final) (last : final.last = true) :
    acceptedIn p m.after = some ⟨h.nodeId,h.row,h.runId,h.roundId⟩ ↔
      final.dest.toNat = p.core.nodeId ∧ Spells p.core.nodeCount h final := by
  rw [acceptedFromParsed step,Option.filter_eq_some_iff,Option.map_eq_some_iff]
  have passing := @parsedIff p _ _ _ _ before speaks arrived last
  constructor
  · rintro ⟨⟨beat,held,same⟩,_⟩
    have itself : beat = final := Option.some.inj ((parsedLast held).1.symm.trans arrived)
    subst itself
    obtain ⟨typed,_,dest,runId,roundId⟩ := passing.mp held
    simp only [headerRow,RxRow.mk.injEq] at same
    obtain ⟨nodeId,row,_,round⟩ := same
    have narrow : ((h.roundId.setWidth 32).setWidth 64).toNat = h.roundId.toNat := by
      rw [← roundId,round,roundId]
    rw [BitVec.toNat_setWidth,BitVec.toNat_setWidth] at narrow
    exact ⟨dest,typed,nodeId,row,runId,roundId,by omega⟩
  · rintro ⟨dest,spells⟩
    have within : (rxNode final).toNat < p.core.nodeCount := by
      rw [spells.nodeId]
      exact inside
    have round : (h.roundId.setWidth 32).setWidth 64 = h.roundId := by
      apply BitVec.eq_of_toNat_eq
      have narrow := spells.narrow
      rw [BitVec.toNat_setWidth,BitVec.toNat_setWidth]
      omega
    have index : (h.nodeId.extractLsb' 0 3).toNat = h.nodeId.toNat := by
      have narrow := p.core.narrow
      rw [BitVec.extractLsb'_toNat]
      simp only [Nat.shiftRight_zero]
      omega
    refine ⟨⟨final,passing.mpr ⟨spells.ethertype,within,dest,spells.runId,spells.roundId⟩,?_⟩,?_⟩
    · simp only [headerRow,spells.nodeId,spells.row,spells.runId,spells.roundId,round]
      congr 1
      exact BitVec.setWidth_setWidth_of_le _ (by omega)
    · simp only [ConsensusCore.Core.rxAccept,after.running,after.runId,after.roundId,index,after.sound,
        inside,other,decide_true,Bool.and_self,ne_eq,not_false_eq_true]

section Frames

variable {q : TxEngine.Parameters} {e : TxEngine} {start : Move TxEngine TxEngine.Inputs}
  {sentBefore inner : List (Move TxEngine TxEngine.Inputs)}

theorem frameEnds (sends : Ran (TxEngine.system q) (sentBefore ++ start :: inner) e)
    (whole : Transmission start inner e) :
    ∃ rows last, sentIn q inner = rows ++ [last] ∧ (∀ row ∈ rows, row.last = false) ∧
      last.last = true ∧ (offeredValid start.op = false → last = headerBeat q start.op) := by
  obtain ⟨empty,sent⟩ | ⟨offers,rows,last,sent,more,ends⟩ := TxEngine.frameShape sends whole
  · exact ⟨[],headerBeat q start.op,sent,by simp,by simp [headerBeat,empty],fun _ => rfl⟩
  · refine ⟨headerBeat q start.op :: rows,last,sent,?_,ends,?_⟩
    · intro row member
      rcases List.mem_cons.mp member with rfl | old
      · simp [headerBeat,offers]
      · exact more row old
    · intro empty
      cases offers.symm.trans empty

theorem finalCycle {rows : List Beat} {last : Beat}
    (reception : Reception h (rows ++ [last]) cycles settle final)
    (more : ∀ row ∈ rows, row.last = false) :
    final.data = last.data ∧ final.last = last.last ∧
      ∃ early c late, cycles = early ++ c :: late ∧ c.op.beat = some final ∧
        ∀ m ∈ early ++ late, ∀ beat, m.op.beat = some beat → beat.last = false := by
  have carried := reception.carried
  rw [List.map_append,List.map_eq_append_iff] at carried
  obtain ⟨rows',ending,arrived,sameRows,sameEnd⟩ := carried
  obtain ⟨beat,rfl⟩ : ∃ beat, ending = [beat] := by
    rw [← List.length_eq_one_iff,← List.length_map,sameEnd]
    rfl
  have itself : beat = final := by
    have ends := reception.ends
    rw [arrived,List.getLast?_concat] at ends
    exact Option.some.inj ends
  subst itself
  simp only [List.map_cons,List.map_nil,List.cons.injEq,Prod.mk.injEq,and_true] at sameEnd
  obtain ⟨before,after,rfl,sent,ended⟩ := List.filterMap_eq_append_iff.mp arrived
  obtain ⟨between,c,late,rfl,quiet,held,silent⟩ := List.filterMap_eq_cons_iff.mp ended
  refine ⟨sameEnd.1,sameEnd.2,before ++ between,c,late,by simp,held,?_⟩
  intro m member b arrives
  rw [List.append_assoc,List.mem_append,List.mem_append] at member
  obtain inRows | inGap | inLate := member
  · have listed : b ∈ rows' := sent ▸ List.mem_filterMap.mpr ⟨m,inRows,arrives⟩
    have copied := sameRows ▸ List.mem_map_of_mem (f := fun b : RxBeat => (b.data,b.last)) listed
    obtain ⟨row,original,same⟩ := List.mem_map.mp copied
    rw [← (Prod.mk.inj same).2]
    exact more row original
  · cases (quiet m inGap).symm.trans arrives
  · cases (List.filterMap_eq_nil_iff.mp silent m inLate).symm.trans arrives

theorem framesUnderstood (sends : Ran (TxEngine.system q) (sentBefore ++ start :: inner) e)
    (whole : Transmission start inner e) (receives : Ran (system p) (pre ++ cycles ++ [settle]) s)
    (peers : q.nodeCount = p.core.nodeCount) (other : q.nodeId ≠ p.core.nodeId)
    (reception : Reception (headerOf q start.op) (sentIn q inner) cycles settle final) :
    Understood p (headerOf q start.op) cycles settle ↔
      final.dest.toNat = p.core.nodeId ∧
        if offeredValid start.op then Spells p.core.nodeCount (headerOf q start.op) final
        else q.nodeId = 0 ∧ start.op.txRow = 0 ∧ start.op.txRunId = 0 ∧ start.op.txRoundId = 0 := by
  obtain ⟨rows,last,sent,more,ends,empty⟩ := frameEnds sends whole
  rw [sent] at reception
  obtain ⟨data,marked,early,c,late,rfl,arrived,quiet⟩ := finalCycle reception more
  have named : (headerOf q start.op).nodeId.toNat = q.nodeId := by
    have named := q.named
    have narrow := q.narrow
    simp only [headerOf,BitVec.toNat_ofNat]
    omega
  have later : c.after ∈ (early ++ c :: late).map Move.after :=
    List.mem_map.mpr ⟨c,by simp,rfl⟩
  rw [← ranShift receives] at later
  obtain ⟨following,inside,same⟩ := List.mem_map.mp later
  have after : Tuned (headerOf q start.op) c.after :=
    same ▸ reception.tuned following (List.mem_of_mem_tail inside)
  have quietly : ∀ m ∈ early ++ late, acceptedIn p m.after = none := by
    intro m member
    have among : m ∈ pre ++ (early ++ c :: late) ++ [settle] := by
      have listed := List.mem_append.mp member
      simp only [List.mem_append,List.mem_cons]
      tauto
    exact unmarkedIgnored (ranStep receives among) (quiet m member)
  have only : (early ++ c :: late).filterMap (fun m => acceptedIn p m.after) =
      (acceptedIn p c.after).toList := by
    rw [List.filterMap_append,List.filterMap_cons,
      List.filterMap_eq_nil_iff.mpr (fun m member => quietly m (List.mem_append_left _ member)),
      List.filterMap_eq_nil_iff.mpr (fun m member => quietly m (List.mem_append_right _ member))]
    cases acceptedIn p c.after <;> rfl
  have through : Ran (system p) ((pre ++ early) ++ c :: (late ++ [settle])) s := by
    simpa using receives
  have once := @finalUnderstood p _ _ _ (ranStep receives (by simp)) (reception.tuned c (by simp)) after
    (ranAdvertisesRun (ranAt through).1) (by rw [named,← peers]; exact q.named)
    (by rw [named]; exact other) arrived (marked.trans ends)
  rw [Understood,acceptedLater receives,only,Option.toList_eq_singleton_iff,once]
  cases offers : offeredValid start.op with
  | true => simp
  | false =>
    have fields : HeaderFields (headerOf q start.op) final.data := by
      rw [data,empty offers]
      exact headerFields _ _ _
    have none : (headerOf q start.op).length = 0 := by
      simp only [headerOf]
      cases held : start.op.bufRdValid with
      | false => simp [offeredLen,held]
      | true => simpa [offeredValid,held] using offers
    have zero : (headerOf q start.op).nodeId = 0 ↔ q.nodeId = 0 := by
      rw [← named]
      exact BitVec.toNat_eq
    rw [headerSpells fields none,zero]
    simp [headerOf]

end Frames

instance (h : Header) (s : RxPath) : Decidable (Tuned h s) :=
  decidable_of_iff (s.core.protocol.state = .run ∧ s.core.protocol.currentRunId = h.runId ∧
      s.core.timing.roundId = h.roundId ∧
      s.core.protocol.currentSoundSet.getLsbD h.nodeId.toNat = true ∧ s.core.oRxWindow = true)
    ⟨fun t => ⟨t.1,t.2.1,t.2.2.1,t.2.2.2.1,t.2.2.2.2⟩,fun t => ⟨t.1,t.2,t.3,t.4,t.5⟩⟩

instance (h : Header) (frame : List Beat) (cycles : List (Move RxPath Inputs))
    (settle : Move RxPath Inputs) (final : RxBeat) :
    Decidable (Reception h frame cycles settle final) :=
  decidable_of_iff ((cycles.filterMap (fun m => m.op.beat)).map (fun b => (b.data,b.last)) =
      frame.map (fun b => (b.data,b.last)) ∧
      (cycles.filterMap (fun m => m.op.beat)).getLast? = some final ∧
      ∀ m ∈ cycles ++ [settle], Tuned h m.before)
    ⟨fun t => ⟨t.1,t.2.1,t.2.2⟩,fun t => ⟨t.1,t.2,t.3⟩⟩

instance (start : Move TxEngine TxEngine.Inputs) (inner : List (Move TxEngine TxEngine.Inputs))
    (e : TxEngine) : Decidable (Transmission start inner e) :=
  decidable_of_iff (start.before.startAccepted start.op = true ∧
      (∀ m ∈ inner, m.before.state ≠ .idle) ∧ e.state = .idle)
    ⟨fun t => ⟨t.1,t.2.1,t.2.2⟩,fun t => ⟨t.1,t.2,t.3⟩⟩

instance (p : Parameters) (h : Header) (cycles : List (Move RxPath Inputs))
    (settle : Move RxPath Inputs) : Decidable (Understood p h cycles settle) := by
  unfold Understood; infer_instance

structure Exchange where
  start : Move TxEngine TxEngine.Inputs
  inner : List (Move TxEngine TxEngine.Inputs)
  idle : TxEngine
  pre : List (Move RxPath Inputs)
  cycles : List (Move RxPath Inputs)
  settle : Move RxPath Inputs
  last : RxPath

def sender : TxEngine.Parameters :=
  {nodeId := 0, nodeCount := 3, named := ConsensusCore.trio.named, narrow := ConsensusCore.trio.narrow}

def receiver : Parameters where
  core :=
    { nodeCount := 3, nodeId := 1, divides := ConsensusCore.trio.divides, fits := ConsensusCore.trio.fits,
      admits := ConsensusCore.trio.admits, named := by decide, narrow := ConsensusCore.trio.narrow }
  buffer :=
    { sized := by decide, whole := by decide, binary := by decide,
      populated := CommitBuffer.Parameters.manyPopulated, round := CommitBuffer.Parameters.manyRound }
  fits := by decide

def exchange (sends : List TxEngine.Inputs) (receives : List Inputs) (i : Nat) : Option Exchange := do
  let (sent,e) ← (TxEngine.play sender sends).toOption
  let (pre,start,inner) ← cut 0 sent
  let (moves,s) ← (play receiver receives).toOption
  let settle ← moves.getLast?
  if pre.isEmpty then some ⟨start,inner,e,moves.dropLast.take i,moves.dropLast.drop i,settle,s⟩ else none

def Exchange.Sound (w : Exchange) (final : RxBeat) : Prop :=
  Transmission w.start w.inner w.idle ∧
    Reception (headerOf sender w.start.op) (sentIn sender w.inner) w.cycles w.settle final

instance (w : Exchange) (final : RxBeat) : Decidable (w.Sound final) := by
  unfold Exchange.Sound; infer_instance

theorem exchangeRan {sends : List TxEngine.Inputs} {receives : List Inputs} {i : Nat} {w : Exchange}
    (found : exchange sends receives i = some w) :
    Ran (TxEngine.system sender) ([] ++ w.start :: w.inner) w.idle ∧
      Ran (system receiver) (w.pre ++ w.cycles ++ [w.settle]) w.last := by
  simp only [exchange,bind,Option.bind_eq_some_iff] at found
  obtain ⟨⟨sent,e⟩,sending,⟨pre,start,inner⟩,split,⟨moves,s⟩,receiving,settle,ends,same⟩ := found
  cases none : pre.isEmpty with
  | false => simp [none] at same
  | true =>
    simp only [none,if_true,Option.some.injEq] at same
    rw [List.isEmpty_iff] at none
    subst none
    subst same
    simp only [List.take_append_drop]
    rw [List.dropLast_append_getLast? settle ends,← cutIs split]
    constructor
    · exact TxEngine.playRan (okOption sending)
    · exact playRan (okOption receiving)

def receiverAt (ns : Nat) (regWr : Option RegWrite) (beat : Option RxBeat) : Inputs :=
  {ptpTodNs := BitVec.ofNat 32 ns, regWr := regWr, beat := beat}

-- The receiver starts in run 0 with three members and is in round 2 from 9 us on.
def receiverInputs (beats : List (Option RxBeat)) : List Inputs :=
  receiverAt 0 (some ⟨0x003104,7⟩) none :: receiverAt 0 none none ::
    receiverAt 0 (some ⟨0x00300C,3⟩) none ::
    ((List.range 10).map (fun k => receiverAt (1000 * k) none none) ++
      beats.mapIdx (fun k beat => receiverAt (10000 + 1000 * k) none beat))

def roundStart : TxEngine.Inputs := {txStartPulse := true, txWindow := true, txRoundId := 2, txRow := 1}

def emptyFrame : RxBeat := ⟨(headerBeat sender roundStart).data,true,1⟩

theorem exchangeFound {sends : List TxEngine.Inputs} {receives : List Inputs} {i : Nat}
    {final : RxBeat} {good : Exchange → Bool}
    (value : (exchange sends receives i).map (fun w => decide (w.Sound final) && good w) = some true) :
    ∃ w, exchange sends receives i = some w ∧ w.Sound final ∧ good w = true := by
  cases found : exchange sends receives i with
  | none => simp [found] at value
  | some w =>
    simp only [found,Option.map_some,Option.some.injEq,Bool.and_eq_true,decide_eq_true_eq] at value
    exact ⟨w,rfl,value.1,value.2⟩

-- A payload row laid out as the parser reads it: run 0, row {0}, node 0, round 2.
def oldLayout : BitVec 512 :=
  put (put (put 0 96 (swapBytes 2 pEthernetType)) 176 1#8) 192 (swapBytes 8 2#64)

def fullStart : TxEngine.Inputs := {roundStart with bufRdValid := true, bufTxLen := 64}

def fullSends : List TxEngine.Inputs :=
  [fullStart,{axisReady := true},
    {bufRdValid := true, bufRdData := oldLayout, bufTxLast := true, bufTxLen := 64},{axisReady := true}]

def fullReceives : List Inputs :=
  receiverInputs [some ⟨(headerBeat sender fullStart).data,false,1⟩,some ⟨oldLayout,true,1⟩,none]

theorem framesUnderstoodOnce : ∃ w, exchange fullSends fullReceives 13 = some w ∧
    w.start.op = fullStart ∧ Understood receiver (headerOf sender w.start.op) w.cycles w.settle := by
  obtain ⟨w,found,⟨whole,reception⟩,good⟩ := @exchangeFound fullSends fullReceives 13 ⟨oldLayout,true,1⟩
    (fun w => w.start.op = fullStart) (by decide +kernel)
  have begun : w.start.op = fullStart := of_decide_eq_true good
  obtain ⟨sends,receives⟩ := exchangeRan found
  have spells : Spells 3 (headerOf sender fullStart) ⟨oldLayout,true,1⟩ :=
    ⟨by decide +kernel,by decide +kernel,by decide +kernel,by decide +kernel,by decide +kernel,by decide⟩
  refine ⟨w,found,begun,(framesUnderstood sends whole receives rfl (by decide) reception).mpr ⟨rfl,?_⟩⟩
  rw [begun]
  exact spells

-- A header-only frame of node 0 for round 2 is not understood in that round.
theorem frameLost : ∃ start inner e pre cycles settle s,
    Ran (TxEngine.system sender) ([] ++ start :: inner) e ∧ Transmission start inner e ∧
      Ran (system receiver) (pre ++ cycles ++ [settle]) s ∧
      Reception (headerOf sender start.op) (sentIn sender inner) cycles settle emptyFrame ∧
      emptyFrame.dest.toNat = receiver.core.nodeId ∧
      ¬ Understood receiver (headerOf sender start.op) cycles settle := by
  obtain ⟨w,found,⟨whole,reception⟩,good⟩ :=
    @exchangeFound [roundStart,{axisReady := true}] (receiverInputs [some emptyFrame,none]) 13 emptyFrame
      (fun w => !decide (Understood receiver (headerOf sender w.start.op) w.cycles w.settle))
      (by decide +kernel)
  obtain ⟨sends,receives⟩ := exchangeRan found
  exact ⟨_,_,_,_,_,_,_,sends,whole,receives,reception,rfl,by simpa using good⟩

end RxPath
end Syncons
