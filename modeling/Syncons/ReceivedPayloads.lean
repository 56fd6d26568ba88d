import Syncons.WireFormat

/-! Which payloads reach the commit buffer. The parser decides on its own whose payload it
passes on, so that the law holds in the runs in which the frames it takes for new are those
of other sound members, each heard once in a round, and the buffer has room. -/
namespace Syncons
open Runs
open BitFields (put)
open ConsensusCore (Core RxRow)

namespace RxPath
open ConsensusRx

section Definitions

variable (p : Parameters) (s : RxPath) (x : Inputs)

def taken : Option RxBeat :=
  if s.core.oRxWindow then s.rx.takenPacket p.core.nodeCount p.core.nodeId (rxInputs p s x) else none

def room : Bool := CommitBuffer.commitInReady p.buffer s.buffer (s.bufferInputs x)

def stored : Option (BitVec 512) := CommitBuffer.stored p.buffer s.buffer (s.bufferInputs x)
def pushed : Option (List (BitVec 512)) := CommitBuffer.pushed p.buffer s.buffer (s.bufferInputs x)
def popped : Option (List (BitVec 512)) := CommitBuffer.popped p.buffer s.buffer (s.bufferInputs x)

structure Steady : Prop where
  inside : s.core.timing.roundStartPulse = false
  up : s.core.protocolStop p.core (s.coreInputs x) = false
  timed : s.core.timingLost (s.coreInputs x) = false
  stays : (s.core.timingNext p.core (s.coreInputs x)).roundId = s.core.timing.roundId

end Definitions

variable {p : Parameters} {s : RxPath} {x : Inputs} {f g : RxBeat} {a b m : Move RxPath Inputs}
  {moves pre post : List (Move RxPath Inputs)}

-- The frame `f` that the parser takes for new in cycle `a`, after the cycles `pre` and before `b`.
structure Expected (p : Parameters) (pre : List (Move RxPath Inputs)) (a b : Move RxPath Inputs)
    (f : RxBeat) : Prop where
  single : p.buffer.slotBytes = 64
  peer : (rxNode f).toNat ≠ p.core.nodeId
  sound : a.before.core.protocol.currentSoundSet.getLsbD (rxNode f).toNat = true
  narrow : (rxRoundId64 f).toNat < 2 ^ 32
  fresh : ∀ c ∈ pre, ∀ g, parsed p c.before c.op = some g → rxNode g = rxNode f →
    rxRoundId64 g ≠ rxRoundId64 f
  steady : Steady p a.before a.op
  ready : room p a.before a.op = true
  stillReady : room p b.before b.op = true

def AllExpected (p : Parameters) (moves : List (Move RxPath Inputs)) : Prop :=
  ∀ pre a b post, moves = pre ++ a :: b :: post → ∀ f, parsed p a.before a.op = some f →
    a.before.rx.newPacket f = true → Expected p pre a b f

-- The core accepts a header in `b`, for the first time of this sender and round.
def FirstAccepted (p : Parameters) (pre : List (Move RxPath Inputs)) (b : Move RxPath Inputs) : Prop :=
  ∃ r, accepted p b.before b.op = some r ∧
    ∀ c ∈ pre, ∀ r', accepted p c.before c.op = some r' → r'.nodeId = r.nodeId → r'.roundId ≠ r.roundId

structure PayloadsExact (p : Parameters) (moves : List (Move RxPath Inputs)) (s : RxPath) : Prop where
  written : ∀ pre b post, moves = pre ++ b :: post →
    ((stored p b.before b.op).isSome = true ↔ FirstAccepted p pre b)
  payload : ∀ pre a b post, moves = pre ++ a :: b :: post → ∀ data, stored p b.before b.op = some data →
    ∃ f, a.op.beat = some f ∧ accepted p b.before b.op = some (headerRow p f) ∧
      data = (rxPayload f).setWidth 512
  slots : moves.filterMap (fun m => popped p m.before m.op) ++ CommitBuffer.held p.buffer s.buffer =
    (moves.filterMap (fun m => stored p m.before m.op)).map ([·])

section Parser

theorem takenIff : taken p s x = some f ↔
    parsed p s x = some f ∧ s.rx.newPacket f = true ∧ room p s x = true := by
  unfold taken parsed takenPacket
  cases opens : s.core.oRxWindow with
  | false => simp
  | true =>
    have same : (rxInputs p s x).commitInReady = room p s x := rfl
    cases ready : room p s x with
    | false => simp [same,ready]
    | true => simp [same,ready,Option.filter_eq_some_iff]

theorem takenNext (quiet : x.rst = false) (held : taken p s x = some f) :
    (next p s x).rx.commitInValid = true ∧ (next p s x).rx.commitInData = (rxPayload f).setWidth 512 ∧
      (next p s x).rx.commitInBe = BitVec.allOnes 64 ∧ (next p s x).rx.prevNode = rxNode f ∧
      (next p s x).rx.prevRoundId = rxRoundId64 f := by
  unfold taken at held
  split at held
  · rename_i opens
    simp only [next,ConsensusRx.next]
    rw [if_neg (by simp [rxInputs,quiet,opens]),held]
    exact ⟨rfl,rfl,rfl,rfl,rfl⟩
  · cases held

theorem untakenNext (quiet : x.rst = false) (ignored : taken p s x = none) :
    (next p s x).rx.commitInValid = false ∧
      ((next p s x).rx.prevNode = BitVec.allOnes 8 ∨
        (next p s x).rx.prevNode = s.rx.prevNode ∧ (next p s x).rx.prevRoundId = s.rx.prevRoundId) := by
  unfold taken at ignored
  split at ignored
  · rename_i opens
    simp only [next,ConsensusRx.next]
    rw [if_neg (by simp [rxInputs,quiet,opens]),ignored]
    refine ⟨rfl,Or.inr ?_⟩
    cases packet p.core.nodeCount p.core.nodeId (rxInputs p s x) <;> exact ⟨rfl,rfl⟩
  · rename_i closed
    simp only [next,ConsensusRx.next]
    rw [if_pos (by simp [rxInputs,closed])]
    exact ⟨rfl,Or.inl rfl⟩

theorem remembersTaken (ran : Ran (system p) moves s) :
    s.rx.prevNode = BitVec.allOnes 8 ∨ ∃ front c rest g, moves = front ++ c :: rest ∧
      taken p c.before c.op = some g ∧ s.rx.prevNode = rxNode g ∧ s.rx.prevRoundId = rxRoundId64 g := by
  induction ran with
  | start h =>
    rw [h]
    exact Or.inl rfl
  | @move moves s x s' before h ih =>
    obtain ⟨quiet,after⟩ := h
    rw [after]
    cases held : taken p s x with
    | some f =>
      obtain ⟨_,_,_,node,round⟩ := takenNext quiet held
      exact Or.inr ⟨moves,⟨s,x,next p s x⟩,[],f,rfl,held,node,round⟩
    | none =>
      obtain ⟨_,cleared | ⟨node,round⟩⟩ := untakenNext quiet held
      · exact Or.inl cleared
      · rw [node,round]
        obtain empty | ⟨front,c,rest,g,split,earlier,same⟩ := ih
        · exact Or.inl empty
        · exact Or.inr ⟨front,c,rest ++ [⟨s,x,next p s x⟩],g,by simp [split],earlier,same⟩

theorem parsedNode (held : parsed p s x = some f) : (rxNode f).toNat < p.core.nodeCount := by
  unfold parsed at held
  split at held
  · have passing := (Option.filter_eq_some_iff.mp held).2
    simp only [passes,Bool.and_eq_true,decide_eq_true_eq] at passing
    exact passing.1.1.1.2
  · cases held

end Parser

section Acceptance

theorem steadyNext (steady : Steady p s x) (quiet : x.rst = false)
    (running : s.core.protocol.state = .run) :
    (next p s x).core.protocol.state = .run ∧
      (next p s x).core.protocol.currentRunId = s.core.protocol.currentRunId ∧
      (next p s x).core.protocol.currentSoundSet = s.core.protocol.currentSoundSet ∧
      (next p s x).core.timing.roundId = s.core.timing.roundId := by
  have alive : (s.coreInputs x).rst = false := quiet
  have step := @ConsensusCore.tick p.core s.core (s.coreInputs x) (fun _ => steady.timed)
  have listens : s.core.protocolNext p.core (s.coreInputs x) = s.core.arrival p.core (s.coreInputs x) := by
    generalize s.core.protocolNext p.core (s.coreInputs x) = q at step
    cases step with
    | stopped down idle silent current previous => simp [steady.up,alive] at down
    | listened up alive quiet => rfl
    | installed up alive pulse fires => cases pulse.symm.trans steady.inside
    | excluded up alive pulse due without => cases pulse.symm.trans steady.inside
    | waited up alive pulse idle pending => cases pulse.symm.trans steady.inside
    | stayed up alive pulse undue still => cases pulse.symm.trans steady.inside
    | halted up alive pulse undue running halts => cases pulse.symm.trans steady.inside
    | shifted up alive pulse undue running passes => cases pulse.symm.trans steady.inside
  simp only [next,Core.next,listens]
  refine ⟨?_,?_,?_,steady.stays⟩
  · rw [ConsensusCore.arrivalState]
    exact running
  · rw [ConsensusCore.arrivalRunId]
  · rw [ConsensusCore.arrivalKeeps]

theorem parsedFields (speaks : s.core.AdvertisesRun) (held : parsed p s x = some f) :
    s.core.protocol.state = .run ∧ (rxRunId64 f).setWidth 32 = s.core.protocol.currentRunId ∧
      rxRoundId64 f = s.core.timing.roundId := by
  unfold parsed at held
  split at held
  · rename_i opens
    simp only [Core.oRxWindow,Core.protocolActive,Bool.and_eq_true,decide_eq_true_eq] at opens
    have passing := (Option.filter_eq_some_iff.mp held).2
    simp only [passes,Bool.and_eq_true,decide_eq_true_eq] at passing
    have run : rxRunId64 f = s.core.protocol.txRunId.setWidth 64 := passing.1.2
    refine ⟨opens.2,?_,passing.2⟩
    rw [run,BitVec.setWidth_setWidth_of_le _ (by omega),BitVec.setWidth_eq]
    exact speaks opens.2
  · cases held

theorem narrowRound (narrow : (rxRoundId64 f).toNat < 2 ^ 32) :
    (headerRow p f).roundId = rxRoundId64 f := by
  apply BitVec.eq_of_toNat_eq
  rw [headerRow,BitVec.toNat_setWidth,BitVec.toNat_setWidth]
  omega

theorem expectedAccepted (ran : Ran (system p) (pre ++ a :: b :: post) s)
    (held : parsed p a.before a.op = some f) (expected : Expected p pre a b f) :
    accepted p b.before b.op = some (headerRow p f) := by
  obtain ⟨before,⟨quiet,after⟩,_⟩ := ranAt ran
  have link := ranLink ran
  obtain ⟨running,runId,round⟩ := parsedFields (ranAdvertisesRun before) held
  obtain ⟨runs,sameRun,sameSet,sameRound⟩ := steadyNext expected.steady quiet running
  have inside := parsedNode held
  have narrow := narrowRound (p := p) expected.narrow
  have index : ((rxNode f).extractLsb' 0 3).toNat = (rxNode f).toNat := by
    have few := p.core.narrow
    rw [BitVec.extractLsb'_toNat]
    simp only [Nat.shiftRight_zero]
    omega
  rw [accepted,ConsensusCore.Core.rxAccepted,Option.filter_eq_some_iff]
  simp only [coreInputs]
  rw [link,after,presentedNext quiet,held]
  refine ⟨rfl,?_⟩
  simp only [Core.rxAccept,narrow,Bool.and_eq_true,decide_eq_true_eq]
  exact ⟨⟨⟨⟨⟨runs,inside⟩,expected.peer⟩,by rw [sameSet,headerRow,index]; exact expected.sound⟩,
    runId.trans sameRun.symm⟩,round.trans sameRound.symm⟩

end Acceptance

section Written

theorem storedNext (ran : Ran (system p) (pre ++ a :: b :: post) s)
    (held : taken p a.before a.op = some f) (expected : Expected p pre a b f) :
    stored p b.before b.op = some ((rxPayload f).setWidth 512) := by
  obtain ⟨_,⟨quiet,after⟩,_⟩ := ranAt ran
  have link := ranLink ran
  have ready : CommitBuffer.commitInReady p.buffer b.before.buffer (b.before.bufferInputs b.op) = true :=
    expected.stillReady
  obtain ⟨valid,data,enable,_⟩ := takenNext quiet held
  rw [← after,← link] at valid data enable
  have fire : CommitBuffer.commitInFire p.buffer b.before.buffer (b.before.bufferInputs b.op) = true := by
    rw [CommitBuffer.commitInFire,ready,Bool.and_true]
    exact valid
  rw [stored,CommitBuffer.stored,if_pos fire]
  simp only [bufferInputs,enable,data]
  exact congrArg some BitFields.writeAll

theorem unstoredNext (ran : Ran (system p) (pre ++ a :: b :: post) s)
    (ignored : taken p a.before a.op = none) : stored p b.before b.op = none := by
  obtain ⟨_,⟨quiet,after⟩,_⟩ := ranAt ran
  have invalid := (untakenNext quiet ignored).1
  rw [← after,← ranLink ran] at invalid
  simp [stored,CommitBuffer.stored,CommitBuffer.commitInFire,bufferInputs,invalid]

theorem repeatsTaken (ran : Ran (system p) (pre ++ a :: b :: post) s)
    (held : parsed p a.before a.op = some f) (old : a.before.rx.newPacket f = false) :
    ∃ front c d rest g, pre ++ a :: b :: post = front ++ c :: d :: rest ∧ d ∈ pre ++ [a] ∧
      taken p c.before c.op = some g ∧ rxNode g = rxNode f ∧ rxRoundId64 g = rxRoundId64 f := by
  simp only [newPacket,ne_eq,Bool.or_eq_false_iff,decide_eq_false_iff_not,not_not] at old
  obtain ⟨node,round⟩ := old
  obtain empty | ⟨front,c,rest,g,split,earlier,node',round'⟩ := remembersTaken (ranAt ran).1
  · have inside := parsedNode held
    have few := p.core.narrow
    rw [← node,empty] at inside
    have large : (BitVec.allOnes 8).toNat = 255 := by decide
    omega
  · subst split
    have sameNode := node'.symm.trans node
    have sameRound := round'.symm.trans round
    cases rest with
    | nil => exact ⟨front,c,a,b :: post,g,by simp,by simp,earlier,sameNode,sameRound⟩
    | cons d rest =>
      exact ⟨front,c,d,rest ++ a :: b :: post,g,by simp,by simp,earlier,sameNode,sameRound⟩

theorem takenExpected (all : AllExpected p (pre ++ a :: b :: post))
    (held : taken p a.before a.op = some f) : Expected p pre a b f :=
  all pre a b post rfl f (takenIff.mp held).1 (takenIff.mp held).2.1

theorem parsedNarrow (ran : Ran (system p) (pre ++ a :: b :: post) s)
    (all : AllExpected p (pre ++ a :: b :: post)) (held : parsed p a.before a.op = some f) :
    (rxRoundId64 f).toNat < 2 ^ 32 := by
  cases new : a.before.rx.newPacket f with
  | true => exact (all pre a b post rfl f held new).narrow
  | false =>
    obtain ⟨front,c,d,rest,g,split,_,earlier,_,round⟩ := repeatsTaken ran held new
    rw [split] at all
    rw [← round]
    exact (takenExpected all earlier).narrow

theorem acceptedSource {r : RxRow} (ran : Ran (system p) (pre ++ b :: post) s)
    (held : accepted p b.before b.op = some r) :
    ∃ front a f, pre = front ++ [a] ∧ parsed p a.before a.op = some f ∧ r = headerRow p f := by
  have arrived : b.before.rxRow = some r := (Option.filter_eq_some_iff.mp held).1
  cases pre using List.reverseRecOn with
  | nil =>
    have begins := (ranAt ran).1
    generalize none : ([] : List (Move RxPath Inputs)) = empty at begins
    cases begins with
    | start h =>
      rw [h] at arrived
      cases arrived
    | move before h => simp at none
  | append_singleton front a =>
    have whole : front ++ [a] ++ b :: post = front ++ a :: b :: post := by simp
    rw [whole] at ran
    obtain ⟨_,⟨quiet,after⟩,_⟩ := ranAt ran
    rw [ranLink ran,after,presentedNext quiet,Option.map_eq_some_iff] at arrived
    obtain ⟨f,parsing,same⟩ := arrived
    exact ⟨front,a,f,rfl,parsing,same.symm⟩

theorem expectedFirst (ran : Ran (system p) (pre ++ a :: b :: post) s)
    (all : AllExpected p (pre ++ a :: b :: post)) (held : parsed p a.before a.op = some f)
    (expected : Expected p pre a b f) : FirstAccepted p (pre ++ [a]) b := by
  refine ⟨headerRow p f,expectedAccepted ran held expected,?_⟩
  intro c member r' earlier node round
  obtain ⟨front,rest,split⟩ := List.append_of_mem member
  have whole : pre ++ a :: b :: post = front ++ c :: (rest ++ b :: post) := by
    rw [List.append_cons,split]
    simp
  have again : Ran (system p) (front ++ c :: (rest ++ b :: post)) s := whole ▸ ran
  obtain ⟨front',c',g,rfl,parsing,rfl⟩ := acceptedSource again earlier
  have inPre : c' ∈ pre := by
    have ends : front' ++ c' :: c :: rest = pre ++ [a] := by simp [split]
    have lists := congrArg List.dropLast ends
    rw [List.dropLast_concat] at lists
    rw [← lists,List.dropLast_append_of_ne_nil (by simp)]
    simp
  have pair : pre ++ a :: b :: post = front' ++ c' :: c :: (rest ++ b :: post) := by simp [whole]
  have narrow := parsedNarrow (pair ▸ ran) (pair ▸ all) parsing
  rw [narrowRound narrow,narrowRound expected.narrow] at round
  exact expected.fresh c' inPre g parsing node round

theorem repeatNotFirst (ran : Ran (system p) (pre ++ a :: b :: post) s)
    (all : AllExpected p (pre ++ a :: b :: post)) (held : parsed p a.before a.op = some f)
    (old : a.before.rx.newPacket f = false) : ¬ FirstAccepted p (pre ++ [a]) b := by
  rintro ⟨r,accepts,first⟩
  obtain ⟨front,c,d,rest,g,split,member,earlier,node,round⟩ := repeatsTaken ran held old
  have source := @acceptedSource p s b (pre ++ [a]) post r (by simpa using ran) accepts
  obtain ⟨front',a',f',ends,parsing,rfl⟩ := source
  obtain ⟨_,same⟩ := List.append_inj' ends rfl
  cases same
  cases held.symm.trans parsing
  have before := expectedAccepted (split ▸ ran) (takenIff.mp earlier).1 (takenExpected (split ▸ all) earlier)
  refine first d member (headerRow p g) before node ?_
  rw [headerRow,headerRow,round]

theorem unstoredFirst (ran : Ran (system p) (b :: post) s) : stored p b.before b.op = none := by
  have begins := (@ranAt _ _ _ [] post b s ran).1
  generalize empty : ([] : List (Move RxPath Inputs)) = before at begins
  cases begins with
  | start h =>
    have up : b.before = powerUp p := h
    simp [stored,CommitBuffer.stored,CommitBuffer.commitInFire,bufferInputs,up,powerUp]
  | move before h => simp at empty

theorem writtenIff (ran : Ran (system p) (pre ++ b :: post) s) (all : AllExpected p (pre ++ b :: post)) :
    (stored p b.before b.op).isSome = true ↔ FirstAccepted p pre b := by
  cases pre using List.reverseRecOn with
  | nil =>
    rw [unstoredFirst ran]
    refine ⟨nofun,?_⟩
    rintro ⟨r,accepts,_⟩
    obtain ⟨front,a,_,split,_⟩ := acceptedSource ran accepts
    simp at split
  | append_singleton front a =>
    have whole : front ++ [a] ++ b :: post = front ++ a :: b :: post := by simp
    have source : ∀ r, accepted p b.before b.op = some r → (parsed p a.before a.op).isSome = true := by
      intro r accepts
      obtain ⟨_,a',f,ends,parsing,_⟩ := acceptedSource ran accepts
      cases (List.append_inj' ends rfl).2
      rw [parsing]
      rfl
    rw [whole] at ran all
    cases held : parsed p a.before a.op with
    | none =>
      have ignored : taken p a.before a.op = none := by
        cases took : taken p a.before a.op with
        | none => rfl
        | some f => cases held.symm.trans (takenIff.mp took).1
      rw [unstoredNext ran ignored]
      refine ⟨nofun,?_⟩
      rintro ⟨r,accepts,_⟩
      have parses := source r accepts
      rw [held] at parses
      cases parses
    | some f =>
      cases new : a.before.rx.newPacket f with
      | true =>
        have expected := all front a b post rfl f held new
        have took := takenIff.mpr ⟨held,new,expected.ready⟩
        rw [storedNext ran took expected]
        exact ⟨fun _ => expectedFirst ran all held expected,fun _ => rfl⟩
      | false =>
        have ignored : taken p a.before a.op = none := by
          cases took : taken p a.before a.op with
          | none => rfl
          | some g =>
            obtain ⟨parses,isNew,_⟩ := takenIff.mp took
            cases held.symm.trans parses
            cases isNew.symm.trans new
        rw [unstoredNext ran ignored]
        exact ⟨nofun,fun first => absurd first (repeatNotFirst ran all held new)⟩

theorem payloadOf (ran : Ran (system p) (pre ++ a :: b :: post) s)
    (all : AllExpected p (pre ++ a :: b :: post)) {data : BitVec 512}
    (held : stored p b.before b.op = some data) :
    ∃ f, a.op.beat = some f ∧ accepted p b.before b.op = some (headerRow p f) ∧
      data = (rxPayload f).setWidth 512 := by
  cases took : taken p a.before a.op with
  | none => cases (unstoredNext ran took).symm.trans held
  | some f =>
    have expected := takenExpected all took
    have parsing := (takenIff.mp took).1
    have arrived : a.op.beat = some f := by
      unfold parsed at parsing
      split at parsing
      · exact (Option.filter_eq_some_iff.mp (Option.filter_eq_some_iff.mp parsing).1).1
      · cases parsing
    refine ⟨f,arrived,expectedAccepted ran parsing expected,?_⟩
    exact (Option.some.inj ((storedNext ran took expected).symm.trans held)).symm

end Written

section Slots

theorem ranRing (ran : Ran (system p) moves s) : CommitBuffer.Ring p.buffer s.buffer := by
  induction ran with
  | start h =>
    rw [h]
    exact CommitBuffer.ringStart
  | move before h ih =>
    rw [h.2]
    exact CommitBuffer.ringNext ih h.1

theorem slotsInOrder (ran : Ran (system p) moves s) :
    moves.filterMap (fun m => popped p m.before m.op) ++ CommitBuffer.held p.buffer s.buffer =
      moves.filterMap (fun m => pushed p m.before m.op) := by
  refine ranConserved (fun s => CommitBuffer.held p.buffer s.buffer) ?_ ?_ ran
  · intro s start
    rw [start]
    rfl
  · rintro pre m before ⟨quiet,after⟩
    rw [after]
    exact CommitBuffer.heldNext p.fits (ranRing before) quiet

theorem pushedAlone (ring : CommitBuffer.Ring p.buffer s.buffer) (single : p.buffer.slotBytes = 64) :
    pushed p s x = (stored p s x).map ([·]) := by
  have one : p.buffer.beatCount = 1 := by
    have whole := p.buffer.beatsWhole
    omega
  have index := ring.index
  have first : s.buffer.writeBeatIndex = 0 := by omega
  have begun : CommitBuffer.begun p.buffer s.buffer = [] := by simp [CommitBuffer.begun,first]
  have last : p.buffer.lastBeatIndex = 0 := by rw [CommitBuffer.Parameters.lastBeatIndex,one]
  have push : CommitBuffer.tailSlotPushFire p.buffer s.buffer (s.bufferInputs x) =
      CommitBuffer.commitInFire p.buffer s.buffer (s.bufferInputs x) := by
    simp [CommitBuffer.tailSlotPushFire,first,last]
  rw [pushed,CommitBuffer.pushed,push,begun,stored,CommitBuffer.stored]
  cases CommitBuffer.commitInFire p.buffer s.buffer (s.bufferInputs x) <;> rfl

theorem unpushed (silent : stored p s x = none) : pushed p s x = none := by
  cases fire : CommitBuffer.commitInFire p.buffer s.buffer (s.bufferInputs x) with
  | false => simp [pushed,CommitBuffer.pushed,CommitBuffer.tailSlotPushFire,fire]
  | true => simp [stored,CommitBuffer.stored,fire] at silent

theorem storedSingle (ran : Ran (system p) (pre ++ b :: post) s)
    (all : AllExpected p (pre ++ b :: post)) {data : BitVec 512}
    (held : stored p b.before b.op = some data) : p.buffer.slotBytes = 64 := by
  cases pre using List.reverseRecOn with
  | nil => cases (unstoredFirst ran).symm.trans held
  | append_singleton front a =>
    have whole : front ++ [a] ++ b :: post = front ++ a :: b :: post := by simp
    rw [whole] at ran all
    cases took : taken p a.before a.op with
    | none => cases (unstoredNext ran took).symm.trans held
    | some f => exact (takenExpected all took).single

end Slots

theorem payloadsExact (ran : Ran (system p) moves s) (all : AllExpected p moves) :
    PayloadsExact p moves s := by
  refine ⟨?_,?_,?_⟩
  · rintro pre b post rfl
    exact writtenIff ran all
  · rintro pre a b post rfl data held
    exact payloadOf ran all held
  · rw [slotsInOrder ran,List.map_filterMap]
    refine List.filterMap_congr ?_
    intro m member
    obtain ⟨pre,post,rfl⟩ := List.append_of_mem member
    cases held : stored p m.before m.op with
    | none => exact unpushed held
    | some data =>
      have alone := @pushedAlone p m.before m.op (ranRing (ranAt ran).1) (storedSingle ran all held)
      exact alone.trans (congrArg _ held)

section Runs

instance (p : Parameters) (s : RxPath) (x : Inputs) : Decidable (Steady p s x) :=
  decidable_of_iff (s.core.timing.roundStartPulse = false ∧
      s.core.protocolStop p.core (s.coreInputs x) = false ∧ s.core.timingLost (s.coreInputs x) = false ∧
      (s.core.timingNext p.core (s.coreInputs x)).roundId = s.core.timing.roundId)
    ⟨fun t => ⟨t.1,t.2.1,t.2.2.1,t.2.2.2⟩,fun t => ⟨t.1,t.2,t.3,t.4⟩⟩

def expectedBetween (p : Parameters) (pre : List (Move RxPath Inputs)) (a b : Move RxPath Inputs) : Bool :=
  (parsed p a.before a.op).all (fun f => !a.before.rx.newPacket f ||
    (p.buffer.slotBytes = 64 && (rxNode f).toNat ≠ p.core.nodeId &&
      a.before.core.protocol.currentSoundSet.getLsbD (rxNode f).toNat &&
      (rxRoundId64 f).toNat < 2 ^ 32 &&
      pre.all (fun c => (parsed p c.before c.op).all (fun g =>
        rxNode g ≠ rxNode f || rxRoundId64 g ≠ rxRoundId64 f)) &&
      decide (Steady p a.before a.op) && room p a.before a.op && room p b.before b.op))

theorem expectedCheck (held : pairwise (expectedBetween p) [] moves = true) : AllExpected p moves := by
  intro pre a b post split f parses new
  have checked := pairwiseSound held split
  simp only [expectedBetween,List.nil_append,parses,Option.all_some,new,Bool.not_true,Bool.false_or,
    Bool.and_eq_true,decide_eq_true_eq,List.all_eq_true] at checked
  obtain ⟨⟨⟨⟨⟨⟨⟨single,peer⟩,sound⟩,narrow⟩,fresh⟩,steady⟩,ready⟩,still⟩ := checked
  refine ⟨single,peer,sound,narrow,?_,steady,ready,still⟩
  intro c member g heard node round
  have apart := fresh c member
  simp [heard,node,round] at apart

def compact : Parameters where
  core := receiver.core
  buffer :=
    { slotBytes := 64, sized := CommitBuffer.Parameters.manyPopulated,
      whole := CommitBuffer.Parameters.manyWhole, binary := CommitBuffer.Parameters.manyRound,
      populated := CommitBuffer.Parameters.manyPopulated, round := CommitBuffer.Parameters.manyRound }
  fits := by decide

-- The row of node 2 for the round, with the sound bitmap {2} and another payload.
def secondRow : BitVec 512 := put (put (put oldLayout 176 4#8) 184 2#8) 504 9#8

-- The row of node 0, that of node 2 and a repeat of it; then one slot is taken.
def compactInputs : List Inputs :=
  (receiverInputs []) ++
    [receiverAt 10000 none (some ⟨oldLayout,true,1⟩),receiverAt 10400 none (some ⟨secondRow,true,1⟩),
      receiverAt 10800 none (some ⟨secondRow,true,1⟩),receiverAt 11200 none none,
      {receiverAt 11400 none none with popValid := true}]

theorem payloadsExactOnce : ∃ moves s, play compact compactInputs = .ok (moves,s) ∧
    moves.filterMap (fun m => stored compact m.before m.op) = [oldLayout,secondRow].map
      (fun row => (rxPayload ⟨row,true,1⟩).setWidth 512) ∧
    (moves.filterMap (fun m => popped compact m.before m.op)).length = 1 ∧
      PayloadsExact compact moves s := by
  have value : (play compact compactInputs).toOption.map (fun result =>
      pairwise (expectedBetween compact) [] result.1 &&
        decide (result.1.filterMap (fun m => stored compact m.before m.op) = [oldLayout,secondRow].map
          (fun row => (rxPayload ⟨row,true,1⟩).setWidth 512)) &&
        (result.1.filterMap (fun m => popped compact m.before m.op)).length = 1) = some true := by
    decide +kernel
  obtain ⟨⟨moves,s⟩,done,found⟩ := okFound value
  simp only [Bool.and_eq_true,decide_eq_true_eq] at found
  obtain ⟨⟨expected,rows⟩,taken⟩ := found
  exact ⟨moves,s,done,rows,taken,payloadsExact (playRan done) (expectedCheck expected)⟩

-- A frame that claims the id of the receiver itself.
def ownInputs : List Inputs := receiverInputs [some ⟨put oldLayout 184 1#8,true,1⟩,none]

theorem rejectedPayload : ∃ pre b s, Ran (system receiver) (pre ++ [b]) s ∧
    (stored receiver b.before b.op).isSome = true ∧ accepted receiver b.before b.op = none ∧
      ¬ PayloadsExact receiver (pre ++ [b]) s := by
  have value : (play receiver ownInputs).toOption.any (fun result =>
      (cut 14 result.1).any (fun parts => parts.2.2.isEmpty &&
        (stored receiver parts.2.1.before parts.2.1.op).isSome &&
        (accepted receiver parts.2.1.before parts.2.1.op).isNone)) = true := by
    decide +kernel
  obtain ⟨⟨moves,s⟩,done,found⟩ := (Option.any_eq_true _ _).mp value
  simp only [Option.any_eq_true,Bool.and_eq_true,List.isEmpty_iff,Option.isNone_iff_eq_none] at found
  obtain ⟨⟨pre,b,post⟩,split,⟨ends,written⟩,rejected⟩ := found
  have ran := playRan (okOption done)
  have last : post = [] := ends
  rw [cutIs split,last] at ran
  refine ⟨pre,b,_,ran,written,rejected,?_⟩
  intro exactly
  obtain ⟨r,accepts,_⟩ := (exactly.written pre b [] rfl).mp written
  cases rejected.symm.trans accepts

end Runs

end RxPath
end Syncons
