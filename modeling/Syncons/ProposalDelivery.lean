import Syncons.ProposalDmaReader

/-! The slots that are streamed to the transmit engine are the entries that the reader has
fetched, whole and in order, and no descriptor is aimed at a slot that is still queued. -/
namespace Syncons
open Runs

namespace ProposalDmaReader

variable {p : Parameters} {s q : ProposalDmaReader} {x : Inputs}

structure Untouched (p : Parameters) (s : ProposalDmaReader) (x : Inputs) (q : ProposalDmaReader) : Prop where
  state : q.state = s.state
  desc : q.desc = s.desc
  counter : q.entryCounter = s.entryCounter
  run : s.starts p x = false → q.run = s.run

theorem csrUntouched : Untouched p s x (s.csrNext p x) := by
  unfold csrNext
  cases written : s.csrWrite p x with
  | none => exact ⟨rfl,rfl,rfl,fun _ => rfl⟩
  | some write =>
    obtain ⟨register,data⟩ := write
    cases register with
    | control =>
      simp only [controlled]
      cases started : s.starts p x <;> cases data.getLsbD 1 <;> cases data.getLsbD 2 <;>
        constructor <;> simp [started]
    | addrLo => exact ⟨rfl,rfl,rfl,fun _ => rfl⟩
    | addrHi => exact ⟨rfl,rfl,rfl,fun _ => rfl⟩
    | strideLo => exact ⟨rfl,rfl,rfl,fun _ => rfl⟩
    | strideHi => exact ⟨rfl,rfl,rfl,fun _ => rfl⟩
    | count => exact ⟨rfl,rfl,rfl,fun _ => rfl⟩
    | readOnly => exact ⟨rfl,rfl,rfl,fun _ => rfl⟩
    | unmapped => exact ⟨rfl,rfl,rfl,fun _ => rfl⟩

structure Registers (p : Parameters) (s : ProposalDmaReader) (x : Inputs) (q : ProposalDmaReader) : Prop where
  offered : q.descValid =
    if s.state = .issueDma then decide (q.state = .waitDma) else s.descValid && !x.descReady
  commit : q.tailSlotCommit = decide (s.state = .commitSlot)
  counter : q.entryCounter = if s.state = .commitSlot then s.entryCounter + 1 else s.entryCounter

inductive Went (p : Parameters) (s : ProposalDmaReader) (x : Inputs) (q : ProposalDmaReader) : Prop where
  | rests (before : s.state = .idle ∨ s.state = .error) (state : q.state = .idle ∨ q.state = .issueDma)
      (ended : s.run = false → s.starts p x = false → q.run = false ∧ q.state = .idle)
  | stalls (before : s.state = .issueDma) (state : q.state = .issueDma)
  | issues (before : s.state = .issueDma) (room : x.tailSlotValid = true)
      (settled : s.tailSlotCommit = false) (state : q.state = .waitDma) (desc : q.desc = s.launched p x)
  | waits (before : s.state = .waitDma) (silent : s.statusMatch x = none) (state : q.state = .waitDma)
      (desc : q.desc = s.desc)
  | fails (before : s.state = .waitDma) (t : DmaStatus) (answer : s.statusMatch x = some t)
      (error : t.error ≠ 0) (state : q.state = .error) (run : q.run = false) (done : q.done = true)
      (flag : q.error = true)
  | succeeds (before : s.state = .waitDma) (t : DmaStatus) (answer : s.statusMatch x = some t)
      (fine : t.error = 0) (state : q.state = .commitSlot)
  | commits (before : s.state = .commitSlot) (state : q.state = .idle ∨ q.state = .issueDma)

theorem nextRegisters (quiet : x.rst = false) : Registers p s x (s.next p x) := by
  have alive : ¬ x.rst = true := by simp [quiet]
  obtain ⟨stays,_,counter,_⟩ := @csrUntouched p s x
  rw [next,if_neg alive]
  cases before : s.state with
  | idle =>
    simp only [idleNext]
    split
    · split <;> constructor <;> simp [before,counter]
    · constructor <;> simp [before,counter]
  | issueDma =>
    simp only [issueDmaNext]
    split
    · constructor <;> simp [before,counter]
    · constructor <;> simp [before,counter,stays]
  | waitDma =>
    simp only [waitDmaNext]
    split
    · constructor <;> simp [before,counter]
    · split <;> constructor <;> simp [before,counter]
  | commitSlot =>
    simp only [commitSlotNext]
    split <;> constructor <;> simp [before]
  | error => constructor <;> simp [before,counter]

theorem nextWent (quiet : x.rst = false) : Went p s x (s.next p x) := by
  have alive : ¬ x.rst = true := by simp [quiet]
  obtain ⟨stays,desc,_,run⟩ := @csrUntouched p s x
  rw [next,if_neg alive]
  cases before : s.state with
  | idle =>
    simp only [idleNext]
    split
    · rename_i running
      have ended : ¬ s.run = false := by simp [running]
      split
      · exact .rests (Or.inl before) (Or.inr rfl) (fun stopped => absurd stopped ended)
      · exact .rests (Or.inl before) (Or.inl (stays.trans before)) (fun stopped => absurd stopped ended)
    · refine .rests (Or.inl before) (Or.inl (stays.trans before)) ?_
      intro stopped unstarted
      exact ⟨(run unstarted).trans stopped,stays.trans before⟩
  | issueDma =>
    simp only [issueDmaNext]
    split
    · rename_i clear
      simp only [Bool.and_eq_true,Bool.not_eq_true'] at clear
      obtain ⟨⟨room,settled⟩,_⟩ := clear
      exact .issues before room settled rfl rfl
    · exact .stalls before (stays.trans before)
  | waitDma =>
    simp only [waitDmaNext]
    split
    · rename_i silent
      exact .waits before silent (stays.trans before) desc
    · rename_i t answer
      split
      · rename_i fine
        exact .succeeds before t answer fine rfl
      · rename_i error
        exact .fails before t answer error rfl rfl rfl rfl
  | commitSlot =>
    simp only [commitSlotNext]
    split
    · exact .commits before (Or.inl rfl)
    · exact .commits before (Or.inr rfl)
  | error =>
    refine .rests (Or.inr before) (Or.inl rfl) ?_
    intro stopped unstarted
    exact ⟨(run unstarted).trans stopped,rfl⟩

end ProposalDmaReader

namespace ProposalPath
open ProposalDmaReader (Went Registers)

variable {w : Nat} {p : Parameters w} {s : ProposalPath w} {x : Inputs w}

def filling (s : ProposalPath w) : Prop :=
  s.reader.state = .waitDma ∨ s.reader.state = .commitSlot ∨ s.reader.tailSlotCommit = true

/- The reader and the buffer agree on the slot that is being filled: it is the tail slot, and
the ring has room for it. -/
structure Coupled (p : Parameters w) (s : ProposalPath w) : Prop where
  ring : ProposalBuffer.Ring p.buffer s.buffer
  streams : ProposalBuffer.Streams p.buffer s.buffer
  offered : s.reader.descValid = true → s.reader.state = .waitDma
  flight : s.outstanding =
    if s.reader.state = .waitDma ∧ s.reader.descValid = false then [s.reader.desc] else []
  room : filling s → s.buffer.slotCount < p.buffer.slotCount
  unpulsed : s.reader.state = .waitDma ∨ s.reader.state = .commitSlot → s.reader.tailSlotCommit = false
  place : s.reader.state = .waitDma →
    s.reader.desc.ramAddr = ProposalBuffer.tailSlotAddr p.buffer s.buffer ∧
      s.reader.desc.len = p.buffer.slotBytes

theorem cellsCount (p : Parameters w) : p.buffer.cells = p.buffer.slotCount := by
  have several := p.several
  obtain round | single := p.buffer.cellsRound
  · exact round
  · omega

theorem slotBelow (p : Parameters w) {head i : Nat} :
    Rings.cell p.buffer.cells head i < p.buffer.slotCount := by
  have several := p.several
  rw [← cellsCount p]
  exact Rings.cellBound (by rw [cellsCount p]; omega)

theorem tailBelow (coupled : Coupled p s) : s.buffer.tailPtr < p.buffer.slotCount := by
  rw [coupled.ring.tail]
  exact slotBelow p

theorem acceptedOnly (coupled : Coupled p s) :
    accepted s x =
      if s.reader.state = .waitDma ∧ (s.reader.descValid && !x.descReady) = false then [s.reader.desc]
      else [] := by
  rw [accepted,coupled.flight]
  cases valid : s.reader.descValid with
  | false => simp
  | true => cases ready : x.descReady <;> simp [coupled.offered valid]

theorem acceptedState (coupled : Coupled p s) {d : Descriptor} (member : d ∈ accepted s x) :
    s.reader.state = .waitDma ∧ d = s.reader.desc := by
  rw [acceptedOnly coupled] at member
  split at member
  · rename_i waits
    exact ⟨waits.1,List.mem_singleton.mp member⟩
  · cases member

theorem sparedSlot (coupled : Coupled p s) (engine : Engine s x) {c : Nat} (inside : c < p.buffer.slotCount)
    (apart : s.reader.state = .waitDma → c ≠ s.buffer.tailPtr) :
    ProposalBuffer.Spared p.buffer s.buffer (s.bufferInputs x) c := by
  by_cases waits : s.reader.state = .waitDma
  · refine ProposalBuffer.sparedOthers inside (apart waits) ?_
    intro k member i lane enabled
    obtain ⟨d,under,above,below⟩ := engine.writes k member i lane enabled
    obtain ⟨_,rfl⟩ := acceptedState coupled under
    obtain ⟨place,len⟩ := coupled.place waits
    rw [place,ProposalBuffer.tailPlace (tailBelow coupled)] at above below
    rw [len] at below
    exact ⟨above,below⟩
  · intro j beat
    refine ProposalBuffer.ramOther ?_
    intro k member same i lane
    cases enabled : k.be.getLsbD i with
    | false => rfl
    | true =>
      obtain ⟨d,under,_⟩ := engine.writes k member i lane enabled
      exact absurd (acceptedState coupled under).1 waits

theorem tailApart (coupled : Coupled p s) (fills : filling s) {i : Nat} (queued : i < s.buffer.slotCount) :
    Rings.cell p.buffer.cells s.buffer.headPtr i ≠ s.buffer.tailPtr := by
  rw [coupled.ring.tail]
  refine Rings.cellApart queued ?_
  rw [cellsCount p]
  exact coupled.room fills

theorem sparedQueue (coupled : Coupled p s) (engine : Engine s x) :
    ∀ i < s.buffer.slotCount, ProposalBuffer.Spared p.buffer s.buffer (s.bufferInputs x)
      (Rings.cell p.buffer.cells s.buffer.headPtr i) := by
  intro i queued
  exact sparedSlot coupled engine (slotBelow p) (fun waits => tailApart coupled (Or.inl waits) queued)

theorem sparedTail (coupled : Coupled p s) (engine : Engine s x) (other : s.reader.state ≠ .waitDma) :
    ProposalBuffer.Spared p.buffer s.buffer (s.bufferInputs x) s.buffer.tailPtr :=
  sparedSlot coupled engine (tailBelow coupled) (fun waits => absurd waits other)

theorem tailKept (coupled : Coupled p s) (quiet : x.rst = false) (silent : s.reader.tailSlotCommit = false) :
    (next p s x).buffer.tailPtr = s.buffer.tailPtr ∧
      (next p s x).buffer.slotCount ≤ s.buffer.slotCount := by
  have alive : ¬ (s.bufferInputs x).rst = true := by simp [bufferInputs,quiet]
  have fire : ProposalBuffer.tailCommitFire p.buffer s.buffer (s.bufferInputs x) = false := by
    simp [ProposalBuffer.tailCommitFire,bufferInputs,silent]
  have count := ProposalBuffer.slotCountStep (x := s.bufferInputs x) coupled.ring coupled.streams
  rw [fire] at count
  rw [next,ProposalBuffer.next,if_neg alive,fire]
  simp only [Bool.false_eq_true,if_false,true_and] at count ⊢
  omega

theorem statusAnswers (coupled : Coupled p s) (engine : Engine s x) {t : DmaStatus}
    (status : x.status = some t) :
    s.reader.state = .waitDma ∧ (s.reader.descValid && !x.descReady) = false ∧
      accepted s x = [s.reader.desc] ∧ s.reader.desc.tag = t.tag ∧
      s.reader.statusMatch (readerInputs p s x) = some t := by
  obtain ⟨d,under,tag⟩ := engine.answers t status
  obtain ⟨waits,rfl⟩ := acceptedState coupled under
  rw [acceptedOnly coupled] at under ⊢
  split at under
  · rename_i clear
    refine ⟨waits,clear.2,if_pos clear,tag,?_⟩
    rw [ProposalDmaReader.statusMatch,readerInputs,status]
    simp [tag]
  · cases under

theorem statusNone (coupled : Coupled p s) (engine : Engine s x) (other : s.reader.state ≠ .waitDma) :
    x.status = none ∧ accepted s x = [] := by
  refine ⟨?_,?_⟩
  · cases status : x.status with
    | none => rfl
    | some t => exact absurd (statusAnswers coupled engine status).1 other
  · rw [acceptedOnly coupled]
    exact if_neg (fun waits => other waits.1)

theorem flightNext (coupled : Coupled p s) (engine : Engine s x) (quiet : x.rst = false) :
    (next p s x).outstanding =
      if (next p s x).reader.state = .waitDma ∧ (next p s x).reader.descValid = false then
        [(next p s x).reader.desc] else [] := by
  have alive : (readerInputs p s x).rst = false := quiet
  have registers : Registers p.reader s.reader (readerInputs p s x) (next p s x).reader :=
    ProposalDmaReader.nextRegisters alive
  have went : Went p.reader s.reader (readerInputs p s x) (next p s x).reader :=
    ProposalDmaReader.nextWent alive
  have offered := registers.offered
  have free : s.reader.state ≠ .waitDma → outstandingNext s x = [] := by
    intro other
    obtain ⟨status,none⟩ := statusNone coupled engine other
    rw [outstandingNext,status]
    exact none
  have ended : ∀ t, s.reader.statusMatch (readerInputs p s x) = some t → outstandingNext s x = [] := by
    intro t answer
    obtain ⟨status,_⟩ := Option.filter_eq_some_iff.mp answer
    obtain ⟨_,_,only,tag,_⟩ := statusAnswers coupled engine status
    have same : x.status = some t := status
    rw [outstandingNext,same,only]
    simp [tag]
  change outstandingNext s x = _
  cases went with
  | rests before state ended =>
    rw [free (by obtain rests | rests := before <;> simp [rests])]
    obtain state | state := state <;> simp [state]
  | stalls before state =>
    rw [free (by simp [before])]
    simp [state]
  | issues before room settled state desc =>
    rw [free (by simp [before]),if_neg]
    rw [offered]
    simp [before,state]
  | waits before silent state desc =>
    have status : x.status = none := by
      cases status : x.status with
      | none => rfl
      | some t => cases silent.symm.trans (statusAnswers coupled engine status).2.2.2.2
    rw [outstandingNext,status,offered,state,desc]
    change accepted s x = _
    rw [acceptedOnly coupled]
    simp [before,readerInputs]
  | fails before t answer error state run done flag =>
    rw [ended t answer]
    simp [state]
  | succeeds before t answer fine state =>
    rw [ended t answer]
    simp [state]
  | commits before state =>
    rw [free (by simp [before])]
    obtain state | state := state <;> simp [state]

theorem coupledNext (coupled : Coupled p s) (engine : Engine s x) (quiet : x.rst = false) :
    Coupled p (next p s x) := by
  have alive : (readerInputs p s x).rst = false := quiet
  have registers : Registers p.reader s.reader (readerInputs p s x) (next p s x).reader :=
    ProposalDmaReader.nextRegisters alive
  have went : Went p.reader s.reader (readerInputs p s x) (next p s x).reader :=
    ProposalDmaReader.nextWent alive
  have spared := sparedQueue coupled engine
  have pulse := registers.commit
  -- A slot that is being filled after the cycle was the tail before it, and still is.
  have source : filling (next p s x) →
      s.reader.tailSlotCommit = false ∧ s.buffer.slotCount < p.buffer.slotCount := by
    intro fills
    cases went with
    | rests before state ended =>
      have still : (next p s x).reader.tailSlotCommit = false := by
        rw [pulse]
        obtain rests | rests := before <;> simp [rests]
      obtain state | state := state <;> simp [filling,state,still] at fills
    | stalls before state =>
      simp [filling,state,pulse,before] at fills
    | issues before room settled state desc =>
      have bound := coupled.ring.bound
      have valid : ProposalBuffer.tailSlotValid p.buffer s.buffer = true := room
      simp only [ProposalBuffer.tailSlotValid,ProposalBuffer.bufferFull,Bool.not_eq_true',
        decide_eq_false_iff_not] at valid
      exact ⟨settled,by omega⟩
    | waits before silent state desc => exact ⟨coupled.unpulsed (Or.inl before),coupled.room (Or.inl before)⟩
    | fails before t answer error state run done flag =>
      exact ⟨coupled.unpulsed (Or.inl before),coupled.room (Or.inl before)⟩
    | succeeds before t answer fine state =>
      exact ⟨coupled.unpulsed (Or.inl before),coupled.room (Or.inl before)⟩
    | commits before state =>
      exact ⟨coupled.unpulsed (Or.inr before),coupled.room (Or.inr (Or.inl before))⟩
  refine ⟨ProposalBuffer.ringNext coupled.ring coupled.streams quiet,
    ProposalBuffer.streamsNext coupled.ring coupled.streams quiet spared,?_,
    flightNext coupled engine quiet,?_,?_,?_⟩
  · intro valid
    have offered := registers.offered
    rw [valid] at offered
    split at offered
    · simpa using offered.symm
    · rename_i other
      have valid : s.reader.descValid = true ∧ (readerInputs p s x).descReady = false := by
        simpa using offered.symm
      have waits := coupled.offered valid.1
      have unheld : ∀ t, s.reader.statusMatch (readerInputs p s x) = some t → False := by
        intro t answer
        obtain ⟨status,_⟩ := Option.filter_eq_some_iff.mp answer
        cases offered.trans (statusAnswers coupled engine status).2.1
      cases went with
      | rests before state ended => obtain rests | rests := before <;> simp [rests] at waits
      | stalls before state => exact absurd before other
      | issues before room settled state desc => exact state
      | waits before silent state desc => exact state
      | fails before t answer error state run done flag => exact (unheld t answer).elim
      | succeeds before t answer fine state => exact (unheld t answer).elim
      | commits before state => simp [before] at waits
  · intro fills
    obtain ⟨silent,room⟩ := source fills
    exact Nat.lt_of_le_of_lt (tailKept coupled quiet silent).2 room
  · intro under
    rw [pulse]
    cases went with
    | rests before state ended => obtain rests | rests := before <;> simp [rests]
    | stalls before state => simp [before]
    | issues before room settled state desc => simp [before]
    | waits before silent state desc => simp [before]
    | fails before t answer error state run done flag => simp [before]
    | succeeds before t answer fine state => simp [before]
    | commits before state => obtain state | state := state <;> simp [state] at under
  · intro waiting
    have tail := (tailKept (x := x) coupled quiet (source (Or.inl waiting)).1).1
    have same : ProposalBuffer.tailSlotAddr p.buffer (next p s x).buffer =
        ProposalBuffer.tailSlotAddr p.buffer s.buffer := by
      rw [ProposalBuffer.tailSlotAddr,tail,ProposalBuffer.tailSlotAddr]
    rw [same]
    cases went with
    | rests before state ended => obtain state | state := state <;> simp [state] at waiting
    | stalls before state => simp [state] at waiting
    | issues before room settled state desc =>
      rw [desc]
      refine ⟨rfl,?_⟩
      have short := p.short
      change p.reader.proposalSlotBytes % 2 ^ p.reader.dmaLenWidth = p.buffer.slotBytes
      rw [p.sameSlots,p.sameLen]
      exact Nat.mod_eq_of_lt short
    | waits before silent state desc =>
      rw [desc]
      exact coupled.place before
    | fails before t answer error state run done flag => simp [state] at waiting
    | succeeds before t answer fine state => simp [state] at waiting
    | commits before state => obtain state | state := state <;> simp [state] at waiting

theorem coupledStart : Coupled p (start p) := by
  have several := p.several
  have some : 0 < p.buffer.cells := Nat.two_pow_pos _
  refine ⟨⟨some,(Rings.cellZero some).symm,Nat.zero_le _⟩,.idle rfl rfl rfl rfl rfl,?_,rfl,?_,?_,?_⟩
  · exact fun valid => absurd valid nofun
  · intro _
    change 0 < p.buffer.slotCount
    omega
  · exact fun _ => rfl
  · exact fun waits => absurd waits nofun

theorem ranCoupled {moves : List (Move (ProposalPath w) (Inputs w))} (ran : Ran (system p) moves s) :
    Coupled p s := by
  induction ran with
  | start h =>
    rw [h]
    exact coupledStart
  | move before h ih =>
    obtain ⟨quiet,engine,after⟩ := h
    rw [after]
    exact coupledNext ih engine quiet

section Events

variable (p : Parameters w) (m : Move (ProposalPath w) (Inputs w))

def streamed : Option (BitVec (8 * w) × Bool) :=
  ProposalBuffer.streamed m.before.buffer (m.before.bufferInputs m.op)

def popped : Option (List (BitVec (8 * w))) :=
  ProposalBuffer.popped p.buffer m.before.buffer (m.before.bufferInputs m.op)

def slotAt (ram : Nat → BitVec (8 * w)) (d : Descriptor) : List (BitVec (8 * w)) :=
  (List.range (d.len / w)).map (fun j => ram (d.ramAddr / w + j))

def answered : Option (DmaStatus × Descriptor) := do
  let t ← m.op.status
  let d ← (accepted m.before m.op).find? (fun d => d.tag = t.tag)
  return (t,d)

def payload : Option (List (BitVec (8 * w))) :=
  ((answered m).filter (fun a => a.1.error = 0)).map (fun a => slotAt m.after.buffer.ram a.2)

def failed : Bool := (answered m).any (fun a => a.1.error ≠ 0)

def issued : Option Descriptor :=
  if m.before.reader.descValid && m.op.descReady then some m.before.reader.desc else none

def starts : Bool := m.before.reader.starts p.reader (readerInputs p m.before m.op)

def underway (s : ProposalPath w) : List (List (BitVec (8 * w))) :=
  if s.reader.state = .commitSlot ∨ s.reader.tailSlotCommit = true then
    [ProposalBuffer.slotRows p.buffer s.buffer.ram s.buffer.tailPtr]
  else []

def queued (s : ProposalPath w) : List (List (BitVec (8 * w))) :=
  ProposalBuffer.held p.buffer s.buffer ++ underway p s

end Events

section Delivery

variable {m : Move (ProposalPath w) (Inputs w)} {moves pre post : List (Move (ProposalPath w) (Inputs w))}

theorem slotAtTail (coupled : Coupled p s) (waits : s.reader.state = .waitDma) (ram : Nat → BitVec (8 * w)) :
    slotAt ram s.reader.desc = ProposalBuffer.slotRows p.buffer ram s.buffer.tailPtr := by
  obtain ⟨place,len⟩ := coupled.place waits
  have inside := tailBelow coupled
  have fits : p.buffer.slotCount * p.buffer.beatCount ≤ 2 ^ p.buffer.rowAddrWidth := by
    refine CommitBuffer.Parameters.fitsRows ?_
    rw [CommitBuffer.Parameters.Fits,Nat.mul_comm]
    exact p.buffer.fits
  have some := p.buffer.someBytes
  rw [slotAt,len,place,ProposalBuffer.tailPlace inside,← p.buffer.beatsWhole,← Nat.mul_assoc,
    Nat.mul_div_cancel _ some,Nat.mul_div_cancel _ some]
  refine List.map_congr_left ?_
  intro j member
  rw [Rings.rowBelow fits inside (List.mem_range.mp member)]

theorem answeredIs (coupled : Coupled p s) (engine : Engine s x) :
    answered ⟨s,x,next p s x⟩ = x.status.map (fun t => (t,s.reader.desc)) := by
  cases status : x.status with
  | none => simp [answered,status]
  | some t =>
    obtain ⟨_,_,only,tag,_⟩ := statusAnswers coupled engine status
    simp [answered,status,only,tag]

theorem payloadIs (coupled : Coupled p s) (engine : Engine s x) {t : DmaStatus} (status : x.status = some t) :
    payload ⟨s,x,next p s x⟩ =
      if t.error = 0 then some (slotAt (next p s x).buffer.ram s.reader.desc) else none := by
  rw [payload,answeredIs coupled engine,status,Option.map_some,Option.filter_some]
  by_cases fine : t.error = 0 <;> simp [fine]

-- An entry is under way from the success of its read to the commit of its slot.
theorem underwayNext (coupled : Coupled p s) (engine : Engine s x) (quiet : x.rst = false) :
    (ProposalBuffer.entered p.buffer s.buffer (s.bufferInputs x)).toList ++ underway p (next p s x) =
      underway p s ++ (payload ⟨s,x,next p s x⟩).toList := by
  have alive : (readerInputs p s x).rst = false := quiet
  have registers : Registers p.reader s.reader (readerInputs p s x) (next p s x).reader :=
    ProposalDmaReader.nextRegisters alive
  have went : Went p.reader s.reader (readerInputs p s x) (next p s x).reader :=
    ProposalDmaReader.nextWent alive
  have ram : (next p s x).buffer.ram = ProposalBuffer.ramNext s.buffer (s.bufferInputs x) := by
    have alive : ¬ (s.bufferInputs x).rst = true := by simp [bufferInputs,quiet]
    rw [next,ProposalBuffer.next,if_neg alive]
  have unanswered : s.reader.state ≠ .waitDma → payload ⟨s,x,next p s x⟩ = none := by
    intro other
    rw [payload,answeredIs coupled engine,(statusNone coupled engine other).1]
    rfl
  have pulse := registers.commit
  cases commit : s.reader.tailSlotCommit with
  | true =>
    have other : s.reader.state ≠ .waitDma ∧ s.reader.state ≠ .commitSlot := by
      refine ⟨?_,?_⟩
      · intro waits
        cases commit.symm.trans (coupled.unpulsed (Or.inl waits))
      · intro commits
        cases commit.symm.trans (coupled.unpulsed (Or.inr commits))
    have room := coupled.room (Or.inr (Or.inr commit))
    have fire : ProposalBuffer.tailCommitFire p.buffer s.buffer (s.bufferInputs x) = true := by
      simp [ProposalBuffer.tailCommitFire,ProposalBuffer.bufferFull,bufferInputs,commit,Nat.ne_of_lt room]
    have still : underway p (next p s x) = [] := by
      have unfetched : (next p s x).reader.state ≠ .commitSlot := by
        cases went with
        | rests before state ended => obtain state | state := state <;> simp [state]
        | stalls before state => simp [state]
        | issues before room settled state desc => simp [state]
        | waits before silent state desc => simp [state]
        | fails before t answer error state run done flag => simp [state]
        | succeeds before t answer fine state => exact absurd before other.1
        | commits before state => obtain state | state := state <;> simp [state]
      simp [underway,unfetched,pulse,other.2]
    rw [still,unanswered other.1,ProposalBuffer.entered,if_pos fire,underway,if_pos (Or.inr commit)]
    rfl
  | false =>
    have fire : ProposalBuffer.tailCommitFire p.buffer s.buffer (s.bufferInputs x) = false := by
      simp [ProposalBuffer.tailCommitFire,bufferInputs,commit]
    have tail := (tailKept (x := x) coupled quiet commit).1
    have unentered : ProposalBuffer.entered p.buffer s.buffer (s.bufferInputs x) = none := by
      simp [ProposalBuffer.entered,fire]
    rw [unentered,Option.toList_none,List.nil_append]
    have idle : s.reader.state ≠ .waitDma → s.reader.state ≠ .commitSlot →
        (next p s x).reader.state ≠ .commitSlot →
        underway p (next p s x) = underway p s ++ (payload ⟨s,x,next p s x⟩).toList := by
      intro unwaiting uncommitted later
      rw [unanswered unwaiting]
      simp [underway,later,pulse,uncommitted,commit]
    cases went with
    | rests before state ended =>
      refine idle ?_ ?_ ?_
      · obtain rests | rests := before <;> simp [rests]
      · obtain rests | rests := before <;> simp [rests]
      · obtain state | state := state <;> simp [state]
    | stalls before state => exact idle (by simp [before]) (by simp [before]) (by simp [state])
    | issues before room settled state desc =>
      exact idle (by simp [before]) (by simp [before]) (by simp [state])
    | waits before silent state desc =>
      have status : x.status = none := by
        cases status : x.status with
        | none => rfl
        | some t => cases silent.symm.trans (statusAnswers coupled engine status).2.2.2.2
      rw [payload,answeredIs coupled engine,status]
      simp [underway,state,pulse,before,commit]
    | fails before t answer error state run done flag =>
      obtain ⟨status,_⟩ := Option.filter_eq_some_iff.mp answer
      rw [payloadIs coupled engine status,if_neg error]
      simp [underway,state,pulse,before,commit]
    | succeeds before t answer fine state =>
      obtain ⟨status,_⟩ := Option.filter_eq_some_iff.mp answer
      rw [payloadIs coupled engine status,if_pos fine,slotAtTail coupled before]
      simp [underway,state,before,commit,tail]
    | commits before state =>
      have same : ProposalBuffer.slotRows p.buffer (next p s x).buffer.ram s.buffer.tailPtr =
          ProposalBuffer.slotRows p.buffer s.buffer.ram s.buffer.tailPtr := by
        rw [ram]
        exact Rings.slotSame (sparedTail coupled engine (by simp [before]))
      rw [unanswered (by simp [before])]
      simp [underway,pulse,before,tail,same]

theorem queuedNext (coupled : Coupled p s) (engine : Engine s x) (quiet : x.rst = false) :
    (popped p ⟨s,x,next p s x⟩).toList ++ queued p (next p s x) =
      queued p s ++ (payload ⟨s,x,next p s x⟩).toList := by
  have held := ProposalBuffer.heldNext (x := s.bufferInputs x) coupled.ring coupled.streams quiet
    (sparedQueue coupled engine)
  have kept : ProposalBuffer.tailCommitFire p.buffer s.buffer (s.bufferInputs x) = true →
      ProposalBuffer.Spared p.buffer s.buffer (s.bufferInputs x) s.buffer.tailPtr := by
    intro fire
    refine sparedTail coupled engine ?_
    intro waits
    have silent := coupled.unpulsed (Or.inl waits)
    simp [ProposalBuffer.tailCommitFire,bufferInputs,silent] at fire
  calc (popped p ⟨s,x,next p s x⟩).toList ++ queued p (next p s x)
      = ((popped p ⟨s,x,next p s x⟩).toList ++ ProposalBuffer.held p.buffer (next p s x).buffer) ++
          underway p (next p s x) := by rw [queued,List.append_assoc]
    _ = (ProposalBuffer.held p.buffer s.buffer ++
          (ProposalBuffer.entered p.buffer s.buffer (s.bufferInputs x)).toList) ++
          underway p (next p s x) := congrArg (· ++ _) (held kept)
    _ = ProposalBuffer.held p.buffer s.buffer ++ (underway p s ++ (payload ⟨s,x,next p s x⟩).toList) := by
        rw [List.append_assoc,underwayNext coupled engine quiet]
    _ = queued p s ++ (payload ⟨s,x,next p s x⟩).toList := by rw [queued,List.append_assoc]

theorem ranQueued (ran : Ran (system p) moves s) :
    moves.filterMap (popped p) ++ queued p s = moves.filterMap payload := by
  refine ranConserved (queued p) ?_ ?_ ran
  · intro s start
    rw [start]
    rfl
  · rintro pre ⟨s,x,s'⟩ before ⟨quiet,engine,after⟩
    have after : s' = next p s x := after
    subst after
    exact queuedNext (ranCoupled before) engine quiet

-- The beats that were taken are those of the popped slots, and the first ones of the head slot.
theorem ranGathered (ran : Ran (system p) moves s) :
    Gathered.ofBeats (moves.filterMap streamed) =
      ⟨moves.filterMap (popped p),ProposalBuffer.begun p.buffer s.buffer⟩ := by
  induction ran with
  | start h =>
    rw [h]
    rfl
  | @move moves s x s' before h ih =>
    obtain ⟨quiet,engine,after⟩ := h
    have coupled := ranCoupled before
    have grows := ProposalBuffer.gatheredNext (x := s.bufferInputs x) coupled.ring coupled.streams quiet
      (sparedQueue coupled engine) (moves.filterMap (popped p))
    have beat : [(⟨s,x,s'⟩ : Move (ProposalPath w) (Inputs w))].filterMap streamed =
        (ProposalBuffer.streamed s.buffer (s.bufferInputs x)).toList := by
      simp only [List.filterMap_cons,List.filterMap_nil,streamed]
      cases ProposalBuffer.streamed s.buffer (s.bufferInputs x) <;> rfl
    have slot : [(⟨s,x,s'⟩ : Move (ProposalPath w) (Inputs w))].filterMap (popped p) =
        (ProposalBuffer.popped p.buffer s.buffer (s.bufferInputs x)).toList := by
      simp only [List.filterMap_cons,List.filterMap_nil,popped]
      cases ProposalBuffer.popped p.buffer s.buffer (s.bufferInputs x) <;> rfl
    rw [Gathered.ofBeats] at ih ⊢
    rw [List.filterMap_append,List.foldl_append,ih,beat,grows,List.filterMap_append,slot,after]
    rfl

-- The descriptors are answered in the order in which they were accepted, each once.
theorem ranAnswered (ran : Ran (system p) moves s) :
    moves.filterMap (fun m => (answered m).map Prod.snd) ++ s.outstanding = moves.filterMap issued := by
  refine ranConserved ProposalPath.outstanding ?_ ?_ ran
  · intro s start
    rw [start]
    rfl
  · rintro pre ⟨s,x,s'⟩ before ⟨quiet,engine,after⟩
    have after : s' = next p s x := after
    subst after
    have coupled : Coupled p s := ranCoupled before
    have engine : Engine s x := engine
    have taken : s.outstanding ++ (issued ⟨s,x,next p s x⟩).toList = accepted s x := by
      cases fire : s.reader.descValid && x.descReady <;> simp [issued,accepted,fire]
    rw [taken,answeredIs coupled engine]
    change _ ++ outstandingNext s x = accepted s x
    cases status : x.status with
    | none => simp [outstandingNext,status]
    | some t =>
      obtain ⟨_,_,only,tag,_⟩ := statusAnswers coupled engine status
      simp [outstandingNext,status,only,tag]

section Counting

structure Accounted (p : Parameters w) (moves : List (Move (ProposalPath w) (Inputs w)))
    (s : ProposalPath w) : Prop where
  entries : s.reader.entryCounter + (if s.reader.state = .commitSlot then 1 else 0) =
    BitVec.ofNat 32 (moves.filterMap payload).length
  slots : (moves.filterMap (popped p)).length + s.buffer.slotCount + (underway p s).length =
    (moves.filterMap payload).length
  head : s.buffer.headPtr = (moves.filterMap (popped p)).length % p.buffer.slotCount
  tail : s.buffer.tailPtr =
    ((moves.filterMap (popped p)).length + s.buffer.slotCount) % p.buffer.slotCount

theorem singleLength {α : Type} (f : Move (ProposalPath w) (Inputs w) → Option α) :
    (moves ++ [m]).filterMap f = moves.filterMap f ++ (f m).toList := by
  rw [List.filterMap_append]
  cases value : f m <;> simp [value]

theorem entriesNext (coupled : Coupled p s) (engine : Engine s x) (quiet : x.rst = false) :
    (next p s x).reader.entryCounter + (if (next p s x).reader.state = .commitSlot then 1 else 0) =
      s.reader.entryCounter + (if s.reader.state = .commitSlot then 1 else 0) +
        BitVec.ofNat 32 (payload ⟨s,x,next p s x⟩).toList.length := by
  have alive : (readerInputs p s x).rst = false := quiet
  have registers : Registers p.reader s.reader (readerInputs p s x) (next p s x).reader :=
    ProposalDmaReader.nextRegisters alive
  have went : Went p.reader s.reader (readerInputs p s x) (next p s x).reader :=
    ProposalDmaReader.nextWent alive
  have unanswered : x.status = none → payload ⟨s,x,next p s x⟩ = none := by
    intro status
    rw [payload,answeredIs coupled engine,status]
    rfl
  rw [registers.counter]
  cases went with
  | rests before state ended =>
    have other : s.reader.state ≠ .waitDma ∧ s.reader.state ≠ .commitSlot := by
      obtain rests | rests := before <;> simp [rests]
    rw [unanswered (statusNone coupled engine other.1).1]
    obtain state | state := state <;> simp [state,other.2]
  | stalls before state =>
    rw [unanswered (statusNone coupled engine (by simp [before])).1]
    simp [before,state]
  | issues before room settled state desc =>
    rw [unanswered (statusNone coupled engine (by simp [before])).1]
    simp [before,state]
  | waits before silent state desc =>
    have status : x.status = none := by
      cases status : x.status with
      | none => rfl
      | some t => cases silent.symm.trans (statusAnswers coupled engine status).2.2.2.2
    rw [unanswered status]
    simp [before,state]
  | fails before t answer error state run done flag =>
    obtain ⟨status,_⟩ := Option.filter_eq_some_iff.mp answer
    rw [payloadIs coupled engine status,if_neg error]
    simp [before,state]
  | succeeds before t answer fine state =>
    obtain ⟨status,_⟩ := Option.filter_eq_some_iff.mp answer
    rw [payloadIs coupled engine status,if_pos fine]
    simp [before,state]
  | commits before state =>
    rw [unanswered (statusNone coupled engine (by simp [before])).1]
    obtain state | state := state <;> simp [before,state]

theorem ranAccounted (ran : Ran (system p) moves s) : Accounted p moves s := by
  have coupled := ranCoupled ran
  have lengths := congrArg List.length (ranQueued ran)
  have slots : (moves.filterMap (popped p)).length + s.buffer.slotCount + (underway p s).length =
      (moves.filterMap payload).length := by
    rw [← lengths,List.length_append,queued,List.length_append,ProposalBuffer.held,Rings.queueLength,
      Nat.add_assoc]
  have entries : s.reader.entryCounter + (if s.reader.state = .commitSlot then 1 else 0) =
      BitVec.ofNat 32 (moves.filterMap payload).length := by
    clear coupled lengths slots
    induction ran with
    | start h =>
      rw [h]
      rfl
    | move before h ih =>
      obtain ⟨quiet,engine,after⟩ := h
      rw [after,entriesNext (ranCoupled before) engine quiet,ih,singleLength,List.length_append,
        BitVec.ofNat_add]
  have head : s.buffer.headPtr = (moves.filterMap (popped p)).length % p.buffer.slotCount := by
    clear coupled lengths slots entries
    induction ran with
    | start h =>
      rw [h]
      exact (Nat.zero_mod _).symm
    | @move moves s x s' before h ih =>
      obtain ⟨quiet,_,after⟩ := h
      have alive : ¬ (s.bufferInputs x).rst = true := by simp [bufferInputs,quiet]
      have later : s'.buffer.headPtr = if s.buffer.headPopFire (s.bufferInputs x) then
          (s.buffer.headPtr + 1) % p.buffer.slotCount else s.buffer.headPtr := by
        rw [after,next,ProposalBuffer.next,if_neg alive,cellsCount p]
      rw [later,singleLength,List.length_append,popped,ProposalBuffer.popped]
      cases s.buffer.headPopFire (s.bufferInputs x) with
      | false => simpa using ih
      | true => simp [ih]
  refine ⟨entries,slots,head,?_⟩
  rw [coupled.ring.tail,cellsCount p,Rings.cell,head,Nat.mod_add_mod]

end Counting

section Failing

structure Failure (p : Parameters w) (m : Move (ProposalPath w) (Inputs w)) : Prop where
  counter : m.after.reader.entryCounter = m.before.reader.entryCounter
  tail : m.after.buffer.tailPtr = m.before.buffer.tailPtr
  slots : m.after.buffer.slotCount + (popped p m).toList.length = m.before.buffer.slotCount
  run : m.after.reader.run = false
  done : m.after.reader.done = true
  error : m.after.reader.error = true
  state : m.after.reader.state = .error

theorem failure (coupled : Coupled p s) (engine : Engine s x) (quiet : x.rst = false)
    (bad : failed ⟨s,x,next p s x⟩ = true) : Failure p ⟨s,x,next p s x⟩ := by
  have alive : (readerInputs p s x).rst = false := quiet
  have registers : Registers p.reader s.reader (readerInputs p s x) (next p s x).reader :=
    ProposalDmaReader.nextRegisters alive
  have went : Went p.reader s.reader (readerInputs p s x) (next p s x).reader :=
    ProposalDmaReader.nextWent alive
  rw [failed,answeredIs coupled engine,Option.any_map,Option.any_eq_true] at bad
  obtain ⟨t,status,error⟩ := bad
  have error : t.error ≠ 0 := by simpa using error
  obtain ⟨waits,_,_,_,answer⟩ := statusAnswers coupled engine status
  have silent := coupled.unpulsed (Or.inl waits)
  have fire : ProposalBuffer.tailCommitFire p.buffer s.buffer (s.bufferInputs x) = false := by
    simp [ProposalBuffer.tailCommitFire,bufferInputs,silent]
  have count := ProposalBuffer.slotCountStep (x := s.bufferInputs x) coupled.ring coupled.streams
  have slots : (next p s x).buffer.slotCount + (popped p ⟨s,x,next p s x⟩).toList.length =
      s.buffer.slotCount := by
    have alive : ¬ (s.bufferInputs x).rst = true := by simp [bufferInputs,quiet]
    have later : (next p s x).buffer.slotCount =
        ProposalBuffer.slotCountNext p.buffer s.buffer (s.bufferInputs x) := by
      rw [next,ProposalBuffer.next,if_neg alive]
    rw [fire,if_neg Bool.false_ne_true,Nat.add_zero] at count
    rw [later,← count,popped,ProposalBuffer.popped]
    cases s.buffer.headPopFire (s.bufferInputs x) <;> rfl
  have ended : (next p s x).reader.run = false ∧ (next p s x).reader.done = true ∧
      (next p s x).reader.error = true ∧ (next p s x).reader.state = .error := by
    cases went with
    | rests before state ended => obtain rests | rests := before <;> simp [rests] at waits
    | stalls before state => simp [before] at waits
    | issues before room settled state desc => simp [before] at waits
    | waits before silent state desc => cases silent.symm.trans answer
    | fails before t' answer' error' state run done flag => exact ⟨run,done,flag,state⟩
    | succeeds before t' answer' fine state =>
      cases answer.symm.trans answer'
      exact absurd fine error
    | commits before state => simp [before] at waits
  have counter := registers.counter
  rw [if_neg (by simp [waits])] at counter
  exact ⟨counter,(tailKept coupled quiet silent).1,slots,ended.1,ended.2.1,ended.2.2.1,ended.2.2.2⟩

def Resting (s : ProposalPath w) : Prop :=
  s.reader.run = false ∧ (s.reader.state = .idle ∨ s.reader.state = .error)

theorem restingNext (rests : Resting s) (quiet : x.rst = false)
    (unstarted : starts p ⟨s,x,next p s x⟩ = false) : Resting (next p s x) := by
  have alive : (readerInputs p s x).rst = false := quiet
  have went : Went p.reader s.reader (readerInputs p s x) (next p s x).reader :=
    ProposalDmaReader.nextWent alive
  obtain ⟨stopped,state⟩ := rests
  cases went with
  | rests before state ended =>
    obtain ⟨run,idle⟩ := ended stopped unstarted
    exact ⟨run,Or.inl idle⟩
  | stalls before _ => simp [before] at state
  | issues before room settled _ desc => simp [before] at state
  | waits before silent _ desc => simp [before] at state
  | fails before t answer error _ run done flag => simp [before] at state
  | succeeds before t answer fine _ => simp [before] at state
  | commits before _ => simp [before] at state

theorem restingUnaccepted (coupled : Coupled p s) (rests : Resting s) :
    s.reader.descValid = false ∧ accepted s x = [] := by
  have other : s.reader.state ≠ .waitDma := by
    obtain ⟨_,state⟩ := rests
    obtain state | state := state <;> simp [state]
  refine ⟨?_,?_⟩
  · cases valid : s.reader.descValid with
    | false => rfl
    | true => exact absurd (coupled.offered valid) other
  · rw [acceptedOnly coupled]
    exact if_neg (fun waits => other waits.1)

theorem ranEnded {mid : List (Move (ProposalPath w) (Inputs w))} (ran : Ran (system p) (pre ++ m :: mid) s)
    (bad : failed m = true) (unstarted : ∀ a ∈ mid, starts p a = false) : Resting s := by
  have onwards := @ranOnwards _ _ _ _ _ _ _ (fun a b => Resting a → Resting b) (fun _ rests => rests)
    (fun _ _ _ first second rests => second (first rests)) ran
  obtain ⟨before,⟨quiet,engine,after⟩,_⟩ := ranAt ran
  obtain ⟨s,x,s'⟩ := m
  have after : s' = next p s x := after
  subst after
  have facts := failure (ranCoupled before) engine quiet bad
  refine onwards ?_ ⟨facts.run,Or.inr facts.state⟩
  rintro a ⟨s,x,s'⟩ b rfl _ ⟨quiet,_,after⟩ rests
  have after : s' = next p s x := after
  subst after
  exact restingNext rests quiet (unstarted _ (by simp))

end Failing

def Presented (s : ProposalPath w) (d : Descriptor) : Prop :=
  s.reader.descValid = true ∧ d = s.reader.desc ∨ d ∈ s.outstanding

/- A whole slot of the ring, which is not queued for transmission. -/
def FreeSlot (p : Parameters w) (b : ProposalBuffer w) (d : Descriptor) : Prop :=
  ∃ c < p.buffer.slotCount, d.ramAddr = c * p.buffer.slotBytes ∧ d.len = p.buffer.slotBytes ∧
    ∀ i < b.slotCount, Rings.cell p.buffer.slotCount b.headPtr i ≠ c

theorem presentedFree (coupled : Coupled p s) {d : Descriptor} (shown : Presented s d) :
    FreeSlot p s.buffer d := by
  have waits : s.reader.state = .waitDma ∧ d = s.reader.desc := by
    obtain ⟨valid,same⟩ | member := shown
    · exact ⟨coupled.offered valid,same⟩
    · exact @acceptedState w p s {} coupled d (List.mem_append_left _ member)
  obtain ⟨waits,rfl⟩ := waits
  obtain ⟨place,len⟩ := coupled.place waits
  rw [ProposalBuffer.tailPlace (tailBelow coupled)] at place
  refine ⟨s.buffer.tailPtr,tailBelow coupled,place,len,?_⟩
  rw [← cellsCount p]
  intro i queued
  exact tailApart coupled (Or.inl waits) queued

structure LosslessFifo (p : Parameters w) (moves : List (Move (ProposalPath w) (Inputs w)))
    (s : ProposalPath w) : Prop where
  whole : (Gathered.ofBeats (moves.filterMap streamed)).slots ++ queued p s = moves.filterMap payload
  part : (Gathered.ofBeats (moves.filterMap streamed)).part <+: (queued p s).headD []
  ordered : moves.filterMap (fun m => (answered m).map Prod.snd) ++ s.outstanding =
    moves.filterMap issued
  aimed : ∀ m ∈ moves, ∀ d, Presented m.before d → FreeSlot p m.before.buffer d
  heeded : ∀ m ∈ moves, m.before.reader.tailSlotCommit = true →
    ProposalBuffer.bufferFull p.buffer m.before.buffer = false
  accounted : Accounted p moves s
  failures : ∀ m ∈ moves, failed m = true → Failure p m
  ended : ∀ pre m mid n post, moves = pre ++ m :: mid ++ n :: post → failed m = true →
    (∀ a ∈ mid, starts p a = false) → n.before.reader.run = false ∧
      n.before.reader.descValid = false ∧ accepted n.before n.op = []

theorem begunHead (coupled : Coupled p s) :
    ProposalBuffer.begun p.buffer s.buffer <+: (queued p s).headD [] := by
  have index : s.buffer.slotCount = 0 → s.buffer.txBeatIndex = 0 := by
    intro empty
    cases coupled.streams with
    | idle state index valid command reads => exact index
    | asks state queued index valid command reads addr => omega
    | fetches state queued index valid command reads => omega
    | offers state queued index valid command reads data last => omega
  rw [ProposalBuffer.begun]
  cases count : s.buffer.slotCount with
  | zero =>
    rw [index count]
    exact List.nil_prefix
  | succ rest =>
    rw [queued,ProposalBuffer.held,count,Rings.queuePop coupled.ring.head]
    exact List.take_prefix _ _

theorem losslessFifo (ran : Ran (system p) moves s) : LosslessFifo p moves s := by
  have gathered := ranGathered ran
  refine ⟨?_,?_,ranAnswered ran,?_,?_,ranAccounted ran,?_,?_⟩
  · rw [gathered]
    exact ranQueued ran
  · rw [gathered]
    exact begunHead (ranCoupled ran)
  · intro m member d shown
    obtain ⟨pre,post,rfl⟩ := List.append_of_mem member
    exact presentedFree (ranCoupled (ranAt ran).1) shown
  · intro m member pulse
    obtain ⟨pre,post,rfl⟩ := List.append_of_mem member
    have room := (ranCoupled (ranAt ran).1).room (Or.inr (Or.inr pulse))
    simp [ProposalBuffer.bufferFull,Nat.ne_of_lt room]
  · intro m member bad
    obtain ⟨pre,post,rfl⟩ := List.append_of_mem member
    obtain ⟨before,⟨quiet,engine,after⟩,_⟩ := ranAt ran
    obtain ⟨s,x,s'⟩ := m
    have after : s' = next p s x := after
    subst after
    exact failure (ranCoupled before) engine quiet bad
  · rintro pre m mid n post rfl bad unstarted
    have before := (ranAt ran).1
    have rests := ranEnded before bad unstarted
    obtain ⟨unoffered,free⟩ := restingUnaccepted (x := n.op) (ranCoupled before) rests
    exact ⟨rests.1,unoffered,free⟩

end Delivery

section Session

def answersAll (s : ProposalPath w) (x : Inputs w) : Bool :=
  x.status.all (fun t => (accepted s x).any (fun d => d.tag = t.tag)) &&
    x.ramWrites.all (fun c => (List.range w).all (fun i => !c.be.getLsbD i ||
      (accepted s x).any (fun d => d.ramAddr ≤ c.addr * w + i && c.addr * w + i < d.ramAddr + d.len)))

theorem answersEngine (good : answersAll s x = true) : Engine s x := by
  simp only [answersAll,Bool.and_eq_true] at good
  obtain ⟨answers,writes⟩ := good
  refine ⟨?_,?_⟩
  · intro t status
    rw [status,Option.all_some,List.any_eq_true] at answers
    obtain ⟨d,under,tag⟩ := answers
    exact ⟨d,under,by simpa using tag⟩
  · intro c member i lane enabled
    have lanes := List.all_eq_true.mp (List.all_eq_true.mp writes c member) i (List.mem_range.mpr lane)
    rw [enabled,Bool.not_true,Bool.false_or,List.any_eq_true] at lanes
    obtain ⟨d,under,within⟩ := lanes
    simp only [Bool.and_eq_true,decide_eq_true_eq] at within
    exact ⟨d,under,within⟩

def cycle (p : Parameters w) (s : ProposalPath w) (x : Inputs w) : Except Unit (ProposalPath w) :=
  if !x.rst && answersAll s x then .ok (next p s x) else .error ()

def play (p : Parameters w) (inputs : List (Inputs w)) :
    Except Unit (List (Move (ProposalPath w) (Inputs w)) × ProposalPath w) :=
  record (cycle p) inputs (start p)

theorem playRan {inputs : List (Inputs w)} {moves : List (Move (ProposalPath w) (Inputs w))}
    (done : play p inputs = .ok (moves,s)) : Ran (system p) moves s := by
  refine recordRan ?_ (.start rfl) done
  intro x _ s s' fits
  cases legal : !x.rst && answersAll s x with
  | true =>
    rw [cycle,if_pos legal,Except.ok.injEq] at fits
    simp only [Bool.and_eq_true,Bool.not_eq_true'] at legal
    exact ⟨legal.1,answersEngine legal.2,fits.symm⟩
  | false =>
    rw [cycle,legal] at fits
    cases fits

def tiny : Parameters 1 where
  reader := {proposalSlotBytes := 2, limit := by decide, binary := CommitBuffer.Parameters.twoRound}
  buffer :=
    { slotBytes := 2, slotCount := 2, sized := CommitBuffer.Parameters.twoPopulated, whole := by decide,
      binary := CommitBuffer.Parameters.twoRound, populated := CommitBuffer.Parameters.twoPopulated,
      round := CommitBuffer.Parameters.twoRound, fits := by decide, expressible := by decide,
      pointed := by decide }
  sameSlots := rfl
  sameLen := rfl
  several := by decide
  short := by decide

def hostWrite (addr : BitVec 24) (data : BitVec 32) : List (Inputs 1) :=
  [{regWr := some ⟨addr,data⟩},{}]

def fetched (r : Nat) (first second : BitVec 8) (tag : Nat) (error : BitVec 4) : List (Inputs 1) :=
  [{descReady := true,ramWrites := [⟨r,1,first⟩]},{status := some ⟨tag,error⟩,ramWrites := [⟨r + 1,1,second⟩]}]

def silence : Inputs 1 := {}

-- A batch of two, of which the second read fails; the first one is streamed out.
def tinyInputs : List (Inputs 1) :=
  hostWrite 0x114 2 ++ hostWrite 0x118 1 ++ [silence] ++ fetched 0 7 8 0 0 ++
    [silence,silence,silence] ++ fetched 2 9 10 1 3 ++ List.replicate 8 {silence with rdReady := true}

theorem losslessFifoOnce : ∃ moves s, play tiny tinyInputs = .ok (moves,s) ∧
    moves.filterMap streamed = [(7,false),(8,true)] ∧ moves.filterMap payload = [[7,8]] ∧
      moves.any failed = true ∧ LosslessFifo tiny moves s := by
  have value : (play tiny tinyInputs).toOption.map (fun result =>
      decide (result.1.filterMap streamed = [(7,false),(8,true)]) &&
        (decide (result.1.filterMap payload = [[7,8]]) && result.1.any failed)) = some true := by
    decide +kernel
  obtain ⟨⟨moves,s⟩,done,found⟩ := okFound value
  simp only [Bool.and_eq_true,decide_eq_true_eq] at found
  obtain ⟨beats,slots,bad⟩ := found
  exact ⟨moves,s,done,beats,slots,bad,losslessFifo (playRan done)⟩

end Session

end ProposalPath
end Syncons
