import Syncons.CommitDmaWriter

/-! Delivery to the host. Every slot that enters the commit buffer is written to the next
place of the active host buffer, and leaves once that write has succeeded. -/
namespace Syncons
open Runs

namespace CommitDmaWriter

variable {p : Parameters} {s q : CommitDmaWriter} {x : Inputs} {b : Bool}

section Commands

def settled (p : Parameters) (s : CommitDmaWriter) (x : Inputs) (b : Bool) : HostBuffer :=
  s.commanded b (s.bufWritten p x b (s.buf b))

def pulsed (h : HostBuffer) : Bool := h.armPulse || h.clearPulse

theorem writtenKeeps :
    (s.bufWritten p x b (s.buf b)).armed = (s.buf b).armed ∧
      (s.bufWritten p x b (s.buf b)).done = (s.buf b).done ∧
      (s.bufWritten p x b (s.buf b)).completedCount = (s.buf b).completedCount := by
  unfold bufWritten
  cases s.csrWrite p x with
  | none => exact ⟨rfl,rfl,rfl⟩
  | some w =>
    obtain ⟨r,data⟩ := w
    cases r with
    | addrLo b' => by_cases same : b' = b <;> simp [same]
    | addrHi b' => by_cases same : b' = b <;> simp [same]
    | slotCapacity b' => by_cases same : b' = b <;> simp [same]
    | bufControl b' => by_cases same : b' = b <;> simp [same]
    | _ => exact ⟨rfl,rfl,rfl⟩

theorem writtenArmed (keeps : s.Respects p x) (armed : (s.buf b).armed = true) :
    (s.bufWritten p x b (s.buf b)).addr = (s.buf b).addr ∧
      (s.bufWritten p x b (s.buf b)).slotCapacity = (s.buf b).slotCapacity ∧
      s.strideNext p x = s.stride := by
  unfold bufWritten strideNext
  unfold Respects at keeps
  cases written : s.csrWrite p x with
  | none => exact ⟨rfl,rfl,rfl⟩
  | some w =>
    obtain ⟨r,data⟩ := w
    rw [written] at keeps
    cases r with
    | addrLo b' =>
      have other : b' ≠ b := by rintro rfl; cases armed.symm.trans keeps
      simp [other]
    | addrHi b' =>
      have other : b' ≠ b := by rintro rfl; cases armed.symm.trans keeps
      simp [other]
    | slotCapacity b' =>
      have other : b' ≠ b := by rintro rfl; cases armed.symm.trans keeps
      simp [other]
    | bufControl b' => by_cases same : b' = b <;> simp [same]
    | strideLo => cases armed.symm.trans (keeps b)
    | strideHi => cases armed.symm.trans (keeps b)
    | control => exact ⟨rfl,rfl,rfl⟩
    | other => exact ⟨rfl,rfl,rfl⟩

theorem writtenPulsed (keeps : s.Respects p x) (pulse : pulsed (s.bufWritten p x b (s.buf b)) = true) :
    (s.csrWrite p x).isSome = true ∧ (s.activeBuf = b → (s.buf b).armed = false) := by
  unfold bufWritten at pulse
  unfold Respects at keeps
  cases written : s.csrWrite p x with
  | none => simp [written,pulsed] at pulse
  | some w =>
    refine ⟨rfl,?_⟩
    obtain ⟨r,data⟩ := w
    rw [written] at keeps pulse
    cases r with
    | addrLo b' => by_cases same : b' = b <;> simp [same,pulsed] at pulse
    | addrHi b' => by_cases same : b' = b <;> simp [same,pulsed] at pulse
    | slotCapacity b' => by_cases same : b' = b <;> simp [same,pulsed] at pulse
    | bufControl b' =>
      by_cases same : b' = b
      · subst same
        exact keeps (by simpa [pulsed] using pulse)
      · simp [same,pulsed] at pulse
    | strideLo => simp [pulsed] at pulse
    | strideHi => simp [pulsed] at pulse
    | control => simp [pulsed] at pulse
    | other => simp [pulsed] at pulse

structure Settled (s : CommitDmaWriter) (b : Bool) (written h : HostBuffer) : Prop where
  armed : h.armed = ((s.buf b).armed || (s.buf b).armPulse)
  done : h.done = ((s.buf b).done && !pulsed (s.buf b))
  count : h.completedCount = if pulsed (s.buf b) then 0 else (s.buf b).completedCount
  addr : h.addr = written.addr
  capacity : h.slotCapacity = written.slotCapacity
  pulses : pulsed h = pulsed written

theorem settledFacts : Settled s b (s.bufWritten p x b (s.buf b)) (settled p s x b) := by
  obtain ⟨armed,done,count⟩ := @writtenKeeps p s x b
  unfold settled commanded
  cases clear : (s.buf b).clearPulse <;> cases arm : (s.buf b).armPulse <;>
    constructor <;> simp [cleared,pulsed,clear,arm,armed,done,count]

end Commands

section Transitions

structure Registers (p : Parameters) (s : CommitDmaWriter) (x : Inputs) (q : CommitDmaWriter) : Prop where
  ack : q.wrAck = (s.csrWrite p x).isSome
  stride : q.stride = s.strideNext p x
  offers : q.descValid = decide (q.state = .issueDma)
  pops : q.popValid = decide (q.state = .popSlot)

inductive Went (p : Parameters) (s : CommitDmaWriter) (x : Inputs) (q : CommitDmaWriter) : Prop where
  | parked (from' : s.state ≠ .waitDma ∧ s.state ≠ .popSlot) (unsent : s.descFire x = false)
      (state : q.state = .idle ∨ q.state = .waitBuffer) (buf : q.buf = settled p s x)
      (active : q.activeBuf = s.activeBuf)
  | listens (from' : s.state = .waitBuffer ∨ s.state = .waitSlot) (ready : s.activeBufReady = true)
      (state : q.state = .waitSlot) (buf : q.buf = settled p s x) (active : q.activeBuf = s.activeBuf)
  | launches (from' : s.state = .waitSlot) (ready : s.activeBufReady = true)
      (head : x.headSlotValid = true) (state : q.state = .issueDma) (desc : q.desc = s.launched p x)
      (buf : q.buf = settled p s x) (active : q.activeBuf = s.activeBuf)
  | offers (from' : s.state = .issueDma) (unsent : s.descFire x = false) (state : q.state = .issueDma)
      (desc : q.desc = s.desc) (buf : q.buf = settled p s x) (active : q.activeBuf = s.activeBuf)
  | sends (from' : s.state = .issueDma) (sent : s.descFire x = true) (state : q.state = .waitDma)
      (desc : q.desc = s.desc) (buf : q.buf = settled p s x) (active : q.activeBuf = s.activeBuf)
  | waits (from' : s.state = .waitDma) (silent : statusMatch p x = false) (state : q.state = .waitDma)
      (desc : q.desc = s.desc) (buf : q.buf = settled p s x) (active : q.activeBuf = s.activeBuf)
  | fails (from' : s.state = .waitDma) (answer : statusMatch p x = true)
      (error : statusError p x = true) (state : q.state = .error)
      (buf : q.buf = Function.update (settled p s x) s.activeBuf
        {settled p s x s.activeBuf with errorCount := s.active.errorCount + 1})
      (active : q.activeBuf = s.activeBuf)
  | succeeds (from' : s.state = .waitDma) (answer : statusMatch p x = true)
      (fine : statusError p x = false) (state : q.state = .popSlot) (desc : q.desc = s.desc)
      (buf : q.buf = settled p s x) (active : q.activeBuf = s.activeBuf)
  | counts (from' : s.state = .popSlot)
      (more : s.active.completedCount + 1 < s.active.slotCapacity) (state : q.state = .waitSlot)
      (buf : q.buf = Function.update (settled p s x) s.activeBuf
        {settled p s x s.activeBuf with completedCount := s.active.completedCount + 1})
      (active : q.activeBuf = s.activeBuf)
  | fills (from' : s.state = .popSlot)
      (full : s.active.slotCapacity ≤ s.active.completedCount + 1) (state : q.state = .waitBuffer)
      (buf : q.buf = Function.update (settled p s x) s.activeBuf
        {settled p s x s.activeBuf with
          completedCount := s.active.completedCount + 1, done := true, armed := false})
      (active : q.activeBuf = !s.activeBuf)

theorem nextRegisters (quiet : x.rst = false) (offers : s.descValid = decide (s.state = .issueDma))
    (pops : s.popValid = decide (s.state = .popSlot)) : Registers p s x (s.next p x) := by
  unfold next
  rw [if_neg (by simp [quiet])]
  generalize kept : s.commands x (s.csrNext p x) = q
  have ack : q.wrAck = (s.csrWrite p x).isSome := by rw [← kept]; rfl
  have stride : q.stride = s.strideNext p x := by rw [← kept]; rfl
  have stays : q.state = s.state := by rw [← kept]; rfl
  have valid : q.descValid = (s.descValid && !s.descFire x) := by rw [← kept]; rfl
  have popping : q.popValid = s.popValid := by rw [← kept]; rfl
  cases from' : s.state with
  | idle =>
    simp only [idleNext]
    split <;> constructor <;> simp [ack,stride,stays,from']
  | waitBuffer =>
    simp only [waitBufferNext]
    split
    · constructor <;> simp [ack,stride]
    · split <;> constructor <;> simp [ack,stride,stays,from']
  | waitSlot =>
    have still : q.descValid = false ∧ q.popValid = false := by
      rw [valid,popping,offers,pops]
      simp [from']
    simp only [waitSlotNext]
    split
    · constructor <;> simp [ack,stride,still]
    · split
      · constructor <;> simp [ack,stride,still]
      · split <;> constructor <;> simp [ack,stride,still,stays,from']
  | issueDma =>
    have still : q.popValid = false := by
      rw [popping,pops]
      simp [from']
    simp only [issueDmaNext]
    split
    · constructor <;> simp [ack,stride,still]
    · rename_i held
      have held : s.descFire x = false := by simpa using held
      split <;> constructor <;> simp [ack,stride,still,stays,from',valid,offers,held]
  | waitDma =>
    have still : q.descValid = false ∧ q.popValid = false := by
      rw [valid,popping,offers,pops]
      simp [from']
    simp only [waitDmaNext]
    split
    · split <;> constructor <;> simp [ack,stride,still]
    · constructor <;> simp [ack,stride,still,stays,from']
  | popSlot =>
    have still : q.descValid = false := by
      rw [valid,offers]
      simp [from']
    simp only [popSlotNext]
    split <;> constructor <;> simp [ack,stride,still]
  | error => constructor <;> simp [errorNext,ack,stride]

theorem nextWent (quiet : x.rst = false) (offers : s.descValid = decide (s.state = .issueDma)) :
    Went p s x (s.next p x) := by
  have settles : (s.commands x (s.csrNext p x)).buf = settled p s x := rfl
  unfold next
  rw [if_neg (by simp [quiet])]
  generalize kept : s.commands x (s.csrNext p x) = q at settles
  have active : q.activeBuf = s.activeBuf := by rw [← kept]; rfl
  have desc : q.desc = s.desc := by rw [← kept]; rfl
  have stays : q.state = s.state := by rw [← kept]; rfl
  have unsent : s.state ≠ .issueDma → s.descFire x = false := by
    intro other
    simp [descFire,offers,other]
  cases from' : s.state with
  | idle =>
    have silent := unsent (by simp [from'])
    simp only [idleNext]
    split
    · exact .parked (by simp [from']) silent (Or.inr rfl) settles active
    · exact .parked (by simp [from']) silent (Or.inl (stays.trans from')) settles active
  | waitBuffer =>
    have silent := unsent (by simp [from'])
    simp only [waitBufferNext]
    split
    · exact .parked (by simp [from']) silent (Or.inl rfl) settles active
    · split
      · rename_i ready
        exact .listens (Or.inl from') ready rfl settles active
      · exact .parked (by simp [from']) silent (Or.inr (stays.trans from')) settles active
  | waitSlot =>
    have silent := unsent (by simp [from'])
    simp only [waitSlotNext]
    split
    · exact .parked (by simp [from']) silent (Or.inl rfl) settles active
    · split
      · exact .parked (by simp [from']) silent (Or.inr rfl) settles active
      · rename_i ready
        have ready : s.activeBufReady = true := by simpa using ready
        split
        · rename_i head
          exact .launches from' ready head rfl rfl settles active
        · exact .listens (Or.inr from') ready (stays.trans from') settles active
  | issueDma =>
    simp only [issueDmaNext]
    split
    · rename_i sent
      exact .sends from' sent rfl desc settles active
    · rename_i held
      have held : s.descFire x = false := by simpa using held
      split
      · exact .parked (by simp [from']) held (Or.inl rfl) settles active
      · exact .offers from' held (stays.trans from') desc settles active
  | waitDma =>
    simp only [waitDmaNext]
    split
    · rename_i answer
      split
      · rename_i error
        refine .fails from' answer error rfl ?_ active
        rw [← settles]
      · rename_i fine
        exact .succeeds from' answer (by simpa using fine) rfl desc settles active
    · rename_i silent
      exact .waits from' (by simpa using silent) (stays.trans from') desc settles active
  | popSlot =>
    simp only [popSlotNext]
    split
    · rename_i full
      refine .fills from' full rfl ?_ rfl
      rw [← settles]
      simp
    · rename_i more
      refine .counts from' (BitVec.not_le.mp more) rfl ?_ active
      rw [← settles]
  | error =>
    exact .parked (by simp [from']) (unsent (by simp [from'])) (Or.inl rfl) settles active

end Transitions

section Buffers

def WriterState.delivers (state : WriterState) : Prop :=
  state = .issueDma ∨ state = .waitDma ∨ state = .popSlot

structure Sane (s : CommitDmaWriter) : Prop where
  ready : s.state = .waitSlot ∨ WriterState.delivers s.state → s.activeBufReady = true
  undone : ∀ b, (s.buf b).armed = true → (s.buf b).done = false
  below : ∀ b, (s.buf b).armed = true →
    (s.buf b).completedCount = 0 ∨ (s.buf b).completedCount < (s.buf b).slotCapacity
  fresh : ∀ b, (s.buf b).armed = true → b ≠ s.activeBuf → (s.buf b).completedCount = 0
  acked : ∀ b, pulsed (s.buf b) = true → s.wrAck = true
  early : pulsed s.active = true → s.active.armed = true →
    s.state = .waitBuffer ∧ s.active.completedCount = 0

theorem settledUndone (sane : Sane s) (armed : (settled p s x b).armed = true) : (settled p s x b).done = false := by
  have facts := @settledFacts p s x b
  rw [facts.armed,Bool.or_eq_true] at armed
  rw [facts.done]
  obtain old | arm := armed
  · simp [sane.undone b old]
  · simp [pulsed,arm]

theorem settledBelow (sane : Sane s) (keeps : s.Respects p x)
    (armed : (settled p s x b).armed = true) :
    (settled p s x b).completedCount = 0 ∨
      (settled p s x b).completedCount < (settled p s x b).slotCapacity := by
  have facts := @settledFacts p s x b
  rw [facts.armed,Bool.or_eq_true] at armed
  rw [facts.count,facts.capacity]
  obtain old | arm := armed
  · rw [(writtenArmed keeps old).2.1]
    split
    · exact Or.inl rfl
    · exact sane.below b old
  · simp [pulsed,arm]

theorem settledFresh (sane : Sane s) (armed : (settled p s x b).armed = true)
    (other : b ≠ s.activeBuf) :
    (settled p s x b).completedCount = 0 := by
  have facts := @settledFacts p s x b
  rw [facts.armed,Bool.or_eq_true] at armed
  rw [facts.count]
  obtain old | arm := armed
  · simp [sane.fresh b old other]
  · simp [pulsed,arm]

theorem settledPulsed (sane : Sane s) (keeps : s.Respects p x)
    (pulse : pulsed (settled p s x b) = true) :
    (s.csrWrite p x).isSome = true ∧ (s.activeBuf = b → (settled p s x b).armed = false) := by
  have facts := @settledFacts p s x b
  rw [facts.pulses] at pulse
  obtain ⟨write,unarmed⟩ := writtenPulsed keeps pulse
  refine ⟨write,?_⟩
  intro same
  rw [facts.armed,unarmed same,Bool.false_or]
  cases arm : (s.buf b).armPulse with
  | false => rfl
  | true =>
    have acked := sane.acked b (by simp [pulsed,arm])
    simp [csrWrite,acked] at write

theorem settledActive (sane : Sane s) (keeps : s.Respects p x) (ready : s.activeBufReady = true)
    (past : s.state ≠ .waitBuffer) :
    (settled p s x s.activeBuf).armed = true ∧
      (settled p s x s.activeBuf).completedCount = s.active.completedCount ∧
      (settled p s x s.activeBuf).slotCapacity = s.active.slotCapacity ∧
      (settled p s x s.activeBuf).addr = s.active.addr ∧ s.strideNext p x = s.stride := by
  have facts := @settledFacts p s x s.activeBuf
  simp only [activeBufReady,Bool.and_eq_true] at ready
  have armed : (s.buf s.activeBuf).armed = true := ready.1
  obtain ⟨addr,capacity,stride⟩ := writtenArmed keeps armed
  have quiet : pulsed (s.buf s.activeBuf) = false := by
    cases pulse : pulsed (s.buf s.activeBuf) with
    | false => rfl
    | true => exact absurd (sane.early pulse armed).1 past
  refine ⟨?_,?_,?_,?_,stride⟩
  · rw [facts.armed,armed]
    rfl
  · rw [facts.count,quiet]
    rfl
  · rw [facts.capacity,capacity]
    rfl
  · rw [facts.addr,addr]
    rfl

structure Alike (h k : HostBuffer) : Prop where
  armed : h.armed = k.armed
  done : h.done = k.done
  count : h.completedCount = k.completedCount
  capacity : h.slotCapacity = k.slotCapacity
  addr : h.addr = k.addr
  pulses : pulsed h = pulsed k

theorem settledReady (keeps : s.Respects p x) (ready : s.activeBufReady = true) :
    (settled p s x s.activeBuf).armed = true ∧ (settled p s x s.activeBuf).slotCapacity ≠ 0 := by
  have facts := @settledFacts p s x s.activeBuf
  simp only [activeBufReady,Bool.and_eq_true,decide_eq_true_eq] at ready
  obtain ⟨armed,some⟩ := ready
  rw [facts.armed,facts.capacity,(writtenArmed keeps armed).2.1]
  exact ⟨by rw [show (s.buf s.activeBuf).armed = true from armed]; rfl,some⟩

theorem saneAlike (sane : Sane s) (keeps : s.Respects p x) (registers : Registers p s x q)
    (alike : ∀ b, Alike (q.buf b) (settled p s x b)) (active : q.activeBuf = s.activeBuf)
    (ready : q.state = .waitSlot ∨ WriterState.delivers q.state → s.activeBufReady = true) : Sane q := by
  refine ⟨?_,?_,?_,?_,?_,?_⟩
  · intro state
    obtain ⟨armed,some⟩ := settledReady keeps (ready state)
    simp only [activeBufReady,CommitDmaWriter.active,active,(alike _).armed,(alike _).capacity,armed,
      Bool.true_and]
    simpa using some
  · intro b armed
    rw [(alike b).armed] at armed
    rw [(alike b).done]
    exact settledUndone sane armed
  · intro b armed
    rw [(alike b).armed] at armed
    rw [(alike b).count,(alike b).capacity]
    exact settledBelow sane keeps armed
  · intro b armed other
    rw [(alike b).armed] at armed
    rw [active] at other
    rw [(alike b).count]
    exact settledFresh sane armed other
  · intro b pulse
    rw [(alike b).pulses] at pulse
    rw [registers.ack]
    exact (settledPulsed sane keeps pulse).1
  · intro pulse armed
    rw [CommitDmaWriter.active,active] at pulse armed
    rw [(alike _).pulses] at pulse
    rw [(alike _).armed] at armed
    cases armed.symm.trans ((settledPulsed sane keeps pulse).2 rfl)

theorem alikeRefl (same : q.buf = settled p s x) : ∀ b, Alike (q.buf b) (settled p s x b) := by
  intro b
  rw [same]
  exact ⟨rfl,rfl,rfl,rfl,rfl,rfl⟩

theorem saneElsewhere (sane : Sane s) (keeps : s.Respects p x) (registers : Registers p s x q)
    (elsewhere : ∀ b, b ≠ s.activeBuf → q.buf b = settled p s x b)
    (pulses : pulsed (q.buf s.activeBuf) = pulsed (settled p s x s.activeBuf))
    (ready : q.state = .waitSlot ∨ WriterState.delivers q.state → q.activeBufReady = true)
    (own : (q.buf s.activeBuf).armed = true → (q.buf s.activeBuf).done = false ∧
      (q.buf s.activeBuf).completedCount < (q.buf s.activeBuf).slotCapacity ∧ q.activeBuf = s.activeBuf)
    (early : pulsed q.active = true → q.active.armed = true →
      q.state = .waitBuffer ∧ q.active.completedCount = 0) : Sane q := by
  refine ⟨ready,?_,?_,?_,?_,early⟩
  · intro b armed
    by_cases same : b = s.activeBuf
    · subst same
      exact (own armed).1
    · rw [elsewhere b same] at armed ⊢
      exact settledUndone sane armed
  · intro b armed
    by_cases same : b = s.activeBuf
    · subst same
      exact Or.inr (own armed).2.1
    · rw [elsewhere b same] at armed ⊢
      exact settledBelow sane keeps armed
  · intro b armed other
    by_cases same : b = s.activeBuf
    · subst same
      exact absurd (own armed).2.2.symm other
    · rw [elsewhere b same] at armed ⊢
      exact settledFresh sane armed same
  · intro b pulse
    rw [registers.ack]
    by_cases same : b = s.activeBuf
    · subst same
      rw [pulses] at pulse
      exact (settledPulsed sane keeps pulse).1
    · rw [elsewhere b same] at pulse
      exact (settledPulsed sane keeps pulse).1

theorem saneCounts (sane : Sane s) (keeps : s.Respects p x) (registers : Registers p s x q)
    (from' : s.state = .popSlot) (more : s.active.completedCount + 1 < s.active.slotCapacity)
    (active : q.activeBuf = s.activeBuf)
    (buf : q.buf = Function.update (settled p s x) s.activeBuf
      {settled p s x s.activeBuf with completedCount := s.active.completedCount + 1}) : Sane q := by
  have ready := sane.ready (Or.inr (Or.inr (Or.inr from')))
  obtain ⟨armed,_,capacity,_,_⟩ := settledActive sane keeps ready (by simp [from'])
  have here : q.buf s.activeBuf =
      {settled p s x s.activeBuf with completedCount := s.active.completedCount + 1} := by
    rw [buf,Function.update_self]
  have elsewhere : ∀ b, b ≠ s.activeBuf → q.buf b = settled p s x b := by
    intro b other
    rw [buf,Function.update_of_ne other]
  have pulses : pulsed (q.buf s.activeBuf) = pulsed (settled p s x s.activeBuf) := by rw [here]; rfl
  refine saneElsewhere sane keeps registers elsewhere pulses ?_ ?_ ?_
  · intro _
    have some := (settledReady keeps ready).2
    simp only [activeBufReady,CommitDmaWriter.active,active,here,armed,Bool.true_and]
    simpa using some
  · intro _
    rw [here]
    refine ⟨settledUndone sane armed,?_,active⟩
    rw [capacity]
    exact more
  · intro pulse _
    rw [CommitDmaWriter.active,active,pulses] at pulse
    cases armed.symm.trans ((settledPulsed sane keeps pulse).2 rfl)

theorem saneFills (sane : Sane s) (keeps : s.Respects p x) (registers : Registers p s x q)
    (state : q.state = .waitBuffer) (active : q.activeBuf = !s.activeBuf)
    (buf : q.buf = Function.update (settled p s x) s.activeBuf
      {settled p s x s.activeBuf with
        completedCount := s.active.completedCount + 1, done := true, armed := false}) : Sane q := by
  have here : q.buf s.activeBuf =
      {settled p s x s.activeBuf with
        completedCount := s.active.completedCount + 1, done := true, armed := false} := by
    rw [buf,Function.update_self]
  have elsewhere : ∀ b, b ≠ s.activeBuf → q.buf b = settled p s x b := by
    intro b other
    rw [buf,Function.update_of_ne other]
  refine saneElsewhere sane keeps registers elsewhere (by rw [here]; rfl) ?_ ?_ ?_
  · intro goes
    simp [state,WriterState.delivers] at goes
  · intro armed
    rw [here] at armed
    cases armed
  · intro _ armed
    have other : (!s.activeBuf) ≠ s.activeBuf := by simp
    rw [CommitDmaWriter.active,active,elsewhere _ other] at armed ⊢
    exact ⟨state,settledFresh sane armed other⟩

theorem saneNext (sane : Sane s) (keeps : s.Respects p x) (registers : Registers p s x q)
    (went : Went p s x q) : Sane q := by
  have moving : ∀ {state}, WriterState.delivers s.state → q.state = state → s.activeBufReady = true :=
    fun delivers _ => sane.ready (Or.inr delivers)
  cases went with
  | parked from' unsent state buf active =>
    refine saneAlike sane keeps registers (alikeRefl buf) active ?_
    intro goes
    obtain idle | waits := state
    · simp [idle,WriterState.delivers] at goes
    · simp [waits,WriterState.delivers] at goes
  | listens from' ready state buf active =>
    exact saneAlike sane keeps registers (alikeRefl buf) active (fun _ => ready)
  | launches from' ready head state desc buf active =>
    exact saneAlike sane keeps registers (alikeRefl buf) active (fun _ => ready)
  | offers from' unsent state desc buf active =>
    exact saneAlike sane keeps registers (alikeRefl buf) active (fun _ => moving (Or.inl from') state)
  | sends from' sent state desc buf active =>
    exact saneAlike sane keeps registers (alikeRefl buf) active (fun _ => moving (Or.inl from') state)
  | waits from' silent state desc buf active =>
    exact saneAlike sane keeps registers (alikeRefl buf) active
      (fun _ => moving (Or.inr (Or.inl from')) state)
  | fails from' answer error state buf active =>
    refine saneAlike sane keeps registers ?_ active (fun _ => moving (Or.inr (Or.inl from')) state)
    intro b
    rw [buf]
    by_cases same : b = s.activeBuf
    · subst same
      rw [Function.update_self]
      exact ⟨rfl,rfl,rfl,rfl,rfl,rfl⟩
    · rw [Function.update_of_ne same]
      exact ⟨rfl,rfl,rfl,rfl,rfl,rfl⟩
  | succeeds from' answer fine state desc buf active =>
    exact saneAlike sane keeps registers (alikeRefl buf) active
      (fun _ => moving (Or.inr (Or.inl from')) state)
  | counts from' more state buf active =>
    exact saneCounts sane keeps registers from' more active buf
  | fills from' full state buf active =>
    exact saneFills sane keeps registers state active buf

inductive Tally (p : Parameters) (s : CommitDmaWriter) (x : Inputs) (q : CommitDmaWriter) (b : Bool) :
    Prop where
  | plain (apart : ¬ (s.state = .popSlot ∧ s.activeBuf = b))
      (armed : (q.buf b).armed = ((s.buf b).armed || (s.buf b).armPulse))
      (done : (q.buf b).done = ((s.buf b).done && !pulsed (s.buf b)))
      (count : (q.buf b).completedCount = if pulsed (s.buf b) then 0 else (s.buf b).completedCount)
      (capacity : (q.buf b).slotCapacity = (s.bufWritten p x b (s.buf b)).slotCapacity)
  | counted (popping : s.state = .popSlot) (own : s.activeBuf = b) (before : (s.buf b).armed = true)
      (quiet : pulsed (s.buf b) = false) (armed : (q.buf b).armed = true)
      (count : (q.buf b).completedCount = (s.buf b).completedCount + 1)
      (below : (s.buf b).completedCount + 1 < (s.buf b).slotCapacity)
      (done : (q.buf b).done = false) (capacity : (q.buf b).slotCapacity = (s.buf b).slotCapacity)
  | filled (popping : s.state = .popSlot) (own : s.activeBuf = b) (before : (s.buf b).armed = true)
      (quiet : pulsed (s.buf b) = false) (armed : (q.buf b).armed = false)
      (room : (s.buf b).completedCount < (s.buf b).slotCapacity)
      (count : (q.buf b).completedCount = (s.buf b).slotCapacity)
      (step : (s.buf b).completedCount.toNat + 1 = (s.buf b).slotCapacity.toNat)
      (done : (q.buf b).done = true) (other : q.activeBuf = !b)

theorem quietActive (sane : Sane s) (ready : s.activeBufReady = true) (past : s.state ≠ .waitBuffer) :
    pulsed (s.buf s.activeBuf) = false := by
  simp only [activeBufReady,Bool.and_eq_true] at ready
  cases pulse : pulsed (s.buf s.activeBuf) with
  | false => rfl
  | true => exact absurd (sane.early pulse ready.1).1 past

theorem readyRoom (sane : Sane s) (ready : s.activeBufReady = true) :
    s.active.armed = true ∧ s.active.completedCount < s.active.slotCapacity := by
  simp only [activeBufReady,Bool.and_eq_true,decide_eq_true_eq] at ready
  obtain ⟨armed,some⟩ := ready
  refine ⟨armed,?_⟩
  obtain none | below := sane.below s.activeBuf armed
  · rw [active,none,BitVec.lt_def]
    refine Nat.pos_of_ne_zero ?_
    intro zero
    exact some (BitVec.eq_of_toNat_eq zero)
  · exact below

theorem tallyNext (sane : Sane s) (keeps : s.Respects p x) (went : Went p s x q) (b : Bool) :
    Tally p s x q b := by
  have facts := @settledFacts p s x b
  have plainly : ¬ (s.state = .popSlot ∧ s.activeBuf = b) → Alike (q.buf b) (settled p s x b) →
      Tally p s x q b := by
    intro apart alike
    exact .plain apart (alike.armed.trans facts.armed) (alike.done.trans facts.done)
      (alike.count.trans facts.count) (alike.capacity.trans facts.capacity)
  have itself : Alike (settled p s x b) (settled p s x b) := ⟨rfl,rfl,rfl,rfl,rfl,rfl⟩
  cases went with
  | parked from' unsent state buf active => exact plainly (fun h => from'.2 h.1) (buf ▸ itself)
  | listens from' ready state buf active =>
    exact plainly (by obtain waits | waits := from' <;> simp [waits]) (buf ▸ itself)
  | launches from' ready head state desc buf active => exact plainly (by simp [from']) (buf ▸ itself)
  | offers from' unsent state desc buf active => exact plainly (by simp [from']) (buf ▸ itself)
  | sends from' sent state desc buf active => exact plainly (by simp [from']) (buf ▸ itself)
  | waits from' silent state desc buf active => exact plainly (by simp [from']) (buf ▸ itself)
  | succeeds from' answer fine state desc buf active => exact plainly (by simp [from']) (buf ▸ itself)
  | fails from' answer error state buf active =>
    refine plainly (by simp [from']) ?_
    rw [buf]
    by_cases same : b = s.activeBuf
    · subst same
      rw [Function.update_self]
      exact ⟨rfl,rfl,rfl,rfl,rfl,rfl⟩
    · rw [Function.update_of_ne same]
      exact itself
  | counts from' more state buf active =>
    by_cases same : b = s.activeBuf
    · subst same
      have ready := sane.ready (Or.inr (Or.inr (Or.inr from')))
      obtain ⟨armed,_,capacity,_,_⟩ := settledActive sane keeps ready (by simp [from'])
      refine .counted from' rfl (readyRoom sane ready).1 (quietActive sane ready (by simp [from'])) ?_ ?_ more
        ?_ ?_
      · rw [buf,Function.update_self]
        exact armed
      · rw [buf,Function.update_self]
        rfl
      · rw [buf,Function.update_self]
        exact settledUndone sane armed
      · rw [buf,Function.update_self]
        exact capacity
    · refine plainly (fun h => same h.2.symm) ?_
      rw [buf,Function.update_of_ne same]
      exact itself
  | fills from' full state buf active =>
    by_cases same : b = s.activeBuf
    · subst same
      have ready := sane.ready (Or.inr (Or.inr (Or.inr from')))
      obtain ⟨armed,room⟩ := readyRoom sane ready
      have below : s.active.completedCount.toNat < s.active.slotCapacity.toNat := room
      have above : s.active.slotCapacity.toNat ≤ (s.active.completedCount + 1).toNat := full
      have bounded := s.active.slotCapacity.isLt
      have grown : (s.active.completedCount + 1).toNat = s.active.completedCount.toNat + 1 := by
        rw [BitVec.toNat_add]
        exact Nat.mod_eq_of_lt (by simp; omega)
      refine .filled from' rfl armed (quietActive sane ready (by simp [from'])) ?_ room ?_ ?_ ?_ active
      · rw [buf,Function.update_self]
      · rw [buf,Function.update_self]
        apply BitVec.eq_of_toNat_eq
        change (s.active.completedCount + 1).toNat = s.active.slotCapacity.toNat
        omega
      · change s.active.completedCount.toNat + 1 = s.active.slotCapacity.toNat
        omega
      · rw [buf,Function.update_self]
    · refine plainly (fun h => same h.2.symm) ?_
      rw [buf,Function.update_of_ne same]
      exact itself

end Buffers

end CommitDmaWriter
namespace CommitPath
open CommitDmaWriter (WriterState.delivers Went Registers Sane settled)

variable {w : Nat} {p : Parameters w} {s : CommitPath w} {x : Inputs w}

structure Coupled (p : Parameters w) (s : CommitPath w) : Prop where
  ring : CommitBuffer.Ring p.buffer s.buffer
  sane : Sane s.writer
  offers : s.writer.descValid = decide (s.writer.state = .issueDma)
  pops : s.writer.popValid = decide (s.writer.state = .popSlot)
  flight : s.outstanding = if s.writer.state = .waitDma then [s.writer.desc] else []
  waiting : WriterState.delivers s.writer.state → 0 < s.buffer.slotCount
  desc : WriterState.delivers s.writer.state →
    s.writer.desc = s.writer.launched p.writer (writerInputs p s {})

def popFire (s : CommitPath w) (x : Inputs w) : Bool := s.buffer.headSlotPopFire (s.bufferInputs x)

theorem popFireIff (coupled : Coupled p s) :
    popFire s x = true ↔ s.writer.state = .popSlot := by
  have waiting := coupled.waiting
  simp only [popFire,CommitBuffer.headSlotPopFire,CommitBuffer.bufferEmpty,bufferInputs,coupled.pops,
    Bool.and_eq_true,decide_eq_true_eq,Bool.not_eq_true',decide_eq_false_iff_not]
  constructor
  · exact And.left
  · intro popping
    have some := waiting (Or.inr (Or.inr popping))
    exact ⟨popping,by omega⟩

theorem headKept (coupled : Coupled p s) (quiet : x.rst = false) (still : s.writer.state ≠ .popSlot) :
    (next p s x).buffer.headPtr = s.buffer.headPtr ∧
      s.buffer.slotCount ≤ (next p s x).buffer.slotCount := by
  have stays : s.buffer.headSlotPopFire (s.bufferInputs x) = false := by
    cases pop : s.buffer.headSlotPopFire (s.bufferInputs x) with
    | false => rfl
    | true => exact absurd ((popFireIff coupled).mp pop) still
  have alive : (s.bufferInputs x).rst = false := quiet
  have count := CommitBuffer.slotCountStep (x := s.bufferInputs x) coupled.ring
  simp only [stays,Bool.false_eq_true,if_false] at count
  simp only [next,CommitBuffer.next,alive,stays,Bool.false_eq_true,if_false,true_and]
  omega

theorem unsent (coupled : Coupled p s) (other : s.writer.state ≠ .issueDma) :
    s.writer.descFire (writerInputs p s x) = false := by
  simp [CommitDmaWriter.descFire,coupled.offers,other]

theorem flightNext (coupled : Coupled p s)
    (went : Went p.writer s.writer (writerInputs p s x) (next p s x).writer) :
    (next p s x).outstanding =
      if (next p s x).writer.state = .waitDma then [(next p s x).writer.desc] else [] := by
  have flight := coupled.flight
  have idle : s.writer.state ≠ .waitDma → outstandingNext p s x =
      if s.writer.descFire (writerInputs p s x) then [s.writer.desc] else [] := by
    intro other
    rw [if_neg other] at flight
    simp [outstandingNext,flight]
  change outstandingNext p s x = _
  cases went with
  | parked from' held state buf active =>
    rw [idle from'.1,held]
    obtain rests | waits := state
    · simp [rests]
    · simp [waits]
  | listens from' ready state buf active =>
    have other : s.writer.state ≠ .waitDma ∧ s.writer.state ≠ .issueDma := by
      obtain waits | waits := from' <;> simp [waits]
    rw [idle other.1,unsent coupled other.2]
    simp [state]
  | launches from' ready head state desc buf active =>
    rw [idle (by simp [from']),unsent coupled (by simp [from'])]
    simp [state]
  | offers from' held state desc buf active =>
    rw [idle (by simp [from']),held]
    simp [state]
  | sends from' sent state desc buf active =>
    rw [idle (by simp [from']),sent,desc]
    simp [state]
  | waits from' silent state desc buf active =>
    rw [outstandingNext,statusMatch,silent,unsent coupled (by simp [from']),flight,state,desc]
    simp [from']
  | fails from' answer error state buf active =>
    rw [outstandingNext,statusMatch,answer,unsent coupled (by simp [from']),flight,state]
    simp [from']
  | succeeds from' answer fine state desc buf active =>
    rw [outstandingNext,statusMatch,answer,unsent coupled (by simp [from']),flight,state]
    simp [from']
  | counts from' more state buf active =>
    rw [idle (by simp [from']),unsent coupled (by simp [from']),state]
    simp
  | fills from' full state buf active =>
    rw [idle (by simp [from']),unsent coupled (by simp [from']),state]
    simp

theorem carriedNext (coupled : Coupled p s) (keeps : s.writer.Respects p.writer (writerInputs p s x))
    (registers : Registers p.writer s.writer (writerInputs p s x) (next p s x).writer)
    (went : Went p.writer s.writer (writerInputs p s x) (next p s x).writer)
    (delivers : WriterState.delivers (next p s x).writer.state) :
    s.writer.state ≠ .popSlot ∧ 0 < s.buffer.slotCount ∧
      (next p s x).writer.desc = s.writer.launched p.writer (writerInputs p s {}) ∧
      (next p s x).writer.commitDmaDstAddr = s.writer.commitDmaDstAddr := by
  have sameTarget : s.writer.activeBufReady = true → s.writer.state ≠ .waitBuffer →
      (next p s x).writer.buf = settled p.writer s.writer (writerInputs p s x) →
      (next p s x).writer.activeBuf = s.writer.activeBuf →
      (next p s x).writer.commitDmaDstAddr = s.writer.commitDmaDstAddr := by
    intro ready past buf active
    obtain ⟨_,count,_,addr,stride⟩ := CommitDmaWriter.settledActive coupled.sane keeps ready past
    simp only [CommitDmaWriter.commitDmaDstAddr,CommitDmaWriter.active,buf,active,registers.stride]
    rw [count,addr,stride]
    rfl
  have carried : WriterState.delivers s.writer.state → s.writer.state ≠ .popSlot →
      (next p s x).writer.desc = s.writer.desc →
      (next p s x).writer.buf = settled p.writer s.writer (writerInputs p s x) →
      (next p s x).writer.activeBuf = s.writer.activeBuf →
      s.writer.state ≠ .popSlot ∧ 0 < s.buffer.slotCount ∧
        (next p s x).writer.desc = s.writer.launched p.writer (writerInputs p s {}) ∧
        (next p s x).writer.commitDmaDstAddr = s.writer.commitDmaDstAddr := by
    intro before unpopped desc buf active
    have past : s.writer.state ≠ .waitBuffer := by
      intro waits
      simp [waits,WriterState.delivers] at before
    rw [desc]
    exact ⟨unpopped,coupled.waiting before,coupled.desc before,
      sameTarget (coupled.sane.ready (Or.inr before)) past buf active⟩
  cases went with
  | parked from' held state buf active =>
    obtain rests | waits := state
    · simp [rests,WriterState.delivers] at delivers
    · simp [waits,WriterState.delivers] at delivers
  | listens from' ready state buf active => simp [state,WriterState.delivers] at delivers
  | launches from' ready head state desc buf active =>
    have some : 0 < s.buffer.slotCount := by
      have valid : s.buffer.headSlotValid = true := head
      simp only [CommitBuffer.headSlotValid,CommitBuffer.bufferEmpty,Bool.not_eq_true',
        decide_eq_false_iff_not] at valid
      omega
    rw [desc]
    exact ⟨by simp [from'],some,rfl,sameTarget ready (by simp [from']) buf active⟩
  | offers from' held state desc buf active =>
    exact carried (Or.inl from') (by simp [from']) desc buf active
  | sends from' sent state desc buf active =>
    exact carried (Or.inl from') (by simp [from']) desc buf active
  | waits from' silent state desc buf active =>
    exact carried (Or.inr (Or.inl from')) (by simp [from']) desc buf active
  | fails from' answer error state buf active => simp [state,WriterState.delivers] at delivers
  | succeeds from' answer fine state desc buf active =>
    exact carried (Or.inr (Or.inl from')) (by simp [from']) desc buf active
  | counts from' more state buf active => simp [state,WriterState.delivers] at delivers
  | fills from' full state buf active => simp [state,WriterState.delivers] at delivers

theorem coupledNext (coupled : Coupled p s) (quiet : x.rst = false)
    (keeps : s.writer.Respects p.writer (writerInputs p s x)) : Coupled p (next p s x) := by
  have alive : (writerInputs p s x).rst = false := quiet
  have went := CommitDmaWriter.nextWent (p := p.writer) alive coupled.offers
  have registers := CommitDmaWriter.nextRegisters (p := p.writer) alive coupled.offers coupled.pops
  have carried := carriedNext coupled keeps registers went
  refine ⟨CommitBuffer.ringNext coupled.ring quiet,
    CommitDmaWriter.saneNext coupled.sane keeps registers went,registers.offers,registers.pops,
    flightNext coupled went,?_,?_⟩
  · intro delivers
    obtain ⟨still,some,_⟩ := carried delivers
    exact Nat.lt_of_lt_of_le some (headKept coupled quiet still).2
  · intro delivers
    obtain ⟨still,_,launched,target⟩ := carried delivers
    have head : (writerInputs p (next p s x) {}).headSlotAddr = (writerInputs p s {}).headSlotAddr := by
      simp only [writerInputs,CommitBuffer.headSlotAddr,(headKept coupled quiet still).1]
    rw [launched,CommitDmaWriter.launched,CommitDmaWriter.launched,target,head]

theorem coupledStart : Coupled p (⟨{},{},[]⟩ : CommitPath w) := by
  refine ⟨CommitBuffer.ringStart,⟨?_,?_,?_,?_,?_,?_⟩,rfl,rfl,rfl,?_,?_⟩
  · simp [WriterState.delivers]
  · exact fun _ armed => absurd armed nofun
  · exact fun _ armed => absurd armed nofun
  · exact fun _ armed => absurd armed nofun
  · exact fun _ pulse => absurd pulse nofun
  · exact fun _ armed => absurd armed nofun
  · simp [WriterState.delivers]
  · simp [WriterState.delivers]

theorem ranCoupled {moves : List (Move (CommitPath w) (Inputs w))} (ran : Ran (system p) moves s) :
    Coupled p s := by
  induction ran with
  | start h =>
    rw [h]
    exact coupledStart
  | move before h ih =>
    obtain ⟨quiet,keeps,_,after⟩ := h
    rw [after]
    exact coupledNext ih quiet keeps

section Events

variable (p : Parameters w)

-- The DMA engine reports that the write of an accepted descriptor succeeded.
def succeeded (m : Move (CommitPath w) (Inputs w)) : Bool :=
  statusMatch p m.before m.op && !statusError p m.before m.op

def pushed (m : Move (CommitPath w) (Inputs w)) : Option (List (BitVec (8 * w))) :=
  CommitBuffer.pushed p.buffer m.before.buffer (m.before.bufferInputs m.op)

def popped (m : Move (CommitPath w) (Inputs w)) : Option (List (BitVec (8 * w))) :=
  CommitBuffer.popped p.buffer m.before.buffer (m.before.bufferInputs m.op)

def successes (moves : List (Move (CommitPath w) (Inputs w))) : Nat := moves.countP (succeeded p)

def arms (b : Bool) (m : Move (CommitPath w) (Inputs w)) : Bool := (m.before.writer.buf b).armPulse

-- The successes of buffer `b` since it was armed, and the capacity it was armed with.
def sinceArmed (b : Bool) (moves : List (Move (CommitPath w) (Inputs w))) : Nat :=
  moves.foldl (fun n m => if arms b m then 0
    else if succeeded p m && m.before.writer.activeBuf = b then n + 1 else n) 0

def armedCapacity (b : Bool) (moves : List (Move (CommitPath w) (Inputs w))) : BitVec 32 :=
  moves.foldl (fun c m => if arms b m then (m.before.writer.buf b).slotCapacity else c) 0

def slotAt (ram : Nat → BitVec (8 * w)) (d : Descriptor) : List (BitVec (8 * w)) :=
  (List.range (d.len / w)).map (fun j => ram ((d.ramAddr / w + j) % 2 ^ p.buffer.rowAddrWidth))

end Events

section Counting

variable {m : Move (CommitPath w) (Inputs w)} {moves : List (Move (CommitPath w) (Inputs w))} {b : Bool}

theorem launchedLen : (s.writer.launched p.writer (writerInputs p s {})).len = p.buffer.slotBytes := by
  change p.writer.commitBufferSlotBytes % 2 ^ p.writer.dmaLenWidth = p.buffer.slotBytes
  rw [p.sameSlots,Nat.mod_eq_of_lt p.short]

theorem slotAtHead : slotAt p s.buffer.ram (s.writer.launched p.writer (writerInputs p s {})) =
    CommitBuffer.slotRows p.buffer s.buffer.ram s.buffer.headPtr := by
  have head : (s.writer.launched p.writer (writerInputs p s {})).ramAddr =
      CommitBuffer.headSlotAddr p.buffer s.buffer := rfl
  rw [slotAt,launchedLen,head,CommitBuffer.headSlotRow p.fits]
  refine List.map_congr_left ?_
  intro j _
  rw [Nat.mod_add_mod]
  rfl

theorem popsNext (coupled : Coupled p s) (quiet : x.rst = false)
    (legal : statusMatch p s x = true → s.outstanding ≠ []) :
    (next p s x).writer.state = .popSlot ↔ succeeded p ⟨s,x,next p s x⟩ = true := by
  have alive : (writerInputs p s x).rst = false := quiet
  have went : Went p.writer s.writer (writerInputs p s x) (next p s x).writer :=
    CommitDmaWriter.nextWent alive coupled.offers
  have unasked : s.writer.state ≠ .waitDma → succeeded p ⟨s,x,next p s x⟩ = false := by
    intro other
    cases answer : statusMatch p s x with
    | false => simp [succeeded,answer]
    | true =>
      have empty := coupled.flight
      rw [if_neg other] at empty
      exact absurd empty (legal answer)
  cases went with
  | parked from' held state buf active =>
    rw [unasked from'.1]
    obtain rests | waits := state
    · simp [rests]
    · simp [waits]
  | listens from' ready state buf active =>
    rw [unasked (by obtain waits | waits := from' <;> simp [waits]),state]
    simp
  | launches from' ready head state desc buf active =>
    rw [unasked (by simp [from']),state]
    simp
  | offers from' held state desc buf active =>
    rw [unasked (by simp [from']),state]
    simp
  | sends from' sent state desc buf active =>
    rw [unasked (by simp [from']),state]
    simp
  | waits from' silent state desc buf active =>
    change statusMatch p s x = false at silent
    simp [succeeded,silent,state]
  | fails from' answer error state buf active =>
    change statusError p s x = true at error
    simp [succeeded,error,state]
  | succeeds from' answer fine state desc buf active =>
    change statusMatch p s x = true at answer
    change statusError p s x = false at fine
    simp [succeeded,answer,fine,state]
  | counts from' more state buf active =>
    rw [unasked (by simp [from']),state]
    simp
  | fills from' full state buf active =>
    rw [unasked (by simp [from']),state]
    simp

theorem sinceSnoc : sinceArmed p b (moves ++ [m]) =
    if arms b m then 0
    else if succeeded p m && m.before.writer.activeBuf = b then sinceArmed p b moves + 1
    else sinceArmed p b moves := by
  rw [sinceArmed,List.foldl_append]
  rfl

theorem capacitySnoc : armedCapacity b (moves ++ [m]) =
    if arms b m then (m.before.writer.buf b).slotCapacity else armedCapacity b moves := by
  rw [armedCapacity,List.foldl_append]
  rfl

theorem poppedLength : ([m].filterMap (popped p)).length = if popFire m.before m.op then 1 else 0 := by
  cases pop : popFire m.before m.op with
  | false =>
    have none : popped p m = none := if_neg (by simpa [popFire] using pop)
    simp [none]
  | true =>
    have some : popped p m = some _ := if_pos pop
    simp [some]

/- The successes so far: all of them, those of a buffer since it was armed, and the capacity
that bounds them. -/
structure Counted (p : Parameters w) (moves : List (Move (CommitPath w) (Inputs w))) (s : CommitPath w) :
    Prop where
  pops : (moves.filterMap (popped p)).length + (if s.writer.state = .popSlot then 1 else 0) =
    successes p moves
  since : ∀ b, (s.writer.buf b).armed = true → sinceArmed p b moves =
    (s.writer.buf b).completedCount.toNat +
      if s.writer.state = .popSlot ∧ s.writer.activeBuf = b then 1 else 0
  capacity : ∀ b, (s.writer.buf b).armed = true → armedCapacity b moves = (s.writer.buf b).slotCapacity
  bound : ∀ b, (s.writer.buf b).completedCount.toNat ≤ (armedCapacity b moves).toNat

theorem popReached (went : Went p.writer s.writer (writerInputs p s x) (next p s x).writer)
    (popping : (next p s x).writer.state = .popSlot) :
    s.writer.state = .waitDma ∧ (next p s x).writer.activeBuf = s.writer.activeBuf := by
  cases went with
  | parked from' held state buf active =>
    obtain rests | waits := state
    · cases rests.symm.trans popping
    · cases waits.symm.trans popping
  | listens from' ready state buf active => cases state.symm.trans popping
  | launches from' ready head state desc buf active => cases state.symm.trans popping
  | offers from' held state desc buf active => cases state.symm.trans popping
  | sends from' sent state desc buf active => cases state.symm.trans popping
  | waits from' silent state desc buf active => cases state.symm.trans popping
  | fails from' answer error state buf active => cases state.symm.trans popping
  | succeeds from' answer fine state desc buf active => exact ⟨from',active⟩
  | counts from' more state buf active => cases state.symm.trans popping
  | fills from' full state buf active => cases state.symm.trans popping

theorem unarmedPop (coupled : Coupled p s)
    (went : Went p.writer s.writer (writerInputs p s x) (next p s x).writer)
    (arming : (s.writer.buf b).armPulse = true) :
    ¬ ((next p s x).writer.state = .popSlot ∧ (next p s x).writer.activeBuf = b) := by
  rintro ⟨popping,own⟩
  obtain ⟨from',same⟩ := popReached went popping
  have ready := coupled.sane.ready (Or.inr (Or.inr (Or.inl from')))
  have quiet := CommitDmaWriter.quietActive coupled.sane ready (by simp [from'])
  rw [← same,own] at quiet
  simp [CommitDmaWriter.pulsed,arming] at quiet

theorem countKept (sane : Sane s.writer) (armed : (s.writer.buf b).armed = true) :
    (if CommitDmaWriter.pulsed (s.writer.buf b) then 0 else (s.writer.buf b).completedCount) =
      (s.writer.buf b).completedCount := by
  split
  · rename_i pulse
    by_cases own : b = s.writer.activeBuf
    · subst own
      exact (sane.early pulse armed).2.symm
    · exact (sane.fresh b armed own).symm
  · rfl

theorem unpulsedArm {buf : HostBuffer} (none : CommitDmaWriter.pulsed buf = false) :
    buf.armPulse = false := by
  simp only [CommitDmaWriter.pulsed,Bool.or_eq_false_iff] at none
  exact none.1

theorem armedTally (sane : Sane s.writer)
    (tally : CommitDmaWriter.Tally p.writer s.writer (writerInputs p s x) (next p s x).writer b)
    (armed : ((next p s x).writer.buf b).armed = true) (pulse : (s.writer.buf b).armPulse = true) :
    ((next p s x).writer.buf b).completedCount = 0 ∧
      ((next p s x).writer.buf b).slotCapacity = (s.writer.buf b).slotCapacity := by
  cases tally with
  | plain apart armed' done count capacity =>
    have waits := sane.acked b (by simp [CommitDmaWriter.pulsed,pulse])
    refine ⟨count.trans (if_pos (by simp [CommitDmaWriter.pulsed,pulse])),capacity.trans ?_⟩
    simp [CommitDmaWriter.bufWritten,CommitDmaWriter.csrWrite,waits]
  | counted popping own before quiet armed' count below done capacity =>
    cases pulse.symm.trans (unpulsedArm quiet)
  | filled popping own before quiet armed' room count step done other =>
    cases armed.symm.trans armed'

theorem armedBefore {n q : HostBuffer} (armed : q.armed = true)
    (pulse : n.armPulse = false) (step : q.armed = (n.armed || n.armPulse)) : n.armed = true := by
  rw [armed,pulse,Bool.or_false] at step
  exact step.symm

theorem countGrows (sane : Sane s.writer) (popping : s.writer.state = .popSlot)
    (own : s.writer.activeBuf = b) :
    ((s.writer.buf b).completedCount + 1).toNat = (s.writer.buf b).completedCount.toNat + 1 := by
  have room := (CommitDmaWriter.readyRoom sane (sane.ready (Or.inr (Or.inr (Or.inr popping))))).2
  rw [CommitDmaWriter.active,own] at room
  have under : (s.writer.buf b).completedCount.toNat < (s.writer.buf b).slotCapacity.toNat := room
  have bounded := (s.writer.buf b).slotCapacity.isLt
  rw [BitVec.toNat_add]
  exact Nat.mod_eq_of_lt (by simp; omega)

theorem sinceNext (coupled : Coupled p s) (counted : Counted p moves s)
    (went : Went p.writer s.writer (writerInputs p s x) (next p s x).writer)
    (pops : (next p s x).writer.state = .popSlot ↔ succeeded p ⟨s,x,next p s x⟩ = true)
    (tally : CommitDmaWriter.Tally p.writer s.writer (writerInputs p s x) (next p s x).writer b)
    (armed : ((next p s x).writer.buf b).armed = true) :
    sinceArmed p b (moves ++ [⟨s,x,next p s x⟩]) = ((next p s x).writer.buf b).completedCount.toNat +
      if (next p s x).writer.state = .popSlot ∧ (next p s x).writer.activeBuf = b then 1 else 0 := by
  rw [sinceSnoc]
  cases arming : arms b ⟨s,x,next p s x⟩ with
  | true =>
    have pulse : (s.writer.buf b).armPulse = true := arming
    rw [if_pos rfl,if_neg (unarmedPop coupled went pulse),(armedTally coupled.sane tally armed pulse).1]
    rfl
  | false =>
    have pulse : (s.writer.buf b).armPulse = false := arming
    rw [if_neg (by simp)]
    cases tally with
    | plain apart armed' done count capacity =>
      have before := armedBefore armed pulse armed'
      have old := counted.since b before
      rw [if_neg apart,Nat.add_zero] at old
      rw [count,countKept coupled.sane before,old]
      cases answer : succeeded p ⟨s,x,next p s x⟩ with
      | false =>
        have still : (next p s x).writer.state ≠ .popSlot := by
          intro popping
          cases answer.symm.trans (pops.mp popping)
        simp [still]
      | true =>
        have popping := pops.mpr answer
        have same := (popReached went popping).2
        simp only [Bool.true_and,popping,true_and,same,decide_eq_true_eq]
        split <;> rfl
    | counted popping own before quiet armed' count below done capacity =>
      have old := counted.since b before
      rw [if_pos ⟨popping,own⟩] at old
      have still : (next p s x).writer.state ≠ .popSlot := by
        intro again
        cases popping.symm.trans (popReached went again).1
      have answer : succeeded p ⟨s,x,next p s x⟩ = false :=
        Bool.not_eq_true _ ▸ fun yes => still (pops.mpr yes)
      rw [answer,count,old,countGrows coupled.sane popping own]
      simp [still]
    | filled popping own before quiet armed' room count step done other =>
      cases armed.symm.trans armed'

theorem capacityNext (sane : Sane s.writer) (keeps : s.writer.Respects p.writer (writerInputs p s x))
    (counted : Counted p moves s)
    (tally : CommitDmaWriter.Tally p.writer s.writer (writerInputs p s x) (next p s x).writer b)
    (armed : ((next p s x).writer.buf b).armed = true) :
    armedCapacity b (moves ++ [⟨s,x,next p s x⟩]) = ((next p s x).writer.buf b).slotCapacity := by
  rw [capacitySnoc]
  cases arming : arms b ⟨s,x,next p s x⟩ with
  | true => rw [if_pos rfl,(armedTally sane tally armed arming).2]
  | false =>
    have pulse : (s.writer.buf b).armPulse = false := arming
    rw [if_neg (by simp)]
    cases tally with
    | plain apart armed' done count capacity =>
      have before := armedBefore armed pulse armed'
      rw [counted.capacity b before,capacity,(CommitDmaWriter.writtenArmed keeps before).2.1]
    | counted popping own before quiet armed' count below done capacity =>
      rw [counted.capacity b before,capacity]
    | filled popping own before quiet armed' room count step done other =>
      cases armed.symm.trans armed'

theorem boundNext (counted : Counted p moves s)
    (tally : CommitDmaWriter.Tally p.writer s.writer (writerInputs p s x) (next p s x).writer b) :
    ((next p s x).writer.buf b).completedCount.toNat ≤
      (armedCapacity b (moves ++ [⟨s,x,next p s x⟩])).toNat := by
  have old := counted.bound b
  rw [capacitySnoc]
  cases tally with
  | plain apart armed' done count capacity =>
    rw [count]
    cases arming : arms b ⟨s,x,next p s x⟩ with
    | true =>
      have pulse : (s.writer.buf b).armPulse = true := arming
      rw [if_pos (by simp [CommitDmaWriter.pulsed,pulse])]
      exact Nat.zero_le _
    | false =>
      rw [if_neg (show ¬ (false = true) by simp)]
      split
      · exact Nat.zero_le _
      · exact old
  | counted popping own before quiet armed' count below done capacity =>
    have silent : arms b ⟨s,x,next p s x⟩ = false := unpulsedArm quiet
    rw [silent,if_neg (by simp),counted.capacity b before,count]
    exact Nat.le_of_lt below
  | filled popping own before quiet armed' room count step done other =>
    have silent : arms b ⟨s,x,next p s x⟩ = false := unpulsedArm quiet
    rw [silent,if_neg (by simp),counted.capacity b before,count]

theorem countedNext (coupled : Coupled p s) (counted : Counted p moves s) (quiet : x.rst = false)
    (keeps : s.writer.Respects p.writer (writerInputs p s x))
    (legal : statusMatch p s x = true → s.outstanding ≠ []) :
    Counted p (moves ++ [⟨s,x,next p s x⟩]) (next p s x) := by
  have alive : (writerInputs p s x).rst = false := quiet
  have went : Went p.writer s.writer (writerInputs p s x) (next p s x).writer :=
    CommitDmaWriter.nextWent alive coupled.offers
  have pops := popsNext coupled quiet legal
  have tally := CommitDmaWriter.tallyNext coupled.sane keeps went
  refine ⟨?_,fun b armed => sinceNext coupled counted went pops (tally b) armed,
    fun b armed => capacityNext coupled.sane keeps counted (tally b) armed,
    fun b => boundNext counted (tally b)⟩
  rw [List.filterMap_append,List.length_append,poppedLength,successes,List.countP_append,
    ← successes,← counted.pops]
  simp only [popFireIff coupled,pops,List.countP_singleton]

theorem ranCounted (ran : Ran (system p) moves s) : Counted p moves s := by
  induction ran with
  | start h =>
    rw [h]
    exact ⟨rfl,fun _ armed => absurd armed nofun,fun _ armed => absurd armed nofun,fun _ => Nat.le_refl _⟩
  | move before h ih =>
    obtain ⟨quiet,keeps,legal,after⟩ := h
    rw [after]
    exact countedNext (ranCoupled before) ih quiet keeps legal

end Counting

section Delivery

variable {m : Move (CommitPath w) (Inputs w)} {moves pre post : List (Move (CommitPath w) (Inputs w))}
  {d : Descriptor} {b : Bool}

/- The descriptor `d` that is under way in `m`: it reads, whole, the slot that was committed
after as many others as writes have succeeded, and writes it to the place of the armed active
buffer that follows those filled since it was armed. -/
structure Aimed (p : Parameters w) (pre : List (Move (CommitPath w) (Inputs w)))
    (m : Move (CommitPath w) (Inputs w)) (d : Descriptor) : Prop where
  only : m.before.outstanding = [d]
  armed : m.before.writer.active.armed = true
  place : d.dmaAddr = m.before.writer.active.addr +
    BitVec.ofNat 64 (sinceArmed p m.before.writer.activeBuf pre) * m.before.writer.stride
  select : d.ramSel = p.writer.ramSelCommitValue
  tag : d.tag = p.writer.dmaTagCommitValue
  len : d.len = p.buffer.slotBytes
  slot : (pre.filterMap (pushed p))[successes p pre]? = some (slotAt p m.before.buffer.ram d)

def Fills (b : Bool) (m : Move (CommitPath w) (Inputs w)) : Prop :=
  (m.before.writer.buf b).completedCount < (m.before.writer.buf b).slotCapacity ∧
    (m.after.writer.buf b).completedCount = (m.before.writer.buf b).slotCapacity

structure DeliveredInOrder (p : Parameters w) (moves : List (Move (CommitPath w) (Inputs w)))
    (s : CommitPath w) : Prop where
  fifo : moves.filterMap (popped p) ++ CommitBuffer.held p.buffer s.buffer = moves.filterMap (pushed p)
  once : ∀ pre b post, moves = pre ++ b :: post →
    (popFire b.before b.op = true ↔ ∃ front a, pre = front ++ [a] ∧ succeeded p a = true)
  answered : ∀ m ∈ moves, succeeded p m = true →
    ∃ d ∈ m.before.outstanding, ∃ t, m.op.status = some t ∧ t.tag = d.tag
  aimed : ∀ pre m post, moves = pre ++ m :: post → ∀ d ∈ m.before.outstanding, Aimed p pre m d
  bounded : ∀ b, (s.writer.buf b).completedCount.toNat ≤ (armedCapacity b moves).toNat
  done : ∀ m ∈ moves, ∀ b,
    (Fills b m ↔ (m.before.writer.buf b).done = false ∧ (m.after.writer.buf b).done = true)
  switched : ∀ m ∈ moves, ∀ b, Fills b m →
    (m.before.writer.buf b).armed = true ∧ (m.after.writer.buf b).armed = false ∧
      m.before.writer.activeBuf = b ∧ m.after.writer.activeBuf = !b

theorem committedInOrder (ran : Ran (system p) moves s) :
    moves.filterMap (popped p) ++ CommitBuffer.held p.buffer s.buffer = moves.filterMap (pushed p) := by
  refine ranConserved (fun s => CommitBuffer.held p.buffer s.buffer) ?_ ?_ ran
  · intro s start
    rw [start]
    rfl
  · rintro pre m before ⟨quiet,_,_,after⟩
    rw [after]
    exact CommitBuffer.heldNext p.fits (ranCoupled before).ring quiet

theorem poppedOnce (ran : Ran (system p) (pre ++ m :: post) s) :
    popFire m.before m.op = true ↔ ∃ front a, pre = front ++ [a] ∧ succeeded p a = true := by
  have before := (ranAt ran).1
  rw [popFireIff (ranCoupled before)]
  cases pre using List.reverseRecOn with
  | nil =>
    generalize empty : ([] : List (Move (CommitPath w) (Inputs w))) = none at before
    cases before with
    | start h =>
      rw [h]
      simp
    | move before h => simp at empty
  | append_singleton front a =>
    have whole : front ++ [a] ++ m :: post = front ++ a :: m :: post := by simp
    rw [whole] at ran
    obtain ⟨earlier,⟨quiet,keeps,legal,after⟩,_⟩ := ranAt ran
    have popping := popsNext (ranCoupled earlier) quiet legal
    rw [← after] at popping
    rw [ranLink ran,popping]
    constructor
    · exact fun answer => ⟨front,a,rfl,answer⟩
    · rintro ⟨front',a',same,answer⟩
      cases (List.append_inj' same rfl).2
      exact answer

theorem aimedAt (ran : Ran (system p) (pre ++ m :: post) s) (under : d ∈ m.before.outstanding) :
    Aimed p pre m d := by
  have before := (ranAt ran).1
  have coupled := ranCoupled before
  have counted := ranCounted before
  have flight := coupled.flight
  by_cases waits : m.before.writer.state = .waitDma
  · rw [if_pos waits] at flight
    rw [flight,List.mem_singleton] at under
    subst under
    have delivers : CommitDmaWriter.WriterState.delivers m.before.writer.state := Or.inr (Or.inl waits)
    obtain ⟨armed,_⟩ := CommitDmaWriter.readyRoom coupled.sane (coupled.sane.ready (Or.inr delivers))
    have since := counted.since m.before.writer.activeBuf armed
    have pops := counted.pops
    rw [if_neg (by simp [waits]),Nat.add_zero] at since pops
    have desc := coupled.desc delivers
    refine ⟨flight,armed,?_,?_,?_,?_,?_⟩
    · rw [desc,since,BitVec.ofNat_toNat]
      rfl
    · rw [desc]
      rfl
    · rw [desc]
      rfl
    · rw [desc,launchedLen]
    · obtain ⟨rest,waiting⟩ := Nat.exists_eq_add_of_lt (coupled.waiting delivers)
      have first : (CommitBuffer.held p.buffer m.before.buffer)[0]? =
          some (CommitBuffer.slotRows p.buffer m.before.buffer.ram m.before.buffer.headPtr) := by
        rw [CommitBuffer.held,waiting,Nat.zero_add,Rings.queuePop coupled.ring.head]
        rfl
      rw [← committedInOrder before,← pops,desc,slotAtHead,
        List.getElem?_append_right (Nat.le_refl _),Nat.sub_self,first]
  · rw [if_neg waits] at flight
    rw [flight] at under
    cases under

theorem answeredAt (ran : Ran (system p) (pre ++ m :: post) s) (answer : succeeded p m = true) :
    ∃ d ∈ m.before.outstanding, ∃ t, m.op.status = some t ∧ t.tag = d.tag := by
  obtain ⟨_,⟨_,_,legal,_⟩,_⟩ := ranAt ran
  simp only [succeeded,Bool.and_eq_true] at answer
  obtain ⟨d,under⟩ := List.exists_mem_of_ne_nil _ (legal answer.1)
  obtain ⟨t,given,own⟩ := (Option.any_eq_true _ _).mp answer.1
  exact ⟨d,under,t,given,(of_decide_eq_true own).trans (aimedAt ran under).tag.symm⟩

theorem doneWhenFull (ran : Ran (system p) (pre ++ m :: post) s) (b : Bool) :
    (Fills b m ↔ (m.before.writer.buf b).done = false ∧ (m.after.writer.buf b).done = true) ∧
      (Fills b m → (m.before.writer.buf b).armed = true ∧ (m.after.writer.buf b).armed = false ∧
        m.before.writer.activeBuf = b ∧ m.after.writer.activeBuf = !b) := by
  obtain ⟨before,⟨quiet,keeps,_,after⟩,_⟩ := ranAt ran
  have coupled := ranCoupled before
  have alive : (writerInputs p m.before m.op).rst = false := quiet
  have went : Went p.writer m.before.writer (writerInputs p m.before m.op)
      (next p m.before m.op).writer := CommitDmaWriter.nextWent alive coupled.offers
  rw [← after] at went
  cases CommitDmaWriter.tallyNext coupled.sane keeps went b with
  | plain apart armed done count capacity =>
    have unfilled : ¬ Fills b m := by
      rintro ⟨below,full⟩
      rw [count] at full
      split at full
      · rw [← full] at below
        exact Nat.not_lt_zero _ below
      · rw [full] at below
        exact Nat.lt_irrefl _ below
    refine ⟨⟨fun fills => absurd fills unfilled,?_⟩,fun fills => absurd fills unfilled⟩
    rintro ⟨undone,finished⟩
    rw [done,undone] at finished
    cases finished
  | counted popping own armed quiet' armed' count below done capacity =>
    have unfilled : ¬ Fills b m := by
      rintro ⟨_,full⟩
      rw [count] at full
      rw [full] at below
      exact Nat.lt_irrefl _ below
    refine ⟨⟨fun fills => absurd fills unfilled,?_⟩,fun fills => absurd fills unfilled⟩
    rintro ⟨_,finished⟩
    cases done.symm.trans finished
  | filled popping own armed quiet' armed' room count step done other =>
    exact ⟨⟨fun _ => ⟨coupled.sane.undone b armed,done⟩,fun _ => ⟨room,count⟩⟩,
      fun _ => ⟨armed,armed',own,other⟩⟩

theorem deliveredInOrder (ran : Ran (system p) moves s) : DeliveredInOrder p moves s := by
  refine ⟨committedInOrder ran,?_,?_,?_,(ranCounted ran).bound,?_,?_⟩
  · rintro pre b post rfl
    exact poppedOnce ran
  · intro m member answer
    obtain ⟨pre,post,rfl⟩ := List.append_of_mem member
    exact answeredAt ran answer
  · rintro pre m post rfl d under
    exact aimedAt ran under
  · intro m member b
    obtain ⟨pre,post,rfl⟩ := List.append_of_mem member
    exact (doneWhenFull ran b).1
  · intro m member b
    obtain ⟨pre,post,rfl⟩ := List.append_of_mem member
    exact (doneWhenFull ran b).2

end Delivery

section Session

instance (p : CommitDmaWriter.Parameters) (s : CommitDmaWriter) (x : CommitDmaWriter.Inputs) :
    Decidable (s.Respects p x) := by
  unfold CommitDmaWriter.Respects; split <;> infer_instance

def cycle (p : Parameters w) (s : CommitPath w) (x : Inputs w) : Except Unit (CommitPath w) :=
  if x.rst = false ∧ s.writer.Respects p.writer (writerInputs p s x) ∧
      (statusMatch p s x = true → s.outstanding ≠ []) then .ok (next p s x)
  else .error ()

def play (p : Parameters w) (inputs : List (Inputs w)) :
    Except Unit (List (Move (CommitPath w) (Inputs w)) × CommitPath w) :=
  record (cycle p) inputs ⟨{},{},[]⟩

theorem playRan {inputs : List (Inputs w)} {moves : List (Move (CommitPath w) (Inputs w))}
    (done : play p inputs = .ok (moves,s)) : Ran (system p) moves s := by
  refine recordRan ?_ (.start rfl) done
  intro x _ s s' fits
  by_cases legal : x.rst = false ∧ s.writer.Respects p.writer (writerInputs p s x) ∧
      (statusMatch p s x = true → s.outstanding ≠ [])
  · rw [cycle,if_pos legal,Except.ok.injEq] at fits
    exact ⟨legal.1,legal.2.1,legal.2.2,fits.symm⟩
  · rw [cycle,if_neg legal] at fits
    cases fits

def tiny : Parameters 1 where
  writer := {commitBufferSlotBytes := 1}
  buffer :=
    { slotBytes := 1, slotCount := 2, sized := by decide, whole := by decide, binary := by decide,
      populated := by decide, round := by decide }
  sameSlots := rfl
  short := by decide
  fits := by decide

def hostWrite (addr : BitVec 24) (data : BitVec 32) : List (Inputs 1) :=
  [{regWr := some ⟨addr,data⟩},{}]

def tinyTraffic (data : BitVec 8) : List (Inputs 1) :=
  [{inValid := true, inLast := true, inData := data},{},{},{descReady := true},{status := some ⟨0,0⟩},{}]

-- Two slots arrive and are written, 64 bytes apart, to buffer 0, which holds two.
def tinyInputs : List (Inputs 1) :=
  hostWrite 0x014 64 ++ hostWrite 0x100 4096 ++ hostWrite 0x108 2 ++ hostWrite 0x10C 1 ++
    hostWrite 0x00C 1 ++ tinyTraffic 7 ++ tinyTraffic 8

theorem deliveredInOrderOnce : ∃ moves s, play tiny tinyInputs = .ok (moves,s) ∧
    moves.filterMap (popped tiny) = [[7],[8]] ∧
    (moves.filter (succeeded tiny)).map (fun m => m.before.outstanding) =
      [[⟨4096,1,0,1,0⟩],[⟨4160,1,1,1,0⟩]] ∧
    (s.writer.buf false).done = true ∧ s.writer.activeBuf = true ∧ DeliveredInOrder tiny moves s := by
  have value : (play tiny tinyInputs).toOption.map (fun result =>
      decide (result.1.filterMap (popped tiny) = [[7],[8]]) &&
      (decide ((result.1.filter (succeeded tiny)).map (fun m => m.before.outstanding) =
        [[⟨4096,1,0,1,0⟩],[⟨4160,1,1,1,0⟩]]) &&
      ((result.2.writer.buf false).done && result.2.writer.activeBuf))) = some true := by
    decide +kernel
  obtain ⟨⟨moves,s⟩,done,found⟩ := okFound value
  simp only [Bool.and_eq_true,decide_eq_true_eq] at found
  obtain ⟨slots,places,full,switched⟩ := found
  exact ⟨moves,s,done,slots,places,full,switched,deliveredInOrder (playRan done)⟩

end Session

end CommitPath
end Syncons
