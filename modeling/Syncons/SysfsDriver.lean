import Syncons.SysfsFiles

/-! The kernel driver at work: callers of the sysfs files share the register block under one
mutex, and register writes are posted on the way to it. Every file is read and written as if
nothing else were going on. -/
namespace Syncons.Sysfs
open Runs PostedBus
open ConsensusCore (RegWrite)

inductive Presented where
  | nothing
  | head
  | elsewhere (regWr : Option RegWrite) (regRd : Option (BitVec 24))
  deriving DecidableEq, Repr

structure Cycle where
  presented : Presented := .nothing
  debug : DebugWord → BitVec 32 := fun _ => 0
  others : CommonBlock.OtherBlock → CommonBlock.BlockAnswer := fun _ => {}

inductive DriveOp where
  | lock (call : Call)
  | refuse (call : Call)
  | issue
  | unlock
  | cycle (c : Cycle)

structure Driven where
  block : CommonBlock := {}
  queue : List (Access (BitVec 24) (BitVec 32)) := []
  held : Bool := false
  holder : Option (Holder (BitVec 24) (BitVec 32) Reply Call) := none
  finished : List (Call × Reply) := []

namespace Call

-- The self test runs before the files exist.
def sysfs : Call → Bool
  | ssrSelfTest => false
  | _ => true

end Call

namespace Cycle

def quiet (c : Cycle) : Bool :=
  [CommonBlock.OtherBlock.proposalQueue,.commitQueue,.consensus].all fun b =>
    !(c.others b).wrAck && !(c.others b).rdAck

/- A request is presented until it is acknowledged, and no other block acknowledges it. -/
def legal (c : Cycle) (s : Driven) : Bool :=
  match c.presented with
  | .nothing => !s.held
  | .elsewhere regWr regRd =>
    !s.held && regWr.all (fun w => !CommonBlock.rbbCommon w.addr) &&
      regRd.all (fun addr => !CommonBlock.rbbCommon addr)
  | .head => !s.queue.isEmpty && c.quiet

end Cycle

namespace Driven

variable (s : Driven) (c : Cycle)

def inputs : CommonBlock.Inputs :=
  match c.presented,s.queue with
  | .elsewhere regWr regRd,_ => {regWr := regWr, regRd := regRd, debug := c.debug}
  | .head,.write a v :: _ => {regWr := some ⟨a,v⟩, debug := c.debug}
  | .head,.read a :: _ => {regRd := some a, debug := c.debug}
  | _,_ => {debug := c.debug}

def told (v : BitVec 32) : Option (Holder (BitVec 24) (BitVec 32) Reply Call) :=
  match s.holder with
  | some (.waiting call _ rest) => some (.running call (rest v))
  | h => h

def clocked : Driven :=
  let block := s.block.next (s.inputs c)
  match c.presented,s.queue with
  | .head,.write _ _ :: later =>
    if s.block.regWrAck c.others then {s with block := block, queue := later, held := false}
    else {s with block := block, held := true}
  | .head,.read _ :: later =>
    if s.block.regRdAck c.others then
      { s with
        block := block
        queue := later
        held := false
        holder := s.told (s.block.regRdData c.others) }
    else {s with block := block, held := true}
  | _,_ => {s with block := block}

def next : DriveOp → Option Driven
  | .lock call =>
    match s.holder,body call with
    | none,.inr rest =>
      if call.sysfs then some {s with holder := some (.running call rest)} else none
    | _,_ => none
  | .refuse call =>
    match body call with
    | .inl r =>
      if s.finished.isEmpty then none else some {s with finished := s.finished ++ [(call,r)]}
    | .inr _ => none
  | .issue =>
    match s.holder with
    | some (.running call (.write a v rest)) =>
      some {s with queue := s.queue ++ [.write a v], holder := some (.running call rest)}
    | some (.running call (.read a rest)) =>
      some {s with queue := s.queue ++ [.read a], holder := some (.waiting call a rest)}
    | _ => none
  | .unlock =>
    match s.holder with
    | some (.running call (.done r)) =>
      some {s with holder := none, finished := s.finished ++ [(call,r)]}
    | _ => none
  | .cycle c => if c.legal s then some (s.clocked c) else none

def image : Shared (BitVec 24) (BitVec 32) Reply CommonRegisters Call :=
  { store := s.block.regs
    queue := s.queue
    carried := if s.block.wrAck then some none
      else if s.block.rdAck then some (some s.block.rdData) else none
    holder := s.holder
    finished := s.finished }

end Driven

-- The driver has mapped a block out of reset, and the probe starts with the self test.
def driven : System Driven DriveOp where
  start s := s = {holder := some (.running .ssrSelfTest ssrSelfTest)}
  step s op s' := s.next op = some s'

-- An acknowledgement is for the access at the head, which is then being presented.
structure Driven.Aligned (s : Driven) : Prop where
  idle : s.held = false → s.block.wrAck = false ∧ s.block.rdAck = false
  busy : s.held = true → ∃ access later, s.queue = access :: later ∧
    if access.posted then s.block.rdAck = false else s.block.wrAck = false

variable {s s' : Driven} {c : Cycle}

theorem quietAcks (quiet : c.quiet = true) :
    s.block.regWrAck c.others = s.block.wrAck ∧ s.block.regRdAck c.others = s.block.rdAck := by
  simp only [Cycle.quiet,List.all_cons,List.all_nil,Bool.and_true,Bool.and_eq_true,
    Bool.not_eq_true'] at quiet
  simp [CommonBlock.regWrAck,CommonBlock.regRdAck,quiet]

theorem ackedData (acked : s.block.rdAck = true) :
    s.block.regRdData c.others = s.block.rdData := by
  simp [CommonBlock.regRdData,acked]

theorem blockIdle {b : CommonBlock} {x : CommonBlock.Inputs} (running : x.rst = false)
    (noWrite : CommonBlock.regWrEnCommon x = none) (noRead : CommonBlock.regRdEnCommon x = none) :
    b.next x = {regs := b.regs} := by
  have written : b.regWritten x = none := by
    rw [CommonBlock.regWritten,noWrite]
    split <;> rfl
  have read : b.regRead x = none := by
    rw [CommonBlock.regRead,noRead]
    split <;> rfl
  simp [CommonBlock.next,running,written,read]

theorem blockWrite {b : CommonBlock} {debug : DebugWord → BitVec 32} {addr : BitVec 24}
    {v : BitVec 32} (reached : Reached addr) :
    b.next {regWr := some ⟨addr,v⟩, debug := debug} =
      if b.wrAck then {regs := b.regs} else {regs := memory.put b.regs addr v, wrAck := true} := by
  obtain ⟨r,rfl,writable⟩ := reached
  have enabled : CommonBlock.regWrEnCommon {regWr := some ⟨r.offset,v⟩, debug := debug} =
      some ⟨r.offset,v⟩ := by
    simp [CommonBlock.regWrEnCommon,CommonBlock.offsetCommon]
  have noRead : b.regRead {regWr := some ⟨r.offset,v⟩, debug := debug} = none := by
    simp [CommonBlock.regRead,CommonBlock.regRdEnCommon]
  rw [putMapped (CommonBlock.decodeOffset r) writable]
  cases acked : b.wrAck with
  | true => simp [CommonBlock.next,CommonBlock.regWritten,acked,noRead]
  | false =>
    have written : b.regWritten {regWr := some ⟨r.offset,v⟩, debug := debug} = some (r,v) := by
      simp [CommonBlock.regWritten,acked,enabled,CommonBlock.decodeOffset,writable]
    simp [CommonBlock.next,written,noRead]

theorem blockRead {b : CommonBlock} {debug : DebugWord → BitVec 32} {addr : BitVec 24}
    (reached : Reached addr) :
    b.next {regRd := some addr, debug := debug} =
      if b.rdAck then {regs := b.regs}
      else {regs := b.regs, rdAck := true, rdData := memory.get b.regs addr} := by
  obtain ⟨r,rfl,writable⟩ := reached
  have enabled : CommonBlock.regRdEnCommon {regRd := some r.offset, debug := debug} = some r.offset := by
    simp [CommonBlock.regRdEnCommon,CommonBlock.offsetCommon]
  have noWrite : b.regWritten {regRd := some r.offset, debug := debug} = none := by
    simp [CommonBlock.regWritten,CommonBlock.regWrEnCommon]
  have shown : b.regs.shown debug r = b.regs.shown (fun _ => 0) r := by
    cases r with
    | debug word => cases writable
    | _ => rfl
  rw [getMapped (CommonBlock.decodeOffset r)]
  cases acked : b.rdAck with
  | true => simp [CommonBlock.next,CommonBlock.regRead,acked,noWrite]
  | false =>
    have read : b.regRead {regRd := some r.offset, debug := debug} = some r := by
      simp [CommonBlock.regRead,acked,enabled,CommonBlock.decodeOffset]
    simp [CommonBlock.next,noWrite,read,shown]

theorem clockedIdle (legal : c.legal s = true)
    (away : c.presented ≠ .head) : s.held = false ∧ s.clocked c = {s with block := {regs := s.block.regs}} := by
  cases presented : c.presented with
  | head => exact (away presented).elim
  | nothing =>
    have free : s.held = false := by simpa [Cycle.legal,presented] using legal
    have inputs : s.inputs c = {debug := c.debug} := by simp [Driven.inputs,presented]
    have block := blockIdle (b := s.block) (x := {debug := c.debug}) rfl rfl rfl
    exact ⟨free,by simp [Driven.clocked,presented,inputs,block]⟩
  | elsewhere regWr regRd =>
    simp only [Cycle.legal,presented,Bool.and_eq_true,Bool.not_eq_true'] at legal
    obtain ⟨⟨free,writes⟩,reads⟩ := legal
    have inputs : s.inputs c = {regWr := regWr, regRd := regRd, debug := c.debug} := by
      simp [Driven.inputs,presented]
    have noWrite : CommonBlock.regWrEnCommon {regWr := regWr, regRd := regRd, debug := c.debug} = none := by
      cases regWr with
      | none => rfl
      | some w => simpa [CommonBlock.regWrEnCommon] using writes
    have noRead : CommonBlock.regRdEnCommon {regWr := regWr, regRd := regRd, debug := c.debug} = none := by
      cases regRd with
      | none => rfl
      | some a => simpa [CommonBlock.regRdEnCommon] using reads
    have block := blockIdle (b := s.block) rfl noWrite noRead
    exact ⟨free,by simp [Driven.clocked,presented,inputs,block]⟩

theorem idleImage (aligned : s.Aligned) (free : s.held = false) :
    Driven.image {s with block := {regs := s.block.regs}} = s.image ∧
      Driven.Aligned {s with block := {regs := s.block.regs}} := by
  obtain ⟨noWrite,noRead⟩ := aligned.idle free
  refine ⟨by simp [Driven.image,noWrite,noRead],fun _ => ⟨rfl,rfl⟩,?_⟩
  intro held
  rw [free] at held
  cases held

theorem writeClocked {a : BitVec 24} {v : BitVec 32} {later : List (Access (BitVec 24) (BitVec 32))}
    (aligned : s.Aligned) (queue : s.queue = .write a v :: later) (reached : Reached a)
    (presented : c.presented = .head) (quiet : c.quiet = true) :
    ∃ op, Moved memory body s.image op (s.clocked c).image ∧ (s.clocked c).Aligned := by
  have noRead : s.block.rdAck = false := by
    cases held : s.held with
    | false => exact (aligned.idle held).2
    | true =>
      obtain ⟨access,rest,same,acks⟩ := aligned.busy held
      rw [queue] at same
      cases same
      exact acks
  have inputs : s.inputs c = {regWr := some ⟨a,v⟩, debug := c.debug} := by
    simp [Driven.inputs,presented,queue]
  have block : s.block.next {regWr := some ⟨a,v⟩, debug := c.debug} = _ := blockWrite reached
  cases acked : s.block.wrAck with
  | true =>
    have after : s.clocked c = {s with block := {regs := s.block.regs}, queue := later, held := false} := by
      simp [Driven.clocked,presented,queue,inputs,block,(quietAcks quiet).1,acked]
    have out : s.image.carried = some none := by simp [Driven.image,acked]
    have popped : s.image.queue.tail = later := by simp [Driven.image,queue]
    refine ⟨.settle,?_,?_⟩
    · rw [after]
      exact Moved.settled out popped
    · rw [after]
      exact ⟨fun _ => ⟨rfl,rfl⟩,nofun⟩
  | false =>
    have after : s.clocked c = {s with
        block := {regs := memory.put s.block.regs a v, wrAck := true}, held := true} := by
      simp [Driven.clocked,presented,queue,inputs,block,(quietAcks quiet).1,acked]
    have fresh : s.image.carried = none := by simp [Driven.image,acked,noRead]
    refine ⟨.carry,?_,?_⟩
    · rw [after]
      exact Moved.carry fresh queue
    · rw [after]
      exact ⟨nofun,fun _ => ⟨_,later,queue,rfl⟩⟩

theorem readClocked {a : BitVec 24} {later : List (Access (BitVec 24) (BitVec 32))}
    (aligned : s.Aligned) (queue : s.queue = .read a :: later) (reached : Reached a)
    (standing : Standing memory body {} s.image)
    (presented : c.presented = .head) (quiet : c.quiet = true) :
    ∃ op, Moved memory body s.image op (s.clocked c).image ∧ (s.clocked c).Aligned := by
  have noWrite : s.block.wrAck = false := by
    cases held : s.held with
    | false => exact (aligned.idle held).1
    | true =>
      obtain ⟨access,rest,same,acks⟩ := aligned.busy held
      rw [queue] at same
      cases same
      exact acks
  have inputs : s.inputs c = {regRd := some a, debug := c.debug} := by
    simp [Driven.inputs,presented,queue]
  have block : s.block.next {regRd := some a, debug := c.debug} = _ := blockRead reached
  cases acked : s.block.rdAck with
  | true =>
    have out : s.image.carried = some (some s.block.rdData) := by simp [Driven.image,acked,noWrite]
    obtain ⟨call,addr,rest,waits⟩ := answeredWaits standing out
    have told : s.told s.block.rdData = some (.running call (rest s.block.rdData)) := by
      have holder : s.holder = some (.waiting call addr rest) := waits
      simp [Driven.told,holder]
    have after : s.clocked c = {s with
        block := {regs := s.block.regs}, queue := later, held := false,
        holder := some (.running call (rest s.block.rdData))} := by
      simp [Driven.clocked,presented,queue,inputs,block,(quietAcks quiet).2,ackedData acked,acked,told]
    have popped : s.image.queue.tail = later := by simp [Driven.image,queue]
    refine ⟨.settle,?_,?_⟩
    · rw [after]
      exact Moved.answered out popped waits
    · rw [after]
      exact ⟨fun _ => ⟨rfl,rfl⟩,nofun⟩
  | false =>
    have after : s.clocked c = {s with
        block := {regs := s.block.regs, rdAck := true, rdData := memory.get s.block.regs a},
        held := true} := by
      simp [Driven.clocked,presented,queue,inputs,block,(quietAcks quiet).2,acked]
    have fresh : s.image.carried = none := by simp [Driven.image,acked,noWrite]
    refine ⟨.carry,?_,?_⟩
    · rw [after]
      exact Moved.carry fresh queue
    · rw [after]
      exact ⟨nofun,fun _ => ⟨_,later,queue,rfl⟩⟩

theorem cycleMoved (aligned : s.Aligned) (standing : Standing memory body {} s.image)
    (confined : Confined Reached s.image) (legal : c.legal s = true) :
    ((s.clocked c).image = s.image ∨ ∃ op, Moved memory body s.image op (s.clocked c).image) ∧
      (s.clocked c).Aligned := by
  by_cases head : c.presented = .head
  · have quiet : c.quiet = true := by
      simp only [Cycle.legal,head,Bool.and_eq_true] at legal
      exact legal.2
    cases queue : s.queue with
    | nil => simp [Cycle.legal,head,queue] at legal
    | cons access later =>
      have reached : Reached access.addr := confined.queue access (by simp [Driven.image,queue])
      cases access with
      | write a v =>
        obtain ⟨op,moved,after⟩ := writeClocked aligned queue reached head quiet
        exact ⟨.inr ⟨op,moved⟩,after⟩
      | read a =>
        obtain ⟨op,moved,after⟩ := readClocked aligned queue reached standing head quiet
        exact ⟨.inr ⟨op,moved⟩,after⟩
  · obtain ⟨free,after⟩ := clockedIdle legal head
    obtain ⟨same,still⟩ := idleImage aligned free
    rw [after]
    exact ⟨.inl same,still⟩

theorem alignedQueue {access : Access (BitVec 24) (BitVec 32)}
    (h : Option (Holder (BitVec 24) (BitVec 32) Reply Call)) (aligned : s.Aligned) :
    Driven.Aligned {s with queue := s.queue ++ [access], holder := h} := by
  refine ⟨aligned.idle,?_⟩
  intro held
  obtain ⟨oldest,later,queue,acks⟩ := aligned.busy held
  exact ⟨oldest,later ++ [access],by simp [queue],acks⟩

theorem drivenMoved {op : DriveOp} (aligned : s.Aligned) (standing : Standing memory body {} s.image)
    (confined : Confined Reached s.image) (step : s.next op = some s') :
    (s'.image = s.image ∨ ∃ op', Moved memory body s.image op' s'.image) ∧ s'.Aligned := by
  cases op with
  | lock call =>
    simp only [Driven.next] at step
    split at step
    · rename_i rest free enters
      split at step
      · cases step
        exact ⟨.inr ⟨.lock call,Moved.lock free enters⟩,aligned.idle,aligned.busy⟩
      · cases step
    · cases step
  | refuse call =>
    simp only [Driven.next] at step
    split at step
    · rename_i r early
      split at step
      · cases step
      · cases step
        exact ⟨.inr ⟨.refuse call,Moved.refuse early⟩,aligned.idle,aligned.busy⟩
    · cases step
  | issue =>
    simp only [Driven.next] at step
    split at step
    · rename_i call a v rest at_
      cases step
      exact ⟨.inr ⟨.issue,Moved.post at_⟩,alignedQueue _ aligned⟩
    · rename_i call a rest at_
      cases step
      exact ⟨.inr ⟨.issue,Moved.ask at_⟩,alignedQueue _ aligned⟩
    · cases step
  | unlock =>
    simp only [Driven.next] at step
    split at step
    · rename_i call r at_
      cases step
      exact ⟨.inr ⟨.unlock,Moved.unlock at_⟩,aligned.idle,aligned.busy⟩
    · cases step
  | cycle c =>
    simp only [Driven.next,Option.ite_none_right_eq_some,Option.some.injEq] at step
    obtain ⟨legal,rfl⟩ := step
    exact cycleMoved aligned standing confined legal

theorem driverRefines {moves : List (Move Driven DriveOp)} (ran : Ran driven moves s) :
    (∃ calls, Ran (system memory body {} .ssrSelfTest) calls s.image) ∧ s.Aligned := by
  induction ran with
  | start h =>
    cases h
    exact ⟨⟨[],.start ⟨ssrSelfTest,rfl,rfl⟩⟩,fun _ => ⟨rfl,rfl⟩,nofun⟩
  | move before step ih =>
    obtain ⟨⟨calls,ran⟩,aligned⟩ := ih
    obtain ⟨moved,after⟩ := drivenMoved aligned (PostedBus.standing ran) (confined withinBody ran) step
    refine ⟨?_,after⟩
    rcases moved with same | ⟨op,moved⟩
    · exact ⟨calls,same ▸ ran⟩
    · exact ⟨_,ran.move moved⟩

def configStored : Call × Reply → Option Config
  | (.configStore scanned,_) => scanned
  | _ => none

def macStoredAt (i : Fin 7) : Call × Reply → Option MacAddress
  | (.macTableStore (some e),_) => if e.fits && e.place = i then some e.address else none
  | _ => none

def lastConfig (calls : List (Call × Reply)) : Config :=
  (calls.filterMap configStored).getLast?.getD {}

def lastMac (i : Fin 7) (calls : List (Call × Reply)) : MacAddress :=
  (calls.filterMap (macStoredAt i)).getLast?.getD {}

theorem lastSnoc {α β : Type} {f : α → Option β} {l : List α} {a : α} {b : β} :
    ((l ++ [a]).filterMap f).getLast?.getD b = (f a).getD ((l.filterMap f).getLast?.getD b) := by
  rw [filterMapSnoc]
  cases f a <;> simp

theorem configExec (call : Call) (reply : Reply) (q : Settings) :
    (Settings.exec call q).2.config = (configStored (call,reply)).getD q.config := by
  cases call with
  | controlStore parsed | scratchStore parsed => cases parsed <;> rfl
  | configStore scanned => cases scanned <;> rfl
  | macTableStore scanned =>
    cases scanned with
    | none => rfl
    | some e => cases fits : e.fits <;> simp [Settings.exec,configStored,fits]
  | _ => rfl

theorem macExec (i : Fin 7) (call : Call) (reply : Reply) (q : Settings) :
    (Settings.exec call q).2.macTable i = (macStoredAt i (call,reply)).getD (q.macTable i) := by
  cases call with
  | controlStore parsed | scratchStore parsed => cases parsed <;> rfl
  | configStore scanned => cases scanned <;> rfl
  | macTableStore scanned =>
    cases scanned with
    | none => rfl
    | some e =>
      cases fits : e.fits with
      | false => simp [Settings.exec,macStoredAt,fits]
      | true =>
        by_cases same : e.place = i
        · subst same
          simp [Settings.exec,macStoredAt,fits]
        · have other : i ≠ e.place := fun h => same h.symm
          simp [Settings.exec,macStoredAt,fits,same,Function.update_of_ne other]
  | _ => rfl

theorem serialConfig {calls : List (Call × Reply)} {q : Settings}
    (serial : Serial Settings.exec {} calls q) :
    q.config = lastConfig calls ∧ ∀ i, q.macTable i = lastMac i calls := by
  induction serial with
  | nothing => exact ⟨rfl,fun _ => rfl⟩
  | @next calls q call before ih =>
    constructor
    · rw [lastConfig,lastSnoc,configExec call (Settings.exec call q).1 q,ih.1]
      rfl
    · intro i
      rw [lastMac,lastSnoc,macExec i call (Settings.exec call q).1 q,ih.2 i]
      rfl

/- The files as every caller sees them, whoever else uses them and wherever the writes still
are on their way. -/
structure FilesServed (s : Driven) : Prop where
  atomic : ∃ q, Serial Settings.exec {} s.finished q ∧
    (s.holder = none → s.queue = [] → settings s.block.regs = q)
  configs : ∀ pre reply post, s.finished = pre ++ (.configShow,reply) :: post →
    reply = .config (lastConfig pre)
  macTables : ∀ pre reply post, s.finished = pre ++ (.macTableShow,reply) :: post →
    reply = .macTable ((List.finRange 7).map fun i => (i,lastMac i pre))
  statuses : ∀ pre reply post, s.finished = pre ++ (.statusShow,reply) :: post →
    ∃ val, reply = .word val ∧ val.getLsbD 0 = (lastConfig pre).valid
  selfTests : ∀ pre reply post, s.finished = pre ++ (.ssrSelfTest,reply) :: post → reply = .passed
  reached : ∀ access ∈ s.queue, Reached access.addr

theorem statusValid (q : Settings) : q.status.getLsbD 0 = q.config.valid := by
  rw [Settings.status,BitVec.getLsbD_setWidth,BitVec.getLsbD_append]
  simp

theorem settingsStart : settings {} = {} := by
  have zero : macOf 0 0 = {} := by decide
  exact congrArg (fun t => ({macTable := t} : Settings)) (funext fun _ => zero)

theorem filesServed {moves : List (Move Driven DriveOp)} (ran : Ran driven moves s) : FilesServed s := by
  obtain ⟨⟨calls,image⟩,aligned⟩ := driverRefines ran
  obtain ⟨regs,serial,free⟩ := serialised image
  have files : Serial Settings.exec {} s.finished (settings regs) :=
    settingsStart ▸ serialMap settings bodyExec serial
  refine ⟨⟨_,files,?_⟩,?_,?_,?_,?_,(confined withinBody image).queue⟩
  · intro holder queue
    rw [← free holder]
    simp [Shared.settledStore,Shared.pending,Driven.image,queue,carriedOut]
  · intro pre reply post split
    rw [split] at files
    obtain ⟨q,before,result⟩ := serialAt files
    rw [← (serialConfig before).1]
    exact result
  · intro pre reply post split
    rw [split] at files
    obtain ⟨q,before,result⟩ := serialAt files
    have same : (fun i => (i,lastMac i pre)) = fun i => (i,q.macTable i) :=
      funext fun i => by rw [(serialConfig before).2 i]
    rw [same]
    exact result
  · intro pre reply post split
    rw [split] at files
    obtain ⟨q,before,result⟩ := serialAt files
    refine ⟨_,result,?_⟩
    rw [← (serialConfig before).1]
    exact statusValid q
  · intro pre reply post split
    rw [split] at files
    obtain ⟨q,before,result⟩ := serialAt files
    exact result

/- Two stores one after the other, the second while the first is still under way, then a look at
both files; the last store is turned away. -/
def twoFiles : List DriveOp :=
  let present : DriveOp := .cycle {presented := .head}
  [.issue,present,present,.issue,present,present,.issue,present,present,
    .issue,.issue,present,present,present,present,.unlock,
    .lock (.configStore (some ⟨2,3,4000,1777⟩)),.issue,.issue,present,.issue,.issue,.unlock,
    .lock (.macTableStore (some ⟨6,1,2,3,4,5,255⟩)),.issue,.cycle {presented := .head},.issue,.unlock,
    .lock .configShow,.issue,
    present,present,present,present,present,present,present,present,present,present,present,present,
    .issue,present,present,.cycle {},.issue,present,present,.issue,present,present,.unlock,
    .refuse (.macTableStore (some ⟨7,1,2,3,4,5,255⟩)),.lock .statusShow,.issue,present,present,.unlock]

theorem filesServedOnce : ∃ moves s, Ran driven moves s ∧ FilesServed s ∧
    s.finished.map Prod.snd =
      [.passed,.count,.count,.config ⟨2,3,4000,1777⟩,.error .einval,.word 1] := by
  have value : (record (fun s op => (s.next op).elim (.error ()) .ok) twoFiles
      ({holder := some (.running .ssrSelfTest ssrSelfTest)} : Driven)).toOption.map
        (fun r => decide (r.2.finished.map Prod.snd =
          [.passed,.count,.count,.config ⟨2,3,4000,1777⟩,.error .einval,.word 1])) = some true := by
    decide +kernel
  obtain ⟨⟨moves,s⟩,done,found⟩ := okFound value
  have ran : Ran driven moves s := by
    have legal : ∀ op ∈ twoFiles, ∀ s s' : Driven,
        ((s.next op).elim (.error ()) .ok : Except Unit Driven) = .ok s' → driven.step s op s' := by
      intro op _ s s' took
      cases stepped : s.next op with
      | none => rw [stepped] at took; cases took
      | some t =>
        rw [stepped] at took
        cases took
        exact stepped
    simpa using recordRan legal (Ran.start rfl) done
  exact ⟨moves,s,ran,filesServed ran,of_decide_eq_true found⟩

end Syncons.Sysfs
