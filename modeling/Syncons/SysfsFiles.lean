import Syncons.BitFields
import Syncons.CommonRegisters
import Syncons.PostedBus

/-! The self test and the sysfs files of the kernel driver: the register accesses each of them
makes, and what the files stand for. -/
namespace Syncons.Sysfs
open Runs PostedBus BitFields

inductive Errno where
  | enodev | eio | einval | erange
  deriving DecidableEq, Repr

structure Config where
  replicaId : BitVec 32 := 0
  replicaCount : BitVec 32 := 0
  roundLengthNs : BitVec 32 := 0
  ethernetType : BitVec 32 := 0
  deriving DecidableEq, Repr

structure MacEntry where
  index : BitVec 32
  b0 : BitVec 32
  b1 : BitVec 32
  b2 : BitVec 32
  b3 : BitVec 32
  b4 : BitVec 32
  b5 : BitVec 32
  deriving DecidableEq, Repr

structure MacAddress where
  b0 : BitVec 8 := 0
  b1 : BitVec 8 := 0
  b2 : BitVec 8 := 0
  b3 : BitVec 8 := 0
  b4 : BitVec 8 := 0
  b5 : BitVec 8 := 0
  deriving DecidableEq, Repr

/- The self test of the probe and the sysfs files, each store with what the kernel parsed: a
number or its error, and the numbers of a scan that matched them all. -/
inductive Call where
  | ssrSelfTest
  | featuresShow
  | statusShow
  | controlShow
  | controlStore (parsed : Except Errno (BitVec 32))
  | scratchShow
  | scratchStore (parsed : Except Errno (BitVec 32))
  | configShow
  | configStore (scanned : Option Config)
  | macTableShow
  | macTableStore (scanned : Option MacEntry)

inductive Reply where
  | passed
  | count
  | error (e : Errno)
  | word (val : BitVec 32)
  | config (c : Config)
  | macTable (rows : List (Fin 7 × MacAddress))
  deriving DecidableEq, Repr

abbrev Body := Program (BitVec 24) (BitVec 32) Reply

def ssrRegType : BitVec 32 := 0x00
def ssrRegVersion : BitVec 32 := 0x04
def ssrRegFeatures : BitVec 32 := 0x0c
def ssrRegCtrl : BitVec 32 := 0x10
def ssrRegStatus : BitVec 32 := 0x14
def ssrRegScratch : BitVec 32 := 0x1c
def ssrRegReplicaId : BitVec 32 := 0x20
def ssrRegReplicaCount : BitVec 32 := 0x24
def ssrRegRoundLengthNs : BitVec 32 := 0x28
def ssrRegEthernetType : BitVec 32 := 0x2c
def ssrRegMacTableBase : BitVec 32 := 0x100
def ssrRegMacTableStride : BitVec 32 := 0x08
def ssrRegMacLowOffset : BitVec 32 := 0x00
def ssrRegMacHighOffset : BitVec 32 := 0x04
def ssrMaxReplicas : BitVec 32 := 7
def ssrRbType : BitVec 32 := 0x53535201
def ssrRbVersion : BitVec 32 := 0x00000100

def ssrReadl (reg : BitVec 32) (rest : BitVec 32 → Body) : Body := .read (reg.setWidth 24) rest
def ssrWritel (reg : BitVec 32) (value : BitVec 32) (rest : Body) : Body :=
  .write (reg.setWidth 24) value rest

def ssrSelfTest : Body :=
  ssrReadl ssrRegType fun type =>
  ssrReadl ssrRegVersion fun version =>
  ssrReadl ssrRegFeatures fun _ =>
  if type ≠ ssrRbType then .done (.error .enodev)
  else if version ≠ ssrRbVersion then .done (.error .enodev)
  else
    ssrWritel ssrRegScratch 0xdeadbeef <|
    ssrReadl ssrRegScratch fun val =>
    if val ≠ 0xdeadbeef then .done (.error .eio) else .done .passed

def wordShow (reg : BitVec 32) : Body := ssrReadl reg fun val => .done (.word val)

def wordStore (reg : BitVec 32) : Except Errno (BitVec 32) → Reply ⊕ Body
  | .error e => .inl (.error e)
  | .ok val => .inr (ssrWritel reg val (.done .count))

def configStore : Option Config → Reply ⊕ Body
  | none => .inl (.error .einval)
  | some c => .inr <|
    ssrWritel ssrRegReplicaId c.replicaId <|
    ssrWritel ssrRegReplicaCount c.replicaCount <|
    ssrWritel ssrRegRoundLengthNs c.roundLengthNs <|
    ssrWritel ssrRegEthernetType c.ethernetType <|
    .done .count

def configShow : Body :=
  ssrReadl ssrRegReplicaId fun replicaId =>
  ssrReadl ssrRegReplicaCount fun replicaCount =>
  ssrReadl ssrRegRoundLengthNs fun roundLengthNs =>
  ssrReadl ssrRegEthernetType fun ethernetType =>
  .done (.config ⟨replicaId,replicaCount,roundLengthNs,ethernetType⟩)

namespace MacEntry

def fits (e : MacEntry) : Bool :=
  e.index < ssrMaxReplicas && e.b0 ≤ 0xff && e.b1 ≤ 0xff && e.b2 ≤ 0xff && e.b3 ≤ 0xff &&
    e.b4 ≤ 0xff && e.b5 ≤ 0xff

def macLow (e : MacEntry) : BitVec 32 := e.b0 ||| (e.b1 <<< 8) ||| (e.b2 <<< 16) ||| (e.b3 <<< 24)
def macHigh (e : MacEntry) : BitVec 32 := e.b4 ||| (e.b5 <<< 8)
def base (index : BitVec 32) : BitVec 32 := ssrRegMacTableBase + index * ssrRegMacTableStride

end MacEntry

def macTableStore : Option MacEntry → Reply ⊕ Body
  | none => .inl (.error .einval)
  | some e =>
    if !e.fits then .inl (.error .einval)
    else .inr <|
      ssrWritel (MacEntry.base e.index + ssrRegMacLowOffset) e.macLow <|
      ssrWritel (MacEntry.base e.index + ssrRegMacHighOffset) e.macHigh <|
      .done .count

def macOf (macLow macHigh : BitVec 32) : MacAddress :=
  { b0 := (macLow &&& 0xff).setWidth 8
    b1 := ((macLow >>> 8) &&& 0xff).setWidth 8
    b2 := ((macLow >>> 16) &&& 0xff).setWidth 8
    b3 := ((macLow >>> 24) &&& 0xff).setWidth 8
    b4 := (macHigh &&& 0xff).setWidth 8
    b5 := ((macHigh >>> 8) &&& 0xff).setWidth 8 }

def macRows : List (Fin 7) → List (Fin 7 × MacAddress) → Body
  | [],rows => .done (.macTable rows)
  | index :: later,rows =>
    ssrReadl (MacEntry.base (BitVec.ofNat 32 index.val) + ssrRegMacLowOffset) fun macLow =>
    ssrReadl (MacEntry.base (BitVec.ofNat 32 index.val) + ssrRegMacHighOffset) fun macHigh =>
    macRows later (rows ++ [(index,macOf macLow macHigh)])

def macTableShow : Body := macRows (List.finRange 7) []

def body : Call → Reply ⊕ Body
  | .ssrSelfTest => .inr ssrSelfTest
  | .featuresShow => .inr (wordShow ssrRegFeatures)
  | .statusShow => .inr (wordShow ssrRegStatus)
  | .controlShow => .inr (wordShow ssrRegCtrl)
  | .controlStore parsed => wordStore ssrRegCtrl parsed
  | .scratchShow => .inr (wordShow ssrRegScratch)
  | .scratchStore parsed => wordStore ssrRegScratch parsed
  | .configShow => .inr configShow
  | .configStore scanned => configStore scanned
  | .macTableShow => .inr macTableShow
  | .macTableStore scanned => macTableStore scanned

/- What the files stand for. -/
structure Settings where
  control : BitVec 32 := 0
  scratch : BitVec 32 := 0
  config : Config := {}
  macTable : Fin 7 → MacAddress := fun _ => {}

namespace Config

def valid (c : Config) : Bool :=
  0 < c.replicaCount && c.replicaCount ≤ 7 && c.roundLengthNs ≠ 0 && c.replicaId < c.replicaCount

end Config

namespace MacEntry

def address (e : MacEntry) : MacAddress :=
  ⟨e.b0.setWidth 8,e.b1.setWidth 8,e.b2.setWidth 8,e.b3.setWidth 8,e.b4.setWidth 8,e.b5.setWidth 8⟩

def place (e : MacEntry) : Fin 7 := Fin.ofNat 7 e.index.toNat

end MacEntry

namespace Settings

def status (q : Settings) : BitVec 32 :=
  (BitVec.ofBool (q.control.getLsbD 1) ++ BitVec.ofBool (q.control.getLsbD 0) ++
    BitVec.ofBool q.config.valid).setWidth 32

def exec : Call → Settings → Reply × Settings
  | .ssrSelfTest,q => (.passed,{q with scratch := 0xdeadbeef})
  | .featuresShow,q => (.word 0x0000000f,q)
  | .statusShow,q => (.word q.status,q)
  | .controlShow,q => (.word q.control,q)
  | .controlStore (.ok val),q => (.count,{q with control := val})
  | .controlStore (.error e),q => (.error e,q)
  | .scratchShow,q => (.word q.scratch,q)
  | .scratchStore (.ok val),q => (.count,{q with scratch := val})
  | .scratchStore (.error e),q => (.error e,q)
  | .configShow,q => (.config q.config,q)
  | .configStore (some c),q => (.count,{q with config := c})
  | .configStore none,q => (.error .einval,q)
  | .macTableShow,q => (.macTable ((List.finRange 7).map fun i => (i,q.macTable i)),q)
  | .macTableStore (some e),q =>
    if e.fits then (.count,{q with macTable := Function.update q.macTable e.place e.address})
    else (.error .einval,q)
  | .macTableStore none,q => (.error .einval,q)

end Settings

def settings (regs : CommonRegisters) : Settings :=
  { control := regs.control
    scratch := regs.scratch
    config := ⟨regs.replicaId,regs.replicaNum,regs.roundLengthNs,regs.ethernetPort⟩
    macTable := fun i => macOf (regs.replicaMacLo i) (regs.replicaMacHi i) }

-- The block as a memory; the debug words change by themselves and are left out of it.
def memory : Memory (BitVec 24) (BitVec 32) CommonRegisters where
  put regs addr data :=
    match (CommonBlock.decode addr).filter CommonBlock.Register.writable with
    | some r => regs.written r data
    | none => regs
  get regs addr :=
    match CommonBlock.decode addr with
    | some r => regs.shown (fun _ => 0) r
    | none => 0

theorem putMapped {regs : CommonRegisters} {addr : BitVec 24} {data : BitVec 32}
    {r : CommonBlock.Register} (mapped : CommonBlock.decode addr = some r) (writable : r.writable = true) :
    memory.put regs addr data = regs.written r data := by
  have there : (some r).filter CommonBlock.Register.writable = some r := by simp [writable]
  simp only [memory,mapped,there]

theorem getMapped {regs : CommonRegisters} {addr : BitVec 24} {r : CommonBlock.Register}
    (mapped : CommonBlock.decode addr = some r) :
    memory.get regs addr = regs.shown (fun _ => 0) r := by
  simp only [memory,mapped]

theorem readAt {reg : BitVec 32} {rest : BitVec 32 → Body} {regs : CommonRegisters}
    (r : CommonBlock.Register) (at_ : reg.setWidth 24 = r.offset) :
    (ssrReadl reg rest).run memory regs = (rest (regs.shown (fun _ => 0) r)).run memory regs := by
  rw [ssrReadl,Program.run,at_,getMapped (CommonBlock.decodeOffset r)]

theorem writeAt {reg value : BitVec 32} {rest : Body} {regs : CommonRegisters}
    (r : CommonBlock.Register) (at_ : reg.setWidth 24 = r.offset) (writable : r.writable = true) :
    (ssrWritel reg value rest).run memory regs = rest.run memory (regs.written r value) := by
  rw [ssrWritel,Program.run,at_,putMapped (CommonBlock.decodeOffset r) writable]

theorem macLowAt (i : Fin 7) :
    (MacEntry.base (BitVec.ofNat 32 i.val) + ssrRegMacLowOffset).setWidth 24 =
      (CommonBlock.Register.replicaMacLo i).offset := by
  revert i
  decide

theorem macHighAt (i : Fin 7) :
    (MacEntry.base (BitVec.ofNat 32 i.val) + ssrRegMacHighOffset).setWidth 24 =
      (CommonBlock.Register.replicaMacHi i).offset := by
  revert i
  decide

theorem macRowsRun {regs : CommonRegisters} (left : List (Fin 7)) (rows : List (Fin 7 × MacAddress)) :
    (macRows left rows).run memory regs =
      (.macTable (rows ++ left.map fun i => (i,(settings regs).macTable i)),regs) := by
  induction left generalizing rows with
  | nil => simp [macRows,Program.run]
  | cons index later ih =>
    rw [macRows,readAt _ (macLowAt index),readAt _ (macHighAt index),ih]
    simp [settings,CommonRegisters.shown]

theorem byteWide {b : BitVec 32} (small : b ≤ 0xff) : b = (b.setWidth 8).setWidth 32 := by
  apply BitVec.eq_of_toNat_eq
  have bound : b.toNat ≤ 255 := small
  simp
  omega

theorem macOfFields (lo hi : BitVec 32) : macOf lo hi =
    ⟨field lo 0 8,field lo 8 8,field lo 16 8,field lo 24 8,field hi 0 8,field hi 8 8⟩ := by
  have masked : ∀ (v : BitVec 32) (k : Nat), ((v >>> k) &&& 0xff).setWidth 8 = field v k 8 :=
    fun v k => fieldMasked (w := 8) 
  have first : ∀ v : BitVec 32, (v &&& 0xff).setWidth 8 = field v 0 8 := by
    intro v
    simpa using masked v 0
  simp only [macOf,masked,first]

theorem macStored {e : MacEntry} (fits : e.fits = true) : macOf e.macLow e.macHigh = e.address := by
  simp only [MacEntry.fits,Bool.and_eq_true,decide_eq_true_eq] at fits
  obtain ⟨⟨⟨⟨⟨⟨_,h0⟩,h1⟩,h2⟩,h3⟩,h4⟩,h5⟩ := fits
  have unshifted : ∀ v : BitVec 32, v = v <<< 0 := by simp
  rw [macOfFields,MacEntry.macLow,MacEntry.macHigh,byteWide h0,byteWide h1,byteWide h2,byteWide h3,
    byteWide h4,byteWide h5,unshifted ((e.b0.setWidth 8).setWidth 32),unshifted ((e.b4.setWidth 8).setWidth 32)]
  simp only [fieldOr,MacEntry.address]
  simp (disch := omega) only [fieldShifted,fieldShiftedOther]
  simp


theorem placed {e : MacEntry} (fits : e.fits = true) : BitVec.ofNat 32 e.place.val = e.index := by
  simp only [MacEntry.fits,Bool.and_eq_true,decide_eq_true_eq] at fits
  have small : e.index.toNat < 7 := fits.1.1.1.1.1.1
  apply BitVec.eq_of_toNat_eq
  simp [MacEntry.place,Nat.mod_eq_of_lt small]

theorem settingsMac {regs : CommonRegisters} {e : MacEntry} (fits : e.fits = true) :
    settings ((regs.written (.replicaMacLo e.place) e.macLow).written (.replicaMacHi e.place) e.macHigh) =
      {settings regs with macTable := Function.update (settings regs).macTable e.place e.address} := by
  have table : ∀ i, macOf (Function.update regs.replicaMacLo e.place e.macLow i)
      (Function.update regs.replicaMacHi e.place e.macHigh i) =
      Function.update (settings regs).macTable e.place e.address i := by
    intro i
    by_cases same : i = e.place
    · rw [same,Function.update_self,Function.update_self,Function.update_self,macStored fits]
    · rw [Function.update_of_ne same,Function.update_of_ne same,Function.update_of_ne same]
      rfl
  simpa [settings,CommonRegisters.written] using funext table

theorem validSame {regs : CommonRegisters} : regs.configValid = (settings regs).config.valid := by
  have positive : (decide (regs.replicaNum ≠ 0)) = decide (0 < regs.replicaNum) := by
    rw [decide_eq_decide]
    exact (BitVec.pos_iff_ne_zero _).symm
  rw [CommonRegisters.configValid,positive]
  rfl

-- Each file's program, run at once, does what the file stands for.
theorem bodyExec (call : Call) (regs : CommonRegisters) :
    Settings.exec call (settings regs) =
      ((atOnce memory body call regs).1,settings (atOnce memory body call regs).2) := by
  cases call with
  | ssrSelfTest => rfl
  | featuresShow => rfl
  | statusShow =>
    have read : atOnce memory body .statusShow regs = (.word regs.status,regs) := rfl
    rw [read,CommonRegisters.status,validSame]
    rfl
  | controlShow => rfl
  | controlStore parsed => cases parsed <;> rfl
  | scratchShow => rfl
  | scratchStore parsed => cases parsed <;> rfl
  | configShow => rfl
  | configStore scanned => cases scanned <;> rfl
  | macTableShow =>
    have read : atOnce memory body .macTableShow regs = (macTableShow).run memory regs := rfl
    rw [read,macTableShow,macRowsRun]
    rfl
  | macTableStore scanned =>
    cases scanned with
    | none => rfl
    | some e =>
      cases fits : e.fits with
      | false => simp [Settings.exec,atOnce,body,macTableStore,fits]
      | true =>
        have whole : atOnce memory body (.macTableStore (some e)) regs = (.count,
            (regs.written (.replicaMacLo e.place) e.macLow).written (.replicaMacHi e.place) e.macHigh) := by
          simp only [atOnce,body,macTableStore,fits,Bool.not_true,Bool.false_eq_true,if_false]
          rw [← placed fits,writeAt _ (macLowAt e.place) rfl,writeAt _ (macHighAt e.place) rfl]
          rfl
        rw [whole,settingsMac fits]
        simp [Settings.exec,fits]

-- The addresses of the driver are those of registers it can write.
def Reached (addr : BitVec 24) : Prop :=
  ∃ r : CommonBlock.Register, addr = r.offset ∧ r.writable = true

theorem withinRead {reg : BitVec 32} {rest : BitVec 32 → Body} (r : CommonBlock.Register)
    (at_ : reg.setWidth 24 = r.offset) (writable : r.writable = true)
    (later : ∀ v, (rest v).Within Reached) : (ssrReadl reg rest).Within Reached :=
  ⟨⟨r,at_,writable⟩,later⟩

theorem withinWrite {reg value : BitVec 32} {rest : Body} (r : CommonBlock.Register)
    (at_ : reg.setWidth 24 = r.offset) (writable : r.writable = true) (later : rest.Within Reached) :
    (ssrWritel reg value rest).Within Reached :=
  ⟨⟨r,at_,writable⟩,later⟩

theorem withinWord (r : CommonBlock.Register) {reg : BitVec 32} (at_ : reg.setWidth 24 = r.offset)
    (writable : r.writable = true) : (wordShow reg).Within Reached :=
  withinRead r at_ writable (fun _ => trivial)

theorem withinSelfTest : ssrSelfTest.Within Reached := by
  refine withinRead .type rfl rfl fun type => ?_
  refine withinRead .version rfl rfl fun version => ?_
  refine withinRead .features rfl rfl fun features => ?_
  split
  · trivial
  · split
    · trivial
    · refine withinWrite .scratch rfl rfl ?_
      refine withinRead .scratch rfl rfl fun val => ?_
      split <;> trivial

theorem withinRows (left : List (Fin 7)) (rows : List (Fin 7 × MacAddress)) :
    (macRows left rows).Within Reached := by
  induction left generalizing rows with
  | nil => trivial
  | cons index later ih =>
    refine withinRead _ (macLowAt index) rfl fun low => ?_
    exact withinRead _ (macHighAt index) rfl fun high => ih _

theorem withinBody (call : Call) (b : Body) (enters : body call = .inr b) : b.Within Reached := by
  cases call with
  | ssrSelfTest =>
    cases enters
    exact withinSelfTest
  | featuresShow =>
    cases enters
    exact withinWord .features rfl rfl
  | statusShow =>
    cases enters
    exact withinWord .status rfl rfl
  | controlShow =>
    cases enters
    exact withinWord .control rfl rfl
  | controlStore parsed =>
    cases parsed with
    | error e => cases enters
    | ok val =>
      cases enters
      exact withinWrite .control rfl rfl trivial
  | scratchShow =>
    cases enters
    exact withinWord .scratch rfl rfl
  | scratchStore parsed =>
    cases parsed with
    | error e => cases enters
    | ok val =>
      cases enters
      exact withinWrite .scratch rfl rfl trivial
  | configShow =>
    cases enters
    exact withinRead .replicaId rfl rfl fun _ => withinRead .replicaNum rfl rfl fun _ =>
      withinRead .roundLengthNs rfl rfl fun _ => withinRead .ethernetPort rfl rfl fun _ => trivial
  | configStore scanned =>
    cases scanned with
    | none => cases enters
    | some c =>
      cases enters
      exact withinWrite .replicaId rfl rfl <| withinWrite .replicaNum rfl rfl <|
        withinWrite .roundLengthNs rfl rfl <| withinWrite .ethernetPort rfl rfl trivial
  | macTableShow =>
    cases enters
    exact withinRows _ _
  | macTableStore scanned =>
    cases scanned with
    | none => cases enters
    | some e =>
      cases fits : e.fits with
      | false => simp [body,macTableStore,fits] at enters
      | true =>
        simp only [body,macTableStore,fits,Bool.not_true,Bool.false_eq_true,if_false,
          Sum.inr.injEq] at enters
        rw [← enters,← placed fits]
        exact withinWrite _ (macLowAt e.place) rfl <| withinWrite _ (macHighAt e.place) rfl trivial

end Syncons.Sysfs
