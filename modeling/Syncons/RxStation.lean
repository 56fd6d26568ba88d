import Syncons.RxEngine
import Syncons.RxEvidence

/-! A core and the receive engine in front of it. The engine shows the core each parsed
header and stores a payload on its verdict alone, so the commit ring holds, under the round
and the sender, the payload of every peer that a commit names. -/
namespace Syncons
open Runs
open ConsensusCore (Core Bench RxRow FaultFree Piped)
open RxEngine (Peer)

structure RxStation (k : Nat) where
  bench : Bench
  engine : RxEngine k

namespace RxStation

structure Parameters where
  core : ConsensusCore.Parameters
  engine : RxEngine.Parameters
  sameNode : engine.nodeId = core.nodeId
  sameCount : engine.nodeCount = core.nodeCount

-- What the core gets on its receive port is the engine's, whatever `core` says.
structure Inputs (p : Parameters) where
  core : ConsensusCore.Inputs
  beat : Option (RxEngine.MacBeat (8 * p.engine.keepWidth)) := none
  localOffer : Option (LocalPayload p.engine.payloadBytes) := none

section Wiring

variable (p : Parameters) (s : RxStation p.engine.payloadBytes) (x : Inputs p)

def shown : Option RxRow :=
  (RxEngine.underway p.engine s.engine).map (fun f => ⟨f.nodeId,f.row,f.runId,f.roundId⟩)

def coreInputs : ConsensusCore.Inputs := {x.core with rx := shown p s}

def rxAccepted : Option RxRow := s.bench.core.rxAccepted p.core (coreInputs p s x)

def engineInputs : RxEngine.Inputs p.engine where
  rst := x.core.rst
  beat := x.beat
  rxAccepted := (rxAccepted p s x).isSome
  localOffer := x.localOffer

def next : RxStation p.engine.payloadBytes where
  bench := ⟨s.bench.core.next p.core (coreInputs p s x),some x.core.instant⟩
  engine := s.engine.next p.engine (engineInputs p s x)

end Wiring

def system (p : Parameters) : System (RxStation p.engine.payloadBytes) (Inputs p) where
  start s := s.bench = ⟨ConsensusCore.powerUp p.core,none⟩ ∧ s.engine.Cleared
  step s x s' := FaultFree p.core s.bench.now x.core ∧ s' = next p s x

variable {p : Parameters} {s s' : RxStation p.engine.payloadBytes} {x : Inputs p}
  {m : Move (RxStation p.engine.payloadBytes) (Inputs p)}
  {moves pre post : List (Move (RxStation p.engine.payloadBytes) (Inputs p))}

def coreView (m : Move (RxStation p.engine.payloadBytes) (Inputs p)) : Move Bench ConsensusCore.Inputs :=
  ⟨m.before.bench,coreInputs p m.before m.op,m.after.bench⟩

def engineView (m : Move (RxStation p.engine.payloadBytes) (Inputs p)) :
    Move (RxEngine p.engine.payloadBytes) (RxEngine.Inputs p.engine) :=
  ⟨m.before.engine,engineInputs p m.before m.op,m.after.engine⟩

def committed (m : Move (RxStation p.engine.payloadBytes) (Inputs p)) : Option (BitVec 64) :=
  ConsensusCore.committed (coreView m)

def heard (m : Move (RxStation p.engine.payloadBytes) (Inputs p)) :
    Option (RxFrame p.engine.payloadBytes) := RxEngine.heard p.engine (engineView m)

def ringWritten (m : Move (RxStation p.engine.payloadBytes) (Inputs p)) :
    Option (RingWrite p.engine.payloadBytes) := RxEngine.written p.engine (engineView m)

def peerWrite (m : Move (RxStation p.engine.payloadBytes) (Inputs p)) :
    Option (RingWrite p.engine.payloadBytes) := RxEngine.peerWrite p.engine (engineView m)

theorem freeShown (free : FaultFree p.core s.bench.now x.core) :
    FaultFree p.core s.bench.now (coreInputs p s x) :=
  ⟨free.valid,free.steady,free.within,free.advances⟩

theorem ranCore (ran : Ran (system p) moves s) :
    Ran (ConsensusCore.system p.core) (moves.map coreView) s.bench := by
  induction ran with
  | start h =>
    rw [h.1]
    exact .start rfl
  | @move moves s x s' before h ih =>
    obtain ⟨free,rfl⟩ := h
    rw [List.map_append]
    exact .move ih ⟨freeShown free,rfl⟩

theorem ranLatched (ran : Ran (system p) moves s) : ∀ f, RxEngine.underway p.engine s.engine = some f →
    ∃ pre a, moves = pre ++ [a] ∧ heard a = some f := by
  intro f held
  cases ran with
  | start h => simp [RxEngine.underway,h.2.idle] at held
  | @move moves s x s' before h =>
    obtain ⟨free,rfl⟩ := h
    refine ⟨moves,⟨s,x,next p s x⟩,rfl,?_⟩
    cases alive : x.core.rst with
    | true =>
      have idle := (RxEngine.resetClears (r := s.engine) (x := engineInputs p s x) alive).idle
      simp [next,RxEngine.underway,idle] at held
    | false =>
      have takes := (RxEngine.cycle (r := s.engine) (x := engineInputs p s x) alive).takes
      exact takes.symm.trans held

theorem ranPeer (ran : Ran (system p) moves s) :
    ∀ f ∈ RxEngine.underway p.engine s.engine, Peer p.engine f := by
  intro f held
  obtain ⟨_,_,_,heard⟩ := ranLatched ran f held
  exact RxEngine.heardPeer heard

/- The payload of node `i` for round `r`: heard whole in one cycle, and in the next one on
the write port of the ring. -/
def Stored (p : Parameters) (moves : List (Move (RxStation p.engine.payloadBytes) (Inputs p)))
    (r : BitVec 64) (i : Nat) : Prop :=
  ∃ pre a b post f, moves = pre ++ a :: b :: post ∧ heard a = some f ∧ f.roundId = r ∧
    f.nodeId.toNat = i ∧ ringWritten b = some f.slot

theorem storedMore {r : BitVec 64} {i : Nat} (stored : Stored p moves r i) :
    Stored p (moves ++ [m]) r i := by
  obtain ⟨pre,a,b,post,f,split,rest⟩ := stored
  exact ⟨pre,a,b,post ++ [m],f,by simp [split],rest⟩

theorem acceptedShown {r : RxRow} (held : rxAccepted p s x = some r) :
    ∃ f, RxEngine.underway p.engine s.engine = some f ∧ r = ⟨f.nodeId,f.row,f.runId,f.roundId⟩ ∧
      s.bench.core.rxAccept p.core r = true := by
  obtain ⟨same,taken⟩ := Option.filter_eq_some_iff.mp held
  obtain ⟨f,under,rfl⟩ := Option.map_eq_some_iff.mp same
  exact ⟨f,under,rfl,taken⟩

theorem acceptedStored {r : RxRow} (ran : Ran (system p) moves s) (alive : x.core.rst = false)
    (held : rxAccepted p s x = some r) :
    Stored p (moves ++ [⟨s,x,next p s x⟩]) r.roundId r.nodeId.toNat := by
  obtain ⟨f,under,rfl,_⟩ := acceptedShown held
  obtain ⟨pre,a,rfl,heard⟩ := ranLatched ran f under
  refine ⟨pre,a,⟨s,x,next p s x⟩,[],f,by simp,heard,rfl,rfl,?_⟩
  have writes := (RxEngine.cycle (r := s.engine) (x := engineInputs p s x) alive).writes
  simp only [RxEngine.underway] at under
  split at under
  case isFalse => cases under
  case isTrue present =>
    have port : RxEngine.remoteWrites p.engine s.engine (engineInputs p s x) = true := by
      simp [RxEngine.remoteWrites,engineInputs,present,held]
    rw [port,if_pos rfl,Option.some.inj under] at writes
    exact writes

/- While the core runs: what its current stage counts is stored under the current round, and
what it advertises is stored under the round before. -/
structure Backed (p : Parameters) (moves : List (Move (RxStation p.engine.payloadBytes) (Inputs p)))
    (q : ConsensusCore.Protocol) : Prop where
  current : ∀ i, q.currentStageProposals.getLsbD i = true →
    i = p.core.nodeId ∨ Stored p moves q.currentStageRoundId i
  previous : q.previousStageValid = true → ∀ i, q.txRow.getLsbD i = true →
    i = p.core.nodeId ∨ Stored p moves q.previousStageRoundId i

theorem selfOnly {i : Nat} (bit : p.core.selfBit.getLsbD i = true) : i = p.core.nodeId := by
  rw [ConsensusCore.Parameters.selfBit,ConsensusCore.bitGet (ConsensusCore.selfSmall p.core)] at bit
  exact of_decide_eq_true bit

theorem backedStep (ran : Ran (system p) moves s) (step : (system p).step s x s')
    (backed : s.bench.core.protocol.state = .run → Backed p moves s.bench.core.protocol)
    (running : s'.bench.core.protocol.state = .run) :
    Backed p (moves ++ [⟨s,x,s'⟩]) s'.bench.core.protocol := by
  obtain ⟨free,rfl⟩ := step
  have upTo := ranCore ran
  have tick := ConsensusCore.tickOf (ConsensusCore.ranTimed upTo) (freeShown (x := x) free)
  have here : (next p s x).bench.core.protocol =
      s.bench.core.protocolNext p.core (coreInputs p s x) := rfl
  rw [here] at running ⊢
  cases ConsensusCore.through tick running with
  | listened quiet before after =>
    have alive : x.core.rst = false := (ConsensusCore.runningBefore tick running).2.1
    have old := backed before
    have piped := ConsensusCore.ranPiped upTo before
    have settled : s.bench.core.lastEntered = s.bench.core.timing.roundId :=
      ConsensusCore.lastEnteredQuiet quiet
    have keeps := @ConsensusCore.arrivalKeeps p.core s.bench.core (coreInputs p s x)
    rw [after]
    constructor
    · intro i bit
      rcases (ConsensusCore.arrivalProposals (m := coreView ⟨s,x,next p s x⟩) i).mp bit with
        before | ⟨r,held,sender⟩
      · rw [keeps]
        exact (old.current i before).imp_right storedMore
      · have round := (ConsensusCore.acceptedFacts held).1
        have stored := acceptedStored ran alive held
        rw [round,sender] at stored
        rw [keeps,piped.current,settled]
        exact Or.inr stored
    · rw [keeps]
      intro valid i bit
      exact (old.previous valid i bit).imp_right storedMore
  | installed pulse fires after =>
    rw [after]
    constructor
    · intro i bit
      exact Or.inl (selfOnly bit)
    · intro valid
      cases valid
  | shifted pulse before undue passes after =>
    have facts := @ConsensusCore.passedFacts p.core s.bench.core
      (s.bench.core.arrival p.core (coreInputs p s x))
    rw [after]
    constructor
    · intro i bit
      rw [facts.proposals] at bit
      exact Or.inl (selfOnly bit)
    · intro _ i bit
      rw [facts.row] at bit
      rw [facts.previous]
      exact ((backed before).current i bit).imp_right storedMore

theorem ranBacked (ran : Ran (system p) moves s) :
    s.bench.core.protocol.state = .run → Backed p moves s.bench.core.protocol := by
  induction ran with
  | start h =>
    rw [h.1]
    intro running
    cases running
  | move before h ih => exact backedStep before h ih

/- The ring against the core. A payload goes in under a peer's id only if that peer is sound
and spoke for the run and the round the core is in; and when the core commits, the payloads of
all the peers in the commit set have gone in under the committed round. -/
structure RingBacksCommits (p : Parameters)
    (moves : List (Move (RxStation p.engine.payloadBytes) (Inputs p))) : Prop where
  sound : ∀ m ∈ moves, ∀ w, peerWrite m = some w →
    m.before.bench.core.protocol.state = .run ∧ w.roundId = m.before.bench.core.timing.roundId ∧
      m.before.bench.core.protocol.currentSoundSet.getLsbD w.nodeId.toNat = true ∧
      w.nodeId.toNat ≠ p.core.nodeId ∧
      ∃ f, RxEngine.underway p.engine m.before.engine = some f ∧ w = f.slot ∧
        f.runId = m.before.bench.core.protocol.currentRunId
  complete : ∀ pre m post, moves = pre ++ m :: post → ∀ r, committed m = some r →
    ∀ i, m.after.bench.core.protocol.commitSet.getLsbD i = true →
      i = p.core.nodeId ∨ Stored p pre r i

theorem ringBacksCommits (ran : Ran (system p) moves s) : RingBacksCommits p moves := by
  constructor
  case sound =>
    intro m member w wrote
    obtain ⟨pre,post,rfl⟩ := List.append_of_mem member
    obtain ⟨before,⟨_,after⟩,_⟩ := ranAt ran
    have engine : m.after.engine = m.before.engine.next p.engine (engineInputs p m.before m.op) := by
      rw [after]
      rfl
    cases alive : m.op.core.rst with
    | true =>
      have silent := (RxEngine.resetClears (r := m.before.engine) (x := engineInputs p m.before m.op)
        alive).silent
      rw [← engine] at silent
      simp [peerWrite,RxEngine.peerWrite,RxEngine.written,RxEngine.ringWrite,engineView,silent] at wrote
    | false =>
      have named : p.engine.nodeId < p.engine.nodeCount := by
        rw [p.sameNode,p.sameCount]
        exact p.core.named
      have writes := RxEngine.peerWrites (m := engineView m) named (ranPeer before) ⟨alive,engine⟩
      obtain ⟨⟨f,verdict⟩,judged,rfl⟩ := Option.map_eq_some_iff.mp (writes.symm.trans wrote)
      obtain ⟨judged,rfl⟩ := Option.filter_eq_some_iff.mp judged
      have under : RxEngine.underway p.engine m.before.engine = some f := by
        rw [show RxEngine.underway p.engine m.before.engine = _ from
          (RxEngine.verdictFrame (m := engineView m)).symm,judged]
        rfl
      have granted : (rxAccepted p m.before m.op).isSome = true := by
        simp only [RxEngine.judged,RxEngine.verdict] at judged
        split at judged
        case isFalse => cases judged
        case isTrue => exact (Prod.mk.inj (Option.some.inj judged)).2
      obtain ⟨r,held⟩ := Option.isSome_iff_exists.mp granted
      obtain ⟨g,under',rfl,taken⟩ := acceptedShown held
      cases under.symm.trans under'
      obtain ⟨index,_,other⟩ := ConsensusCore.rxIndex taken
      simp only [Core.rxAccept,Bool.and_eq_true,decide_eq_true_eq] at taken
      obtain ⟨⟨⟨⟨⟨running,_⟩,_⟩,member⟩,run⟩,round⟩ := taken
      rw [index] at member
      exact ⟨running,round,member,other,f,under,rfl,run⟩
  case complete =>
    rintro pre m post rfl r held i bit
    obtain ⟨before,step,through⟩ := ranAt ran
    have upTo := ranCore through
    rw [List.map_append,List.map_singleton] at upTo
    obtain ⟨set,round⟩ := ConsensusCore.committedRow upTo held
    have timed := ConsensusCore.ranTimed (ranCore before)
    obtain ⟨free,after⟩ := step
    obtain ⟨valid,_⟩ := (ConsensusCore.committedIs (coreView m) r).mp held
    have after' : m.after.bench.core.protocol =
        m.before.bench.core.protocolNext p.core (coreInputs p m.before m.op) := by rw [after]; rfl
    have how := ConsensusCore.committing timed (freeShown (x := m.op) free)
      (by rw [← after']; exact valid)
    have ready := (ConsensusCore.committingFacts how).1
    have backed := (ranBacked before how.running).previous ready i
    rw [← round]
    exact backed (by rwa [← show m.after.bench.core.protocol.commitSet =
      m.before.bench.core.protocol.txRow from set])

section Session

def cycle (p : Parameters) (s : RxStation p.engine.payloadBytes) (x : Inputs p) :
    Except Unit (RxStation p.engine.payloadBytes) :=
  if FaultFree p.core s.bench.now x.core then .ok (next p s x) else .error ()

def play (p : Parameters) (inputs : List (Inputs p)) :
    Except Unit (List (Move (RxStation p.engine.payloadBytes) (Inputs p)) ×
      RxStation p.engine.payloadBytes) :=
  record (cycle p) inputs ⟨⟨ConsensusCore.powerUp p.core,none⟩,{}⟩

theorem playRan {inputs : List (Inputs p)} (done : play p inputs = .ok (moves,s)) :
    Ran (system p) moves s := by
  have begins : (system p).start ⟨⟨ConsensusCore.powerUp p.core,none⟩,{}⟩ :=
    ⟨rfl,RxEngine.powerUpCleared _⟩
  refine recordRan ?_ (.start begins) done
  intro x _ s s' took
  simp only [cycle] at took
  split at took
  case isTrue free =>
    cases took
    exact ⟨free,rfl⟩
  case isFalse => cases took

def trioStation : Parameters where
  core := ConsensusCore.trio
  engine := RxEngine.narrowNode
  sameNode := rfl
  sameCount := rfl

-- Node 1 is heard in the rounds 2 and 3, each time with one payload byte.
def trioFrames : Nat → Option (RxEngine.MacBeat 520)
  | 9 => some ⟨(headerBits 0 0 ⟨1,2,0,2,0⟩).setWidth 520 ||| (0xA1#520 <<< 512),true,false⟩
  | 13 => some ⟨(headerBits 0 0 ⟨1,3,0,3,0⟩).setWidth 520 ||| (0xB1#520 <<< 512),true,false⟩
  | _ => none

def stationAt (ns : Nat) (regWr : Option ConsensusCore.RegWrite)
    (beat : Option (RxEngine.MacBeat 520)) : Inputs trioStation :=
  {core := ConsensusCore.trioAt ns regWr none, beat := beat}

def trioStationInputs : List (Inputs trioStation) :=
  stationAt 0 (some ⟨0x003104,7⟩) none :: stationAt 0 none none :: stationAt 0 (some ⟨0x00300C,3⟩) none ::
    (List.range 20).map (fun k => stationAt (1000 * k) none (trioFrames k))

theorem ringBacksCommitsOnce : ∃ moves s, play trioStation trioStationInputs = .ok (moves,s) ∧
    (moves.any (fun m => committed m = some 2 && m.after.bench.core.protocol.commitSet = 3)) = true ∧
      RingBacksCommits trioStation moves := by
  have value : (play trioStation trioStationInputs).toOption.map (fun result =>
      result.1.any (fun m => committed m = some 2 && m.after.bench.core.protocol.commitSet = 3)) =
        some true := by
    decide +kernel
  obtain ⟨⟨moves,s⟩,done,found⟩ := okFound value
  exact ⟨moves,s,done,found,ringBacksCommits (playRan done)⟩

end Session

end RxStation
end Syncons
