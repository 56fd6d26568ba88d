import Syncons.CoreHalts
import Syncons.RxEvidence

/-! What a core keeps for its operator, on arbitrary inputs. The sound set of a
configuration only shrinks and always names the core itself; a halt is for the rows or for
the time, never for one of the defensive checks; and the halt record, read word by word over
the register bus, is one snapshot of the evidence that decided. -/
namespace Syncons.ConsensusCore
open Runs (System Move Ran)

variable {p : Parameters} {s s' : Core} {x : Inputs} {q : Protocol}
  {moves : List (Move Core Inputs)}

section SoundSets

/- A running core: its own row is the one it filed with the proposals of the stage, and the
sound set lies between itself and the members installed. -/
structure Rooted (p : Parameters) (q : Protocol) : Prop where
  filed : q.previousStageValid = true → q.previousStageRows p.nodeId = q.previousStageProposals
  self : q.currentSoundSet.getLsbD p.nodeId = true
  within : ∀ i, q.currentSoundSet.getLsbD i = true → q.installedMembership.getLsbD i = true
  members : ∀ i, q.installedMembership.getLsbD i = true → i < p.nodeCount

theorem ownWitness (spoken : q.evalLocalRow p ≠ 0) : (q.evalSoundSet p).getLsbD p.nodeId = true := by
  obtain ⟨self,row⟩ := localRowOwn spoken
  rw [soundSetBit,Protocol.witnesses,Finset.mem_filter,Finset.mem_range,Protocol.witness]
  simp [p.named,self,row]

theorem witnessSound {i : Nat} (held : (q.evalSoundSet p).getLsbD i = true) :
    q.currentSoundSet.getLsbD i = true := by
  have witness := soundSetBit.mp held
  simp only [Protocol.witnesses,Finset.mem_filter,Protocol.witness,Bool.and_eq_true] at witness
  exact witness.2.1

theorem evalShrinks : q.evalSoundSetShrinks p = true := by
  simp only [Protocol.evalSoundSetShrinks,decide_eq_true_eq]
  apply BitVec.eq_of_getLsbD_eq
  intro i _
  rw [BitVec.getLsbD_and]
  cases held : (q.evalSoundSet p).getLsbD i with
  | false => rfl
  | true => simp [witnessSound held]

theorem passedInstalled : (s.passed p q).installedMembership = q.installedMembership := by
  cases commits : s.protocol.evalCommits p <;>
    simp [Core.passed,Core.shift,Core.advertise,Core.commit,Core.openCurrentStage,commits]

theorem rootedStep (rooted : s.protocol.state = .run → Rooted p s.protocol)
    (running : (s.protocolNext p x).state = .run) : Rooted p (s.protocolNext p x) := by
  cases through (runningTick running) running with
  | listened quiet before next =>
    have old := rooted before
    have own := @arrivalOwnRow p s x
    rw [next]
    constructor
    · rw [own,arrivalKeeps]
      exact old.filed
    · rw [arrivalKeeps]
      exact old.self
    · rw [arrivalKeeps]
      exact old.within
    · rw [arrivalKeeps]
      exact old.members
  | installed pulse fires next =>
    have includes : s.csr.configMembership.getLsbD p.nodeId = true := by
      simp only [Core.activationFires,Core.activationIncludesSelf,Bool.and_eq_true] at fires
      exact fires.2
    rw [next]
    constructor
    · intro valid
      cases valid
    · simp [Core.install,includes,maskGet,p.named,selfSmall p]
    · exact fun _ held => held
    · intro i held
      simp only [Core.install,BitVec.getLsbD_and,maskGet,Bool.and_eq_true,decide_eq_true_eq] at held
      exact held.2
  | shifted pulse before undue passes next =>
    have old := rooted before
    have facts := @passedFacts p s (s.arrival p x)
    have kept : (s.arrival p x).currentSoundSet = s.protocol.currentSoundSet := by rw [arrivalKeeps]
    rw [next]
    constructor
    · intro _
      rw [facts.rows,facts.held]
      exact Function.update_self ..
    · rw [facts.sound,kept]
      split
      case isTrue commits => exact ownWitness (commitsAgreed commits).2.nonempty
      case isFalse => exact old.self
    · rw [facts.sound,passedInstalled,kept,arrivalKeeps]
      intro i held
      split at held
      case isTrue => exact old.within i (witnessSound held)
      case isFalse => exact old.within i held
    · rw [passedInstalled,arrivalKeeps]
      exact old.members

theorem ranRooted (ran : Ran (clocked p) moves s) : s.protocol.state = .run → Rooted p s.protocol := by
  induction ran with
  | start h =>
    cases h
    intro running
    cases running
  | move before h ih =>
    cases h
    exact rootedStep ih

-- The core runs through the cycle and takes no new configuration in it.
def runsOn (p : Parameters) (m : Move Core Inputs) : Prop :=
  m.before.protocol.state = .run ∧ m.after.protocol.state = .run ∧
    (m.before.timing.roundStartPulse && m.before.activationFires p) = false

structure Narrows (s s' : Core) : Prop where
  sound : ∀ i, s'.protocol.currentSoundSet.getLsbD i = true →
    s.protocol.currentSoundSet.getLsbD i = true
  installed : s'.protocol.installedMembership = s.protocol.installedMembership
  run : s'.protocol.currentRunId = s.protocol.currentRunId

theorem Narrows.trans {s'' : Core} (first : Narrows s s') (second : Narrows s' s'') : Narrows s s'' :=
  ⟨fun i held => first.sound i (second.sound i held),second.installed.trans first.installed,
    second.run.trans first.run⟩

theorem narrowsNext {m : Move Core Inputs} (step : (clocked p).step m.before m.op m.after)
    (stays : runsOn p m) : Narrows m.before m.after := by
  obtain ⟨before,running,uninstalled⟩ := stays
  rw [step] at running ⊢
  simp only [Core.next] at running ⊢
  cases through (runningTick running) running with
  | listened quiet _ next =>
    rw [arrivalKeeps] at next
    constructor
    · rw [next]
      exact fun _ held => held
    · rw [next]
    · rw [next]
  | installed pulse fires next => simp [pulse,fires] at uninstalled
  | shifted pulse _ undue passes next =>
    have facts := @passedFacts p m.before (m.before.arrival p m.op)
    have keeps := @arrivalKeeps p m.before m.op
    constructor
    · intro i held
      rw [next,facts.sound,keeps] at held
      split at held
      case isTrue => exact witnessSound held
      case isFalse => exact held
    · rw [next,passedInstalled,keeps]
    · rw [next,facts.runId,keeps]

theorem narrowsThrough {pre held : List (Move Core Inputs)} {a : Move Core Inputs}
    (ran : Ran (clocked p) (pre ++ a :: held) s) (stays : ∀ m ∈ a :: held, runsOn p m) :
    Narrows a.before s := by
  obtain ⟨_,step,_⟩ := Runs.ranAt ran
  have first := narrowsNext step (stays a (by simp))
  have refl (s : Core) : Narrows s s := ⟨fun _ bit => bit,rfl,rfl⟩
  refine first.trans (Runs.ranOnwards refl (fun _ _ _ => Narrows.trans) ran ?_)
  intro front m rest split _ step
  exact narrowsNext step (stays m (by simp [split]))

def peersIn (p : Parameters) (set : BitVec 8) : Finset Nat :=
  (Finset.range p.nodeCount).filter (fun i => set.getLsbD i = true)

/- In every stretch in which a core runs under one configuration its sound set only shrinks,
from within the installed members, never losing the core itself; every commit leaves a
majority of the deployment in it. -/
structure SoundSetsNarrow (p : Parameters) (moves : List (Move Core Inputs)) : Prop where
  rooted : ∀ m ∈ moves, m.after.protocol.state = .run → Rooted p m.after.protocol
  narrows : ∀ pre held post, moves = pre ++ held ++ post → (∀ m ∈ held, runsOn p m) →
    ∀ a ∈ held.head?, ∀ b ∈ held.getLast?, Narrows a.before b.after
  majority : ∀ m ∈ moves, m.after.protocol.commitValid = true → m.after.protocol.state = .run →
    p.quorum ≤ (peersIn p m.after.protocol.currentSoundSet).card

theorem soundSetsNarrow (ran : Ran (clocked p) moves s) : SoundSetsNarrow p moves := by
  constructor
  case rooted =>
    intro m member
    obtain ⟨pre,post,rfl⟩ := List.append_of_mem member
    exact ranRooted (Runs.ranAt ran).2.2
  case narrows =>
    intro pre held post split stays a first b last
    obtain ⟨rest,rfl⟩ := List.head?_eq_some_iff.mp first
    obtain ⟨body,shape⟩ := List.getLast?_eq_some_iff.mp last
    have upTo : Ran (clocked p) (pre ++ a :: rest) b.after := by
      rw [split,shape,← List.append_assoc,List.append_assoc,List.singleton_append] at ran
      rw [shape,← List.append_assoc]
      exact (Runs.ranAt ran).2.2
    exact narrowsThrough upTo stays
  case majority =>
    intro m member valid running
    have step : m.after = m.before.next p m.op := Runs.ranStep ran member
    rw [step] at valid running ⊢
    simp only [Core.next] at valid running ⊢
    cases through (runningTick running) running with
    | listened quiet _ next =>
      rw [next,arrivalSilent] at valid
      cases valid
    | installed pulse fires next =>
      have silent : (m.before.install p (m.before.arrival p m.op)).commitValid =
          (m.before.arrival p m.op).commitValid := rfl
      rw [next,silent,arrivalSilent] at valid
      cases valid
    | shifted pulse _ undue passes next =>
      have facts := @passedFacts p m.before (m.before.arrival p m.op)
      have commits : m.before.protocol.evalCommits p = true := by
        rwa [next,facts.commitValid,arrivalSilent,Bool.or_false] at valid
      have quorum := (commitsAgreed commits).2.quorum
      rw [next,facts.sound,if_pos commits]
      refine le_trans quorum (Finset.card_le_card ?_)
      intro i held
      have inside := (Finset.mem_filter.mp held).1
      exact Finset.mem_filter.mpr ⟨inside,soundSetBit.mpr held⟩

-- Software activates once more in round 4, when the core has committed without node 2.
def trioTwice : List Inputs :=
  (trioInputs ++ (List.range 6).map (fun k => trioAt (18000 + 1000 * k) none none)).modify 21
    (fun x => {x with regWr := some ⟨0x00300C,3⟩})

theorem soundSetsNarrowOnce : ∃ moves s, clock trio trioTwice = .ok (moves,s) ∧
    (moves.drop 19).map (fun m => m.after.protocol.currentSoundSet) = [7,3,3,3,3,7,7,7] ∧
      (moves.drop 19).all (fun m => m.after.protocol.state = .run) = true ∧
      (moves.any (fun m => m.after.protocol.commitValid)) = true ∧ SoundSetsNarrow trio moves := by
  obtain ⟨moves,s,done,ran,good⟩ := @clockFound trio trioTwice
    (fun moves => decide ((moves.drop 19).map (fun m => m.after.protocol.currentSoundSet) =
        [7,3,3,3,3,7,7,7]) &&
      (moves.drop 19).all (fun m => m.after.protocol.state = .run) &&
      moves.any (fun m => m.after.protocol.commitValid)) (by decide +kernel)
  simp only [Bool.and_eq_true,decide_eq_true_eq] at good
  obtain ⟨⟨sets,running⟩,commits⟩ := good
  exact ⟨moves,s,done,sets,running,commits,soundSetsNarrow ran⟩

end SoundSets

section Records

/- A record that explains a halt for the rows by itself: which row the core had, which sound
members reported the same, and why this was not enough. -/
structure RowsExplain (p : Parameters) (r : HaltRecord) : Prop where
  selfRow : r.selfRow = if r.previousSoundSet.getLsbD p.nodeId then r.rows p.nodeId else 0
  soundSet : ∀ i, r.soundSet.getLsbD i = true ↔
    i < p.nodeCount ∧ r.previousSoundSet.getLsbD i = true ∧ r.rows i = r.selfRow
  failed : r.selfRow = 0 ∨ (peersIn p r.soundSet).card < p.quorum ∨
    ∃ i < p.nodeCount, r.previousSoundSet.getLsbD i = true ∧ r.rows i ≠ 0 ∧ (r.rows i).getLsbD i = false

inductive RecordSound (p : Parameters) (r : HaltRecord) : Prop where
  | blank (none : r.reason = .none)
  | time (fault : r.reason = .timeFault)
  | rows (unagreed : r.reason = .noAgreedRow) (explains : RowsExplain p r)

def boundaryRecord (p : Parameters) (q : Protocol) : HaltRecord where
  reason := q.evalHaltReason p
  roundId := q.previousStageRoundId
  selfRow := q.evalLocalRow p
  membership := q.installedMembership
  soundSet := q.evalSoundSet p
  previousSoundSet := q.currentSoundSet
  rows := q.previousStageRows

theorem haltsForRows (rooted : Rooted p q) (halts : q.evalHalts p = true) :
    q.evalHaltReason p = .noAgreedRow ∧ q.evalAgreedRowValid p = false := by
  simp only [Protocol.evalHalts,Bool.and_eq_true,decide_eq_true_eq] at halts
  obtain ⟨valid,reason⟩ := halts
  cases agreed : q.evalAgreedRowValid p with
  | false => simp [Protocol.evalHaltReason,agreed]
  | true =>
    have spoken := (agreedIff.mp agreed).nonempty
    obtain ⟨_,row⟩ := localRowOwn spoken
    have self := ownWitness spoken
    have some' : q.evalSoundSet p ≠ 0#8 := by
      intro zero
      simp [zero] at self
    have whole : q.evalCommitSetValid p = true := by
      simp [Protocol.evalCommitSetValid,agreed,row,rooted.filed valid]
    simp [Protocol.evalHaltReason,agreed,whole,self,some',evalShrinks] at reason

theorem boundaryExplains (unagreed : q.evalAgreedRowValid p = false) :
    RowsExplain p (boundaryRecord p q) := by
  have bits (i : Nat) : (q.evalSoundSet p).getLsbD i = true ↔
      i < p.nodeCount ∧ q.currentSoundSet.getLsbD i = true ∧ q.previousStageRows i = q.evalLocalRow p := by
    rw [soundSetBit,Protocol.witnesses,Finset.mem_filter,Finset.mem_range,Protocol.witness]
    simp
  refine ⟨rfl,bits,?_⟩
  by_contra fine
  simp only [boundaryRecord,not_or,not_exists,not_and,Bool.not_eq_false,Nat.not_lt] at fine
  obtain ⟨spoken,quorum,named⟩ := fine
  have agreed : Agreed p q := by
    refine ⟨?_,spoken,?_⟩
    · intro i inside
      cases bad : q.contradicts i with
      | false => rfl
      | true =>
        simp only [Protocol.contradicts,Bool.and_eq_true,decide_eq_true_eq,Bool.not_eq_true'] at bad
        obtain ⟨⟨sound,heard⟩,without⟩ := bad
        cases (named i inside sound heard).symm.trans without
    · refine le_trans quorum (Finset.card_le_card ?_)
      intro i held
      exact soundSetBit.mp (Finset.mem_filter.mp held).2
  exact Bool.noConfusion (unagreed.symm.trans (agreedIff.mpr agreed))

theorem boundarySound (rooted : Rooted p q) (halts : q.evalHalts p = true) :
    RecordSound p (boundaryRecord p q) := by
  obtain ⟨reason,unagreed⟩ := haltsForRows rooted halts
  exact .rows reason (boundaryExplains unagreed)

theorem boundaryRecords (q : Protocol) :
    (s.roundBoundary p q).haltRecord = q.haltRecord ∧
      ((s.roundBoundary p q).state = .halt → q.state = .halt ∨ s.protocol.state = .halt) ∨
    s.protocol.state = .run ∧ s.protocol.evalHalts p = true ∧
      (s.roundBoundary p q).haltRecord = boundaryRecord p s.protocol := by
  cases pulse : s.timing.roundStartPulse with
  | false =>
    refine Or.inl ?_
    simp only [Core.roundBoundary,pulse,Bool.not_false,if_true]
    exact ⟨trivial,Or.inl⟩
  | true =>
    cases fires : s.activationFires p with
    | true => exact Or.inl (by simp [Core.roundBoundary,pulse,fires,Core.install,Core.openCurrentStage])
    | false =>
      cases due : s.activationDue with
      | true => exact Or.inl (by simp [Core.roundBoundary,pulse,fires,due])
      | false =>
        have shape : s.roundBoundary p q = s.stateBoundary p q := by
          simp [Core.roundBoundary,pulse,fires,due]
        rw [shape,Core.stateBoundary]
        cases state : s.protocol.state with
        | idle => cases pending : s.csr.activatePending <;> exact Or.inl (by simp)
        | waitActivate => exact Or.inl (by simp)
        | halt => exact Or.inl (by simp)
        | run =>
          cases halts : s.protocol.evalHalts p with
          | true =>
            refine Or.inr ⟨rfl,rfl,?_⟩
            simp [Core.runBoundary,halts,Core.haltAtBoundary,boundaryRecord]
          | false =>
            refine Or.inl ?_
            have facts := @passedFacts p s q
            have same : s.runBoundary p q = s.passed p q := by simp [Core.runBoundary,halts,Core.passed]
            have kept : (s.passed p q).haltRecord = q.haltRecord := by
              cases commits : s.protocol.evalCommits p <;>
                simp [Core.passed,Core.shift,Core.advertise,Core.commit,Core.openCurrentStage,commits]
            simp only [same]
            exact ⟨kept,fun halt => Or.inl (facts.state.symm.trans halt)⟩

structure Recorded (p : Parameters) (q : Protocol) : Prop where
  sound : RecordSound p q.haltRecord
  reason : q.state = .halt → q.haltRecord.reason ≠ .none

theorem recordedBoundary (rooted : s.protocol.state = .run → Rooted p s.protocol)
    (recorded : Recorded p s.protocol) : Recorded p (s.roundBoundary p (s.arrival p x)) := by
  obtain ⟨kept,still⟩ | ⟨running,halts,record⟩ := @boundaryRecords p s (s.arrival p x)
  · have same : (s.arrival p x).haltRecord = s.protocol.haltRecord := by rw [arrivalKeeps]
    constructor
    · rw [kept,same]
      exact recorded.sound
    · intro halt
      rw [kept,same]
      rw [arrivalState,or_self] at still
      exact recorded.reason (still halt)
  · have root := rooted running
    constructor
    · rw [record]
      exact boundarySound root halts
    · intro _
      have reason : (boundaryRecord p s.protocol).reason = .noAgreedRow := (haltsForRows root halts).1
      rw [record,reason]
      exact (by decide)

theorem recordedStep (rooted : s.protocol.state = .run → Rooted p s.protocol)
    (recorded : Recorded p s.protocol) : Recorded p (s.protocolNext p x) := by
  have bounded := @recordedBoundary p s x rooted recorded
  have shape : s.protocolNext p x =
      Core.reset x (s.reboot p x (s.stop p x (s.haltOnTiming x (s.roundBoundary p (s.arrival p x))))) := rfl
  rw [shape]
  generalize s.roundBoundary p (s.arrival p x) = q at bounded
  have timed : Recorded p (s.haltOnTiming x q) := by
    unfold Core.haltOnTiming
    split
    · exact ⟨.time rfl,fun _ same => by cases same⟩
    · exact bounded
  generalize s.haltOnTiming x q = q at timed
  cases alive : x.rst with
  | true =>
    rw [Core.reset,if_pos alive]
    exact ⟨.blank rfl,fun halt => by cases halt⟩
  | false =>
    rw [Core.reset,if_neg (by simp [alive])]
    cases pulse : s.controlRebootPulse p x with
    | true =>
      have down : s.protocolStop p x = true := by simp [Core.protocolStop,pulse]
      rw [Core.reboot,if_pos pulse,Core.stop,if_pos down]
      exact ⟨.blank rfl,fun halt => by cases halt⟩
    | false =>
      rw [Core.reboot,if_neg (by simp [pulse])]
      unfold Core.stop
      split
      · exact ⟨timed.sound,fun halt => by cases halt⟩
      · exact timed

theorem ranRecorded (ran : Ran (clocked p) moves s) : Recorded p s.protocol := by
  induction ran with
  | start h =>
    cases h
    exact ⟨.blank rfl,fun halt => by cases halt⟩
  | move before h ih =>
    cases h
    exact recordedStep (ranRooted before) ih

end Records

section Reads

inductive ReadRegister where
  | magic | version | features | control | status | roundLengthNs | replicaId | replicaCount
  | configRunId | configMembership | configEffectiveRoundLow | configEffectiveRoundHigh
  | currentRoundIdLow | currentRoundIdHigh | currentRunId | currentSoundSet | installedMembership
  | haltReason | haltRoundLow | haltRoundHigh | haltSelfRow | haltMembership | haltSoundSet
  | haltRowsLow | haltRowsHigh
  | roundCountLow | roundCountHigh | timeFaultCount | commitCountLow | commitCountHigh | haltCount
  deriving DecidableEq, Repr

def readMap : List (BitVec 24 × ReadRegister) :=
  [(0x000,.magic),(0x004,.version),(0x008,.features),(0x00C,.control),(0x010,.status),
    (0x014,.roundLengthNs),(0x018,.replicaId),(0x01C,.replicaCount),
    (0x100,.configRunId),(0x104,.configMembership),(0x108,.configEffectiveRoundLow),
    (0x10C,.configEffectiveRoundHigh),(0x110,.currentRoundIdLow),(0x114,.currentRoundIdHigh),
    (0x118,.currentRunId),(0x11C,.currentSoundSet),(0x120,.installedMembership),
    (0x200,.haltReason),(0x204,.haltRoundLow),(0x208,.haltRoundHigh),(0x20C,.haltSelfRow),
    (0x210,.haltMembership),(0x214,.haltSoundSet),(0x218,.haltRowsLow),(0x21C,.haltRowsHigh),
    (0x300,.roundCountLow),(0x304,.roundCountHigh),(0x308,.timeFaultCount),(0x30C,.commitCountLow),
    (0x310,.commitCountHigh),(0x314,.haltCount)]

def readDecode (p : Parameters) (addr : BitVec 24) : Option ReadRegister :=
  readMap.lookup ((addr &&& 0xFFFFFC#24) - p.rbBaseAddr)

def HaltReason.code : HaltReason → BitVec 4
  | .none => 0
  | .noAgreedRow => 1
  | .commitSetInvalid => 2
  | .noSoundSet => 3
  | .selfExcluded => 4
  | .soundSetGrew => 5
  | .timeFault => 6

-- One byte per member, member 0 lowest.
def HaltRecord.rowBytes (r : HaltRecord) : BitVec 64 :=
  r.rows 7 ++ r.rows 6 ++ r.rows 5 ++ r.rows 4 ++ r.rows 3 ++ r.rows 2 ++ r.rows 1 ++ r.rows 0

def low (v : BitVec 64) : BitVec 32 := v.extractLsb' 0 32
def high (v : BitVec 64) : BitVec 32 := v.extractLsb' 32 32

-- The words of the halt record, and nothing of the other registers.
def HaltRecord.word (r : HaltRecord) : ReadRegister → Option (BitVec 32)
  | .haltReason => some (r.reason.code.setWidth 32)
  | .haltRoundLow => some (low r.roundId)
  | .haltRoundHigh => some (high r.roundId)
  | .haltSelfRow => some (r.selfRow.setWidth 32)
  | .haltMembership => some (r.membership.setWidth 32)
  | .haltSoundSet => some ((r.previousSoundSet ++ r.soundSet).setWidth 32)
  | .haltRowsLow => some (low r.rowBytes)
  | .haltRowsHigh => some (high r.rowBytes)
  | _ => none

def statusWord (s : Core) (x : Inputs) : BitVec 32 :=
  (BitVec.ofBool s.protocol.configExcludesSelf ++ BitVec.ofBool s.csr.activatePending ++
    BitVec.ofBool x.ptpTimeValid ++ BitVec.ofBool s.timing.timingArmed ++ BitVec.ofBool s.oHalt).setWidth 32

def Core.readValue (p : Parameters) (s : Core) (x : Inputs) : ReadRegister → BitVec 32
  | .magic => 0x636F6E73
  | .version => 0x00000100
  | .features => 0x00000001
  | .control => (BitVec.ofBool s.csr.controlEnable).setWidth 32
  | .status => statusWord s x
  | .roundLengthNs => BitVec.ofNat 32 p.roundLengthNs
  | .replicaId => BitVec.ofNat 32 p.nodeId
  | .replicaCount => BitVec.ofNat 32 p.nodeCount
  | .configRunId => s.csr.configRunId
  | .configMembership => s.csr.configMembership
  | .configEffectiveRoundLow => low s.csr.configEffectiveRound
  | .configEffectiveRoundHigh => high s.csr.configEffectiveRound
  | .currentRoundIdLow => low s.timing.roundId
  | .currentRoundIdHigh => high s.timing.roundId
  | .currentRunId => s.protocol.currentRunId
  | .currentSoundSet => s.protocol.currentSoundSet.setWidth 32
  | .installedMembership => s.protocol.installedMembership.setWidth 32
  | .roundCountLow => low s.timing.roundCount
  | .roundCountHigh => high s.timing.roundCount
  | .timeFaultCount => s.timing.timeFaultCount
  | .commitCountLow => low s.protocol.commitCount
  | .commitCountHigh => high s.protocol.commitCount
  | .haltCount => s.protocol.haltCount
  | r => (s.protocol.haltRecord.word r).getD 0

structure ReadPort where
  ack : Bool := false
  data : BitVec 32 := 0
  deriving DecidableEq, Repr

structure ReadCore where
  core : Core
  port : ReadPort := {}

structure ReadInputs where
  core : Inputs
  regRd : Option (BitVec 24) := none

-- The register that answers a read; there is no answer right behind another one.
def ReadCore.asked (p : Parameters) (s : ReadCore) (x : ReadInputs) : Option ReadRegister :=
  if s.port.ack then none else x.regRd.bind (readDecode p)

def ReadCore.portNext (p : Parameters) (s : ReadCore) (x : ReadInputs) : ReadPort :=
  if x.core.rst then {}
  else
    match s.asked p x with
    | none => {}
    | some r => ⟨true,s.core.readValue p x.core r⟩

def readable (p : Parameters) : System ReadCore ReadInputs where
  start s := s = {core := powerUp p}
  step s x s' := s' = ⟨s.core.next p x.core,s.portNext p x⟩

def bare (m : Move ReadCore ReadInputs) : Move Core Inputs := ⟨m.before.core,m.op.core,m.after.core⟩

theorem ranBare {moves : List (Move ReadCore ReadInputs)} {s : ReadCore}
    (ran : Ran (readable p) moves s) : Ran (clocked p) (moves.map bare) s.core := by
  induction ran with
  | start h =>
    cases h
    exact .start rfl
  | move before h ih =>
    cases h
    rw [List.map_append]
    exact .move ih rfl

theorem haltRead {r : ReadRegister} {w : BitVec 32} (word : s.protocol.haltRecord.word r = some w) :
    s.readValue p x r = w := by
  cases r with
  | haltReason => exact Option.some.inj word
  | haltRoundLow => exact Option.some.inj word
  | haltRoundHigh => exact Option.some.inj word
  | haltSelfRow => exact Option.some.inj word
  | haltMembership => exact Option.some.inj word
  | haltSoundSet => exact Option.some.inj word
  | haltRowsLow => exact Option.some.inj word
  | haltRowsHigh => exact Option.some.inj word
  | _ => cases word

/- While a core stays halted, every answer about the halt record is a word of one and the same
record, the record names a time fault or explains the halt by its rows, and there is a reason. -/
theorem haltSnapshot {pre held post : List (Move ReadCore ReadInputs)} {a : Move ReadCore ReadInputs}
    {s : ReadCore} (ran : Ran (readable p) (pre ++ a :: held ++ post) s)
    (halt : a.before.core.oHalt = true) (still : ∀ m ∈ a :: held, lifts p (bare m) = false)
    (enabled : ∀ m ∈ a :: held, m.before.core.enabled m.op.core = true) :
    ∃ record, RecordSound p record ∧ record.reason ≠ .none ∧
      ∀ m ∈ a :: held, ∀ r w, m.before.asked p m.op = some r → record.word r = some w →
        m.after.port = ⟨true,w⟩ := by
  have whole : pre ++ a :: held ++ post = pre ++ a :: (held ++ post) := by simp
  obtain ⟨upTo,_,_⟩ := Runs.ranAt (whole ▸ ran)
  have recorded := ranRecorded (ranBare upTo)
  have state : a.before.core.protocol.state = .halt := by simpa [Core.oHalt] using halt
  refine ⟨a.before.core.protocol.haltRecord,recorded.sound,recorded.reason state,?_⟩
  intro m member r w asked word
  obtain ⟨front,rest,split⟩ := List.append_of_mem member
  have place : pre ++ a :: held ++ post = (pre ++ front) ++ m :: (rest ++ post) := by
    rw [List.append_assoc pre,split]
    simp
  rw [place] at ran
  obtain ⟨before,step,_⟩ := Runs.ranAt ran
  have kept : m.before.core.protocol.haltRecord = a.before.core.protocol.haltRecord := by
    cases front with
    | nil =>
      cases split
      rfl
    | cons b front =>
      obtain ⟨rfl,_⟩ := List.cons.inj split
      have inside : ∀ c ∈ a :: front, c ∈ a :: held := by
        intro c old
        rw [split]
        exact List.mem_append_left _ old
      have bared := ranBare before
      rw [List.map_append,List.map_cons] at bared
      refine (heldThrough bared halt ?_ ?_).1.record
      · intro c old
        obtain ⟨c',old',rfl⟩ := List.mem_map.mp (List.map_cons ▸ old)
        exact still c' (inside c' old')
      · intro c old _
        obtain ⟨c',old',rfl⟩ := List.mem_map.mp (List.map_cons ▸ old)
        exact enabled c' (inside c' old')
  have alive : m.op.core.rst = false := (liftsNot (still m member)).2
  rw [← kept] at word
  have value := haltRead (p := p) (x := m.op.core) word
  rw [step]
  simp only [ReadCore.portNext,alive,Bool.false_eq_true,if_false,asked,value]

def readSession (p : Parameters) (inputs : List ReadInputs) :
    Except Empty (List (Move ReadCore ReadInputs) × ReadCore) :=
  Runs.record (fun s x => .ok ⟨s.core.next p x.core,s.portNext p x⟩) inputs {core := powerUp p}

-- A core that hears nobody halts on its first round; its record is read from cycle 21 on.
def deafInputs : List ReadInputs :=
  [⟨trioAt 0 (some ⟨0x003104,7⟩) none,none⟩,⟨trioAt 0 none none,none⟩,
    ⟨trioAt 0 (some ⟨0x00300C,3⟩) none,none⟩] ++
    (List.range 18).map (fun k => ⟨trioAt (1000 * k) none none,none⟩) ++
    [⟨trioAt 18000 none none,some 0x003200⟩,⟨trioAt 19000 none none,none⟩,
      ⟨trioAt 20000 none none,some 0x00320C⟩]

theorem haltSnapshotOnce : ∃ moves s pre a held, readSession trio deafInputs = .ok (moves,s) ∧
    Runs.cut 21 moves = some (pre,a,held) ∧
    (a :: held).map (fun m => m.after.port) = [⟨true,1⟩,{},⟨true,1⟩] ∧
    ∃ record, RecordSound trio record ∧ record.reason ≠ .none ∧
      ∀ m ∈ a :: held, ∀ r w, m.before.asked trio m.op = some r → record.word r = some w →
        m.after.port = ⟨true,w⟩ := by
  have value : (readSession trio deafInputs).toOption.map (fun result =>
      (Runs.cut 21 result.1).any (fun (_,a,held) => a.before.core.oHalt &&
        decide ((a :: held).map (fun m => m.after.port) = [⟨true,1⟩,{},⟨true,1⟩]) &&
        (a :: held).all (fun m => !lifts trio (bare m) && m.before.core.enabled m.op.core))) =
          some true := by
    decide +kernel
  obtain ⟨⟨moves,s⟩,done,found⟩ := Runs.okFound value
  obtain ⟨⟨pre,a,held⟩,place,found⟩ := (Option.any_eq_true _ _).mp found
  simp only [Bool.and_eq_true,List.all_eq_true,Bool.not_eq_true',decide_eq_true_eq] at found
  obtain ⟨⟨halt,ports⟩,still⟩ := found
  have place : Runs.cut 21 moves = some (pre,a,held) := place
  have ran : Ran (readable trio) moves s := Runs.recordTotal (fun _ _ => rfl) rfl done
  rw [Runs.cutIs place,← List.append_nil (pre ++ a :: held)] at ran
  exact ⟨moves,s,pre,a,held,done,place,ports,haltSnapshot ran halt
    (fun m member => (still m member).1) (fun m member => (still m member).2)⟩

end Reads

end Syncons.ConsensusCore
