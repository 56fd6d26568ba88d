import Syncons.RxEvidence
import Syncons.CoreJudgement

/-! The core refines the node of the simulator. A pair runs a core and a node side by side,
from an install here and a reset there on; reception, the boundary with its judgement and
the silence after a halt keep one relation between the two. -/
namespace Syncons.ConsensusCore
open Runs (System Move Ran)
open Dict (Map)

structure Pair where
  bench : Bench
  node : Node
  round : Int
  result : NodeRoundResult

-- The packet of a frame heard in round `r`: the core keeps 64 bits of a round.
def packetOf (r : Int) (f : RxRow) (payload : String) : Packet :=
  ⟨r / 2 ^ 64 * 2 ^ 64 + f.roundId.toNat,f.nodeId.toNat,f.runId.toNat,f.row.toNat,payload⟩

def heard (n : Node) (r : Int) (x : Inputs) (payload : String) : Node :=
  match x.rx with
  | none => n
  | some f => n.receive (packetOf r f payload)

def Pair.next (p : Parameters) (np : NodeParams) (s : Pair) (x : Inputs) (payload : String) : Pair :=
  let bench : Bench := ⟨s.bench.core.next p x,some x.instant⟩
  if s.bench.core.timing.roundStartPulse then
    let (node,result) := s.node.advanceRound np (s.round + 1)
    ⟨bench,node,s.round + 1,result⟩
  else {s with bench := bench, node := heard s.node s.round x payload}

-- No reboot, no stop, no further configuration; frames of others, strictly inside a round.
structure Undisturbed (p : Parameters) (s : Core) (x : Inputs) : Prop where
  up : s.protocolStop p x = false
  alive : x.rst = false
  settled : s.timing.roundStartPulse = true → s.activationDue = false ∧ x.rx = none
  foreign : ∀ f ∈ x.rx, f.nodeId.toNat ≠ p.nodeId ∧ f.row.toNat < 2 ^ p.nodeCount

structure ResetAt (np : NodeParams) (n : Node) (r : Int) (membership : Nat) (runId : Int) : Prop where
  unmasked : ¬ n.masked r
  running : (n.configured np r).status = .running
  active : (n.configured np r).membershipState = .active
  current : (n.configured np r).currentStage.roundId < 0
  previous : (n.configured np r).previousStage.roundId < 0
  sound : (n.configured np r).currentSoundSet = membership
  installed : (n.configured np r).installedMembership = membership
  runId : (n.configured np r).runId = runId
  mailbox : (n.configured np r).pendingControlPlaneUpdate = none
  settled : ∀ r', (n.configured np r).pendingDue r' = none

def installedMembers (p : Parameters) (s : Core) : BitVec 8 :=
  s.csr.configMembership.setWidth 8 &&& p.memberMask

-- The core has just processed an install, and the node the boundary of its reset.
def Paired (p : Parameters) (np : NodeParams) (s : Pair) : Prop :=
  ∃ before m n, Ran (system p) (before ++ [m]) s.bench ∧ installs p m = true ∧
    (∀ t ∈ m.before.now, s.round = p.roundAt t) ∧
    ResetAt np n s.round (installedMembers p m.before.core).toNat
      m.before.core.csr.configRunId.toNat ∧
    n.advanceRound np s.round = (s.node,s.result)

def paired (p : Parameters) (np : NodeParams) : System Pair (Inputs × String) where
  start := Paired p np
  step s op s' :=
    FaultFree p s.bench.now op.1 ∧ Undisturbed p s.bench.core op.1 ∧ s' = s.next p np op.1 op.2

/- What a boundary shows of both: the committed rounds with their sets, the sound set, the
row sent and, once halted, the reason. -/
structure Matches (s : Pair) : Prop where
  commits : s.result.newCommits.map (fun c => (BitVec.ofInt 64 c.round,c.commitSet)) =
    if s.bench.core.protocol.commitValid then
      [(s.bench.core.protocol.commitRoundId,s.bench.core.protocol.commitSet.toNat)]
    else []
  soundSet : s.node.currentSoundSet = s.bench.core.protocol.currentSoundSet.toNat
  sends : s.result.outbound.map
      (fun o => (BitVec.ofInt 64 o.packet.roundId,o.packet.runId,o.packet.row)) =
    if s.bench.core.protocol.state = .run then
      some (s.bench.core.protocol.txRoundId,(s.bench.core.protocol.txRunId.toNat : Int),
        s.bench.core.protocol.txRow.toNat)
    else none
  halts : s.bench.core.protocol.state = .run ∧ s.node.status = .running ∨
    ∃ reason, s.bench.core.protocol.state = .halt ∧ s.node.status = .halted ∧
      s.node.statusReason = some (.halt reason) ∧
      s.bench.core.protocol.haltRecord.reason = haltReasonOf reason

structure Alive (p : Parameters) (q : Protocol) (n : Node) (r : Int) : Prop where
  running : q.state = .run
  up : n.status = .running
  active : n.membershipState = .active
  mailbox : n.pendingControlPlaneUpdate = none
  settled : ∀ r', n.pendingDue r' = none
  round : n.currentRound = r
  positive : 0 ≤ r
  runId : n.runId = q.currentRunId.toNat
  sound : n.currentSoundSet = q.currentSoundSet.toNat
  self : q.currentSoundSet.getLsbD p.nodeId = true
  members : ∀ i, q.currentSoundSet.getLsbD i = true →
    i < p.nodeCount ∧ n.installedMembership.testBit i = true
  current : n.currentStage.roundId = r
  membership : n.currentStage.installedMembership = n.installedMembership
  row : n.currentStage.row = q.currentStageProposals.toNat
  proposals : ∀ i, (n.currentStage.proposals.lookup i).isSome =
    q.currentStageProposals.getLsbD i
  named : ∀ i, q.currentStageProposals.getLsbD i = true → i < p.nodeCount
  fresh : n.currentStage.rows = ∅
  previous : n.previousStage.roundId < 0 ∧ q.previousStageValid = false ∨
    n.previousStage.roundId = r - 1 ∧ 1 ≤ r ∧ q.previousStageValid = true ∧
      SameEvidence p q n.currentSoundSet n.previousStage

structure Halted (q : Protocol) (n : Node) (reason : Syncons.HaltReason) : Prop where
  core : q.state = .halt
  record : q.haltRecord.reason = haltReasonOf reason
  node : n.status = .halted
  reason : n.statusReason = some (.halt reason)
  sound : n.currentSoundSet = q.currentSoundSet.toNat
  mailbox : n.pendingControlPlaneUpdate = none
  settled : ∀ r', n.pendingDue r' = none

variable {p : Parameters} {np : NodeParams} {q : Protocol} {b : Bench} {s : Core} {n : Node}
  {r : Int} {x : Inputs} {f : RxRow} {payload : String} {stage : RoundStage} {sound : Nat}

section Reception

theorem rowNames (small : f.row.toNat < 2 ^ p.nodeCount) (i : Nat)
    (held : f.row.getLsbD i = true) : i < p.nodeCount := by
  by_contra outside
  have bound : f.row.toNat < 2 ^ i := lt_of_lt_of_le small (Nat.pow_le_pow_right (by decide) (by omega))
  rw [← BitVec.testBit_toNat,Nat.testBit_lt_two_pow bound] at held
  cases held

theorem sameRound (r : Int) (f : RxRow) :
    r / 2 ^ 64 * 2 ^ 64 + f.roundId.toNat = r ↔ f.roundId = BitVec.ofInt 64 r := by
  have split := Int.emod_add_mul_ediv r (2 ^ 64)
  have rest := Int.emod_nonneg r (show (2 ^ 64 : Int) ≠ 0 by decide)
  rw [← BitVec.toNat_inj,BitVec.toNat_ofInt]
  omega

theorem acceptsSame (alive : Alive p s.protocol n r) (entered : s.timing.roundId = BitVec.ofInt 64 r)
    (foreign : f.nodeId.toNat ≠ p.nodeId) :
    n.accepts (packetOf r f payload) ↔ s.rxAccept p f = true := by
  have narrow := p.narrow
  have index (small : f.nodeId.toNat < p.nodeCount) :
      (f.nodeId.extractLsb' 0 3).toNat = f.nodeId.toNat := by
    rw [BitVec.extractLsb'_toNat]
    simp only [Nat.shiftRight_zero]
    omega
  have run : ((f.runId.toNat : Int) = s.protocol.currentRunId.toNat) ↔
      f.runId = s.protocol.currentRunId := by
    rw [← BitVec.toNat_inj]
    omega
  simp only [Node.accepts,packetOf,alive.up,alive.active,alive.round,alive.sound,alive.runId,
    Core.rxAccept,alive.running,entered,Bool.and_eq_true,decide_eq_true_eq,true_and,
    BitVec.testBit_toNat,sameRound,run]
  constructor
  · rintro ⟨heard,run,round⟩
    have small := (alive.members _ heard).1
    exact ⟨⟨⟨⟨small,foreign⟩,by rw [index small]; exact heard⟩,run⟩,round⟩
  · rintro ⟨⟨⟨⟨small,_⟩,heard⟩,run⟩,round⟩
    rw [index small] at heard
    exact ⟨heard,run,round⟩

theorem evidenceReceive (same : SameEvidence p q n.currentSoundSet n.previousStage)
    (sound : q.currentSoundSet.getLsbD f.nodeId.toNat = true)
    (foreign : f.nodeId.toNat ≠ p.nodeId) (small : f.row.toNat < 2 ^ p.nodeCount) :
    SameEvidence p
      {q with previousStageRows :=
        Function.update q.previousStageRows f.nodeId.toNat (f.row &&& p.memberMask)}
      n.currentSoundSet
      {n.previousStage with
        rows := n.previousStage.rows.insert f.nodeId.toNat f.row.toNat} := by
  refine ⟨same.sound,same.self,same.members,?_,?_,?_,same.proposals⟩
  · intro i
    rw [Dict.getD,Dict.lookupInsert]
    by_cases sender : i = f.nodeId.toNat
    · subst sender
      simp [maskedSame (rowNames small)]
    · rw [if_neg sender]
      simp only [Function.update_of_ne sender]
      exact same.rows i
  · intro i silent
    have other : i ≠ f.nodeId.toNat := by
      rintro rfl
      exact Bool.noConfusion (sound.symm.trans silent)
    simp only [Function.update_of_ne other]
    exact same.unheard i silent
  · intro i
    simp only [Function.update_of_ne (Ne.symm foreign)]
    exact same.named i

theorem quietNext (timed : Timed p b) (free : FaultFree p b.now x)
    (undisturbed : Undisturbed p b.core x) (quiet : b.core.timing.roundStartPulse = false) :
    b.core.protocolNext p x = b.core.arrival p x := by
  have step := tickOf timed free
  generalize b.core.protocolNext p x = q at step
  cases step with
  | stopped down idle silent current previous =>
    rcases down with stops | resets
    · exact Bool.noConfusion (undisturbed.up.symm.trans stops)
    · exact Bool.noConfusion (undisturbed.alive.symm.trans resets)
  | listened up alive off => rfl
  | installed up alive pulse fires => exact Bool.noConfusion (quiet.symm.trans pulse)
  | excluded up alive pulse due without => exact Bool.noConfusion (quiet.symm.trans pulse)
  | waited up alive pulse idle pending => exact Bool.noConfusion (quiet.symm.trans pulse)
  | stayed up alive pulse undue still => exact Bool.noConfusion (quiet.symm.trans pulse)
  | halted up alive pulse undue running halts => exact Bool.noConfusion (quiet.symm.trans pulse)
  | shifted up alive pulse undue running passes => exact Bool.noConfusion (quiet.symm.trans pulse)

-- The pulse of a commit is not part of the relation.
theorem aliveKept (alive : Alive p q n r) : Alive p {q with commitValid := false} n r := by
  refine ⟨alive.running,alive.up,alive.active,alive.mailbox,alive.settled,alive.round,
    alive.positive,alive.runId,alive.sound,alive.self,alive.members,alive.current,alive.membership,
    alive.row,alive.proposals,alive.named,alive.fresh,?_⟩
  rcases alive.previous with early | ⟨round,late,valid,same⟩
  · exact Or.inl early
  · exact Or.inr ⟨round,late,valid,same.sound,same.self,same.members,same.rows,same.unheard,
      same.named,same.proposals⟩

theorem aliveAccepted (alive : Alive p q n r) (inside : f.nodeId.toNat < p.nodeCount)
    (sound : q.currentSoundSet.getLsbD f.nodeId.toNat = true)
    (foreign : f.nodeId.toNat ≠ p.nodeId) (small : f.row.toNat < 2 ^ p.nodeCount) :
    Alive p
      { q with
        currentStageProposals := q.currentStageProposals ||| 1#8 <<< f.nodeId.toNat
        previousStageRows := Function.update q.previousStageRows f.nodeId.toNat
          (f.row &&& p.memberMask) }
      (n.accepted (packetOf r f payload)) r := by
  have narrow := p.narrow
  have byte : f.nodeId.toNat < 8 := by omega
  refine ⟨alive.running,alive.up,alive.active,alive.mailbox,alive.settled,alive.round,
    alive.positive,alive.runId,alive.sound,alive.self,alive.members,alive.current,alive.membership,
    ?row,?proposals,?named,alive.fresh,?previous⟩
  case row =>
    apply bitmapEq
    intro i
    simp only [Node.accepted,packetOf]
    rw [Nat.testBit_or,testBitBit,alive.row,BitVec.testBit_toNat,BitVec.testBit_toNat,
      BitVec.getLsbD_or,bitGet byte]
    simp [eq_comm]
  case proposals =>
    intro i
    simp only [Node.accepted,packetOf]
    rw [Dict.lookupInsert,BitVec.getLsbD_or,bitGet byte]
    by_cases sender : i = f.nodeId.toNat
    · simp [sender]
    · simp [sender,alive.proposals i]
  case named =>
    intro i
    rw [BitVec.getLsbD_or,bitGet byte,Bool.or_eq_true,decide_eq_true_eq]
    rintro (old | rfl)
    · exact alive.named i old
    · exact inside
  case previous =>
    rcases alive.previous with early | ⟨round,late,valid,same⟩
    · exact Or.inl early
    · have received := evidenceReceive same sound foreign small
      exact Or.inr ⟨round,late,valid,received.sound,received.self,received.members,received.rows,
        received.unheard,received.named,received.proposals⟩

theorem aliveArrival (alive : Alive p s.protocol n r)
    (entered : s.timing.roundId = BitVec.ofInt 64 r)
    (foreign : ∀ f ∈ x.rx, f.nodeId.toNat ≠ p.nodeId ∧ f.row.toNat < 2 ^ p.nodeCount) :
    Alive p (s.arrival p x) (heard n r x payload) r := by
  have kept (dropped : s.rxAccepted p x = none) : s.arrival p x = {s.protocol with commitValid := false} := by
    simp [Core.arrival,Core.packetArrival,dropped]
  cases given : x.rx with
  | none =>
    rw [kept (by simp [Core.rxAccepted,given]),heard,given]
    exact aliveKept alive
  | some f =>
    obtain ⟨other,small⟩ := foreign f given
    have same := @acceptsSame p s n r f payload alive entered other
    rw [heard,given]
    obtain ⟨accepts,after⟩ | ⟨refuses,after⟩ := Node.receiveCases n (packetOf r f payload)
    · have taken := same.mp accepts
      obtain ⟨index,inside,_⟩ := rxIndex taken
      have sound : s.protocol.currentSoundSet.getLsbD f.nodeId.toNat = true := by
        simp only [Core.rxAccept,Bool.and_eq_true,index] at taken
        exact taken.1.1.2
      have next : s.arrival p x =
          { s.protocol with
            commitValid := false
            currentStageProposals := s.protocol.currentStageProposals ||| 1#8 <<< f.nodeId.toNat
            previousStageRows := Function.update s.protocol.previousStageRows f.nodeId.toNat
              (f.row &&& p.memberMask) } := by
        have accepted : s.rxAccepted p x = some f := by simp [Core.rxAccepted,given,taken]
        simp only [Core.arrival,Core.packetArrival,accepted,index]
      rw [next]
      simp only [after]
      exact aliveAccepted (aliveKept alive) inside sound other small
    · have dropped : s.rxAccept p f = false := by
        by_contra taken
        exact refuses (same.mpr (by simpa using taken))
      rw [kept (by simp [Core.rxAccepted,given,dropped])]
      simp only [after]
      exact aliveKept alive

end Reception

section Boundary

theorem stillSettled {m n' : Node} (same : n'.pendingConfig = m.pendingConfig)
    (settled : ∀ r', m.pendingDue r' = none) (r' : Int) : n'.pendingDue r' = none := by
  have held := settled r'
  simpa only [Node.pendingDue,same] using held

theorem crossHalt {e : Node.Evaluation}
    (evaluated : Node.evaluateRoundBoundary np {n with previousStage := n.currentStage}
      (some n.previousStage) = e) (halt : e.decision = .halt) :
    (n.crossBoundary np r).1.status = e.node.status ∧
      (n.crossBoundary np r).1.statusReason = e.node.statusReason ∧
      (n.crossBoundary np r).1.currentSoundSet = e.soundSet.getD e.node.currentSoundSet ∧
      (n.crossBoundary np r).2 = ⟨none,e.newCommits⟩ := by
  simp only [Node.crossBoundary,evaluated,halt,if_true,and_self]

theorem crossPass {e : Node.Evaluation}
    (evaluated : Node.evaluateRoundBoundary np {n with previousStage := n.currentStage}
      (some n.previousStage) = e) (goes : e.decision ≠ .halt) (run : e.node.runId = n.runId)
    (members : e.node.installedMembership = n.installedMembership)
    (shifted : e.node.previousStage = n.currentStage) :
    (n.crossBoundary np r).1.status = e.node.status ∧
      (n.crossBoundary np r).1.currentSoundSet = e.soundSet.getD e.node.currentSoundSet ∧
      (n.crossBoundary np r).2 = ⟨some (n.broadcast np r),e.newCommits⟩ := by
  simp only [Node.crossBoundary,evaluated,if_neg goes,run,shifted,true_and]
  simp [Node.broadcast,Node.newCurrentStage,Node.defaultDestinations,Dict.getD,members]

-- The node the boundary into round `r` finds when its configuration has settled.
def Alive.entering (_ : Alive p q n r) (r' : Int) : Node := {n with currentRound := r'}

theorem aliveAdvances (ids : SameNode p np) (alive : Alive p q n r) (r' : Int) :
    n.advanceRound np r' = (alive.entering r').crossBoundary np r' := by
  have same : n.configured np r' = alive.entering r' :=
    Node.configureEmpty np alive.mailbox (alive.settled r')
  have joins : (alive.entering r').participates np := by
    refine ⟨alive.up,alive.active,?_⟩
    show n.currentSoundSet.testBit np.nodeId = true
    rw [alive.sound,ids.nodeId,BitVec.testBit_toNat]
    exact alive.self
  obtain ⟨masked,_⟩ | ⟨_,rests,_⟩ | ⟨_,_,crosses⟩ := Node.advanceRoundCases np n r'
  · simp [Node.masked,alive.up] at masked
  · exact absurd (same ▸ joins) rests
  · rw [crosses,same]

theorem haltsAlike (ids : SameNode p np) (alive : Alive p q n r) (r' : Int)
    (halts : q.evalHalts p = true) :
    ∃ reason, haltReasonOf reason = q.evalHaltReason p ∧
      (n.advanceRound np r').1.status = .halted ∧
      (n.advanceRound np r').1.statusReason = some (.halt reason) ∧
      (n.advanceRound np r').1.currentSoundSet = n.currentSoundSet ∧
      (n.advanceRound np r').2 = ⟨none,[]⟩ := by
  simp only [Protocol.evalHalts,Bool.and_eq_true,decide_eq_true_eq] at halts
  obtain ⟨valid,fails⟩ := halts
  rw [aliveAdvances ids alive]
  obtain ⟨_,off⟩ | ⟨round,late,_,same⟩ := alive.previous
  · exact Bool.noConfusion (off.symm.trans valid)
  · have judged : 0 ≤ (alive.entering r').previousStage.roundId := by
      show 0 ≤ n.previousStage.roundId
      omega
    have evidence : SameEvidence p q
        {alive.entering r' with previousStage := n.currentStage}.currentSoundSet
        (alive.entering r').previousStage := same
    obtain ⟨rows,localRow,reason,named,evaluated⟩ := sameHalt ids evidence judged fails
    exact ⟨reason,named,crossHalt evaluated rfl⟩

theorem passesAlike (ids : SameNode p np) (alive : Alive p q n r) (r' : Int)
    (passes : q.evalHalts p = false) :
    (n.advanceRound np r').1.status = .running ∧
      (n.advanceRound np r').1.currentSoundSet =
        (if q.evalCommits p then q.evalSoundSet p else q.currentSoundSet).toNat ∧
      (n.advanceRound np r').2 = ⟨some (n.broadcast np r'),
        if q.evalCommits p then
          [Node.committedRound np n.previousStage (q.evalLocalRow p).toNat]
        else []⟩ := by
  rw [aliveAdvances ids alive]
  obtain ⟨early,off⟩ | ⟨round,late,valid,same⟩ := alive.previous
  · have before : (alive.entering r').previousStage.roundId < 0 := early
    have silent : q.evalCommits p = false := by simp [Protocol.evalCommits,off]
    have evaluated : Node.evaluateRoundBoundary np
        {alive.entering r' with previousStage := (alive.entering r').currentStage}
        (some (alive.entering r').previousStage) = ⟨_,.skip,none,[]⟩ := if_pos before
    obtain ⟨status,sound,result⟩ := crossPass evaluated (by simp) rfl rfl rfl
    rw [status,sound,result,silent]
    exact ⟨alive.up,alive.sound,rfl⟩
  · have reason : q.evalHaltReason p = .none := by
      simpa [Protocol.evalHalts,valid] using passes
    have commits : q.evalCommits p = true := by simp [Protocol.evalCommits,valid,reason]
    have judged : 0 ≤ (alive.entering r').previousStage.roundId := by
      show 0 ≤ n.previousStage.roundId
      omega
    have evidence : SameEvidence p q
        {alive.entering r' with previousStage := n.currentStage}.currentSoundSet
        (alive.entering r').previousStage := same
    have evaluated := sameCommit ids evidence judged reason
    obtain ⟨status,sound,result⟩ := crossPass evaluated (by simp) rfl rfl rfl
    rw [status,sound,result,commits]
    exact ⟨alive.up,rfl,rfl⟩

-- The current stage of both, filed with the own row at a boundary.
theorem evidenceFiled (ids : SameNode p np) (alive : Alive p q n r) {q' : Protocol} {sound' : Nat}
    (rows : q'.previousStageRows =
      Function.update (fun _ => 0) p.nodeId q.currentStageProposals)
    (held : q'.previousStageProposals = q.currentStageProposals)
    (sound : sound' = q'.currentSoundSet.toNat) (self : q'.currentSoundSet.getLsbD p.nodeId = true)
    (members : ∀ i, q'.currentSoundSet.getLsbD i = true →
      i < p.nodeCount ∧ n.installedMembership.testBit i = true) :
    SameEvidence p q' sound' (Node.filedStage np n.currentStage) := by
  refine ⟨sound,self,?_,?_,?_,?_,?_⟩
  · intro i inside
    obtain ⟨small,member⟩ := members i inside
    exact ⟨small,alive.membership ▸ member⟩
  · intro i
    rw [Node.filedStage,Dict.getD,Dict.lookupInsert,ids.nodeId,alive.fresh,alive.row,rows]
    by_cases own : i = p.nodeId
    · simp [own]
    · simp [own]
  · intro i silent
    have other : i ≠ p.nodeId := by
      rintro rfl
      exact Bool.noConfusion (silent.symm.trans self)
    rw [rows,Function.update_of_ne other]
  · intro i
    rw [rows,Function.update_self]
    exact alive.named i
  · intro i
    rw [held]
    exact alive.proposals i

/- A boundary that both pass opens a stage with the own proposal alone. -/
theorem aliveEntered {m n' : Node} {result : NodeRoundResult} (ids : SameNode p np)
    (crossed : Node.Crossed np m r n' result) (running : q.state = .run)
    (up : n'.status = .running) (active : m.membershipState = .active)
    (mailbox : m.pendingControlPlaneUpdate = none) (settled : ∀ r', m.pendingDue r' = none)
    (round : m.currentRound = r) (positive : 0 ≤ r) (runId : m.runId = q.currentRunId.toNat)
    (sound : n'.currentSoundSet = q.currentSoundSet.toNat)
    (self : q.currentSoundSet.getLsbD p.nodeId = true)
    (members : ∀ i, q.currentSoundSet.getLsbD i = true →
      i < p.nodeCount ∧ m.installedMembership.testBit i = true)
    (opened : q.currentStageProposals = p.selfBit)
    (previous : n'.previousStage.roundId < 0 ∧ q.previousStageValid = false ∨
      n'.previousStage.roundId = r - 1 ∧ 1 ≤ r ∧ q.previousStageValid = true ∧
        SameEvidence p q n'.currentSoundSet n'.previousStage) :
    Alive p q n' r := by
  have config := crossed.config
  simp only [Node.config,InstalledConfig.mk.injEq] at config
  obtain ⟨_,membership,run⟩ := config
  have current := crossed.current
  constructor
  case running => exact running
  case up => exact up
  case active => exact crossed.state.trans active
  case mailbox => exact crossed.mailbox.trans mailbox
  case settled => exact stillSettled crossed.pending settled
  case round => exact crossed.currentRound.trans round
  case positive => exact positive
  case runId => exact run.trans runId
  case sound => exact sound
  case self => exact self
  case members =>
    rw [membership]
    exact members
  case current => rw [current]; rfl
  case membership =>
    rw [current,membership]
    rfl
  case row =>
    rw [current,opened]
    apply bitmapEq
    intro i
    rw [BitVec.testBit_toNat,Parameters.selfBit,bitGet (selfSmall p)]
    simp [Node.newCurrentStage,ids.nodeId,eq_comm]
  case proposals =>
    intro i
    rw [current,opened,Parameters.selfBit,bitGet (selfSmall p)]
    simp only [Node.newCurrentStage,Dict.lookupSingleton,ids.nodeId]
    by_cases own : i = p.nodeId <;> simp [own]
  case named =>
    intro i held
    rw [opened,Parameters.selfBit,bitGet (selfSmall p),decide_eq_true_eq] at held
    exact held ▸ p.named
  case fresh => rw [current]; rfl
  case previous => exact previous

theorem commitsWithin (same : SameEvidence p q sound stage) :
    (q.evalSoundSet p).getLsbD p.nodeId = true ∧
      ∀ i, (q.evalSoundSet p).getLsbD i = true → q.currentSoundSet.getLsbD i = true := by
  refine ⟨(witnessesSound same).1,?_⟩
  intro i held
  have witness := soundSetBit.mp held
  simp only [Protocol.witnesses,Finset.mem_filter,Protocol.witness,Bool.and_eq_true] at witness
  exact witness.2.1

theorem alivePassed (ids : SameNode p np) (alive : Alive p s.protocol n r)
    (opened : s.protocol.currentStageValid = true) (passes : s.protocol.evalHalts p = false) :
    Alive p (s.passed p (s.arrival p x)) (n.advanceRound np (r + 1)).1 (r + 1) := by
  obtain ⟨status,sound,_⟩ := passesAlike ids alive (r + 1) passes
  have facts := @passedFacts p s (s.arrival p x)
  have crossed := Node.crossBoundaryFacts np (alive.entering (r + 1)) (r + 1)
  rw [← aliveAdvances ids alive] at crossed
  have core : (s.passed p (s.arrival p x)).currentSoundSet =
      if s.protocol.evalCommits p then s.protocol.evalSoundSet p else s.protocol.currentSoundSet := by
    rw [facts.sound,arrivalKeeps]
  have shrinks : (s.passed p (s.arrival p x)).currentSoundSet.getLsbD p.nodeId = true ∧
      ∀ i, (s.passed p (s.arrival p x)).currentSoundSet.getLsbD i = true →
        s.protocol.currentSoundSet.getLsbD i = true := by
    rw [core]
    obtain ⟨_,off⟩ | ⟨_,_,_,same⟩ := alive.previous
    · have silent : s.protocol.evalCommits p = false := by simp [Protocol.evalCommits,off]
      rw [silent]
      exact ⟨alive.self,fun i held => held⟩
    · cases s.protocol.evalCommits p with
      | true => exact commitsWithin same
      | false => exact ⟨alive.self,fun i held => held⟩
  have members := fun i held => alive.members i (shrinks.2 i held)
  have previous : (n.advanceRound np (r + 1)).1.previousStage =
      Node.filedStage np n.currentStage := crossed.previous
  have positive := alive.positive
  refine aliveEntered ids crossed ?_ status alive.active alive.mailbox alive.settled rfl (by omega) ?_
    (sound.trans (congrArg BitVec.toNat core.symm)) shrinks.1 members facts.proposals (Or.inr ?_)
  · rw [facts.state,arrivalState]
    exact alive.running
  · rw [facts.runId,arrivalRunId]
    exact alive.runId
  · refine ⟨?_,by omega,facts.valid.trans opened,?_⟩
    · rw [previous]
      show n.currentStage.roundId = _
      rw [alive.current]
      omega
    · rw [previous,sound,← core]
      exact evidenceFiled ids alive facts.rows facts.held rfl shrinks.1 members

theorem haltedBoundary (ids : SameNode p np) (alive : Alive p s.protocol n r)
    (halts : s.protocol.evalHalts p = true) :
    ∃ reason, Halted (s.haltAtBoundary p (s.shift (s.arrival p x)))
      (n.advanceRound np (r + 1)).1 reason := by
  obtain ⟨reason,named,status,why,sound,_⟩ := haltsAlike ids alive (r + 1) halts
  have crossed := Node.crossBoundaryFacts np (alive.entering (r + 1)) (r + 1)
  rw [← aliveAdvances ids alive] at crossed
  have kept : (s.haltAtBoundary p (s.shift (s.arrival p x))).currentSoundSet =
      s.protocol.currentSoundSet := by
    rw [Core.haltAtBoundary,Core.shift,arrivalKeeps]
  refine ⟨reason,rfl,named.symm,status,why,?_,crossed.mailbox.trans alive.mailbox,
    stillSettled crossed.pending alive.settled⟩
  rw [sound,kept]
  exact alive.sound

theorem haltedArrival {reason : Syncons.HaltReason} (halted : Halted s.protocol n reason) :
    Halted (s.arrival p x) n reason := by
  have none : s.rxAccepted p x = none := by
    rw [Core.rxAccepted,Option.filter_eq_none_iff]
    intro f _
    simp [Core.rxAccept,halted.core]
  have deaf : s.arrival p x = {s.protocol with commitValid := false} := by
    simp [Core.arrival,Core.packetArrival,none]
  rw [deaf]
  exact ⟨halted.core,halted.record,halted.node,halted.reason,halted.sound,halted.mailbox,
    halted.settled⟩

theorem haltedHears {reason : Syncons.HaltReason} (halted : Halted q n reason) (r : Int)
    (x : Inputs) (payload : String) : heard n r x payload = n := by
  cases given : x.rx with
  | none => simp [heard,given]
  | some f =>
    obtain ⟨accepts,_⟩ | ⟨_,same⟩ := Node.receiveCases n (packetOf r f payload)
    · exact NodeStatus.noConfusion (accepts.1.symm.trans halted.node)
    · simp [heard,given,same]

theorem haltedRests {reason : Syncons.HaltReason} (halted : Halted q n reason) (np : NodeParams)
    (r : Int) : n.advanceRound np r = ({n with currentRound := r},⟨none,[]⟩) := by
  have same : n.configured np r = {n with currentRound := r} :=
    Node.configureEmpty np halted.mailbox (halted.settled r)
  obtain ⟨masked,_⟩ | ⟨_,_,rests⟩ | ⟨_,joins,_⟩ := Node.advanceRoundCases np n r
  · exact NodeStatus.noConfusion (masked.1.symm.trans halted.node)
  · rw [rests,same]
  · rw [same] at joins
    exact NodeStatus.noConfusion (joins.1.symm.trans halted.node)

end Boundary

section Lockstep

structure Coupled (p : Parameters) (s : Pair) : Prop where
  ran : ∃ moves, Ran (system p) moves s.bench
  related : Alive p s.bench.core.protocol s.node s.round ∧
      s.bench.core.lastEntered = BitVec.ofInt 64 s.round ∨
    ∃ reason, Halted s.bench.core.protocol s.node reason

inductive AtBoundary (p : Parameters) (s : Core) (x : Inputs) : Prop where
  | halted (running : s.protocol.state = .run) (halts : s.protocol.evalHalts p = true)
      (next : s.protocolNext p x = s.haltAtBoundary p (s.shift (s.arrival p x)))
  | passed (running : s.protocol.state = .run) (passes : s.protocol.evalHalts p = false)
      (next : s.protocolNext p x = s.passed p (s.arrival p x))
  | stayed (still : s.protocol.state ≠ .run) (next : s.protocolNext p x = s.arrival p x)

theorem atBoundary (timed : Timed p b) (free : FaultFree p b.now x)
    (undisturbed : Undisturbed p b.core x) (pulse : b.core.timing.roundStartPulse = true)
    (busy : b.core.protocol.state ≠ .idle) : AtBoundary p b.core x := by
  have undue := (undisturbed.settled pulse).1
  have step := tickOf timed free
  generalize same : b.core.protocolNext p x = q at step
  cases step with
  | stopped down idle silent current previous =>
    rcases down with stops | resets
    · exact Bool.noConfusion (undisturbed.up.symm.trans stops)
    · exact Bool.noConfusion (undisturbed.alive.symm.trans resets)
  | listened up alive quiet => exact Bool.noConfusion (quiet.symm.trans pulse)
  | installed up alive pulse fires =>
    simp only [Core.activationFires,undue,Bool.false_and] at fires
    cases fires
  | excluded up alive pulse due without => exact Bool.noConfusion (undue.symm.trans due)
  | waited up alive pulse idle pending => exact absurd idle busy
  | stayed up alive pulse undue still => exact .stayed still same
  | halted up alive pulse undue running halts => exact .halted running halts same
  | shifted up alive pulse undue running passes => exact .passed running passes same

theorem passedMatches (ids : SameNode p np) (alive : Alive p s.protocol n r) (piped : Piped p s)
    (entered : s.lastEntered = BitVec.ofInt 64 r) (pulse : s.timing.roundStartPulse = true)
    (passes : s.protocol.evalHalts p = false) {after : Pair}
    (next : after.bench.core.protocol = s.passed p (s.arrival p x))
    (node : (after.node,after.result) = n.advanceRound np (r + 1)) : Matches after := by
  obtain ⟨status,sound,result⟩ := passesAlike ids alive (r + 1) passes
  have facts := @passedFacts p s (s.arrival p x)
  rw [← node] at status sound result
  have running : after.bench.core.protocol.state = .run := by
    rw [next,facts.state,arrivalState]
    exact alive.running
  have entering : s.timing.roundId = BitVec.ofInt 64 (r + 1) := by
    have opens : s.lastEntered + 1 = s.timing.roundId := lastEnteredPulse pulse
    rw [← opens,entered,BitVec.ofInt_add]
    rfl
  constructor
  case commits =>
    simp only at result
    rw [result,next,facts.commitValid,arrivalSilent,Bool.or_false]
    cases commits : s.protocol.evalCommits p with
    | false => rfl
    | true =>
      obtain ⟨round,set⟩ := facts.committed commits
      obtain ⟨_,off⟩ | ⟨late,_,valid,_⟩ := alive.previous
      · simp [Protocol.evalCommits,off] at commits
      · have behind := piped.previous valid
        have same : BitVec.ofInt 64 n.previousStage.roundId = s.protocol.previousStageRoundId := by
          have sum : s.protocol.previousStageRoundId + 1 = BitVec.ofInt 64 (r - 1) + 1 := by
            rw [behind,entered]
            conv_lhs => rw [show r = r - 1 + 1 by omega,BitVec.ofInt_add]
            rfl
          rw [late]
          simpa using sum.symm
        simp [Node.committedRound,round,set,same]
  case soundSet =>
    rw [next,facts.sound,arrivalKeeps]
    exact sound
  case sends =>
    simp only at result
    rw [result,if_pos running,next,facts.spoken,facts.own,facts.row,entering,← alive.row,
      ← alive.runId]
    rfl
  case halts => exact Or.inl ⟨running,status⟩

theorem haltedMatches {reason : Syncons.HaltReason} {after : Pair}
    (halted : Halted after.bench.core.protocol after.node reason)
    (silent : after.bench.core.protocol.commitValid = false) (result : after.result = ⟨none,[]⟩) :
    Matches after := by
  constructor
  case commits => simp [result,silent]
  case soundSet => exact halted.sound
  case sends => simp [result,halted.core]
  case halts => exact Or.inr ⟨reason,halted.core,halted.node,halted.reason,halted.record⟩

theorem coupledStep {s s' : Pair} {op : Inputs × String} (ids : SameNode p np) (coupled : Coupled p s)
    (step : (paired p np).step s op s') :
    Coupled p s' ∧ (s.bench.core.timing.roundStartPulse = true → Matches s') := by
  obtain ⟨free,undisturbed,after⟩ := step
  obtain ⟨moves,ran⟩ := coupled.ran
  have timed := ranTimed ran
  have core : s'.bench = ⟨s.bench.core.next p op.1,some op.1.instant⟩ := by
    rw [after,Pair.next]
    split <;> rfl
  have protocol : s'.bench.core.protocol = s.bench.core.protocolNext p op.1 := by rw [core]; rfl
  have ran' : ∃ moves, Ran (system p) moves s'.bench := ⟨_,Ran.move ran ⟨free,core⟩⟩
  cases pulse : s.bench.core.timing.roundStartPulse with
  | false =>
    have next := quietNext timed free undisturbed pulse
    have node : s'.node = heard s.node s.round op.1 op.2 ∧ s'.round = s.round := by
      rw [after,Pair.next]
      simp [pulse]
    refine ⟨⟨ran',?_⟩,nofun⟩
    rw [protocol,next,node.1,node.2]
    obtain ⟨alive,entered⟩ | ⟨reason,halted⟩ := coupled.related
    · have settled : s.bench.core.lastEntered = s.bench.core.timing.roundId := by
        simp [Core.lastEntered,pulse]
      have running : (s.bench.core.protocolNext p op.1).state = .run := by
        rw [next,arrivalState]
        exact alive.running
      obtain ⟨t,count⟩ := counted timed free running
      refine Or.inl ⟨aliveArrival alive (settled ▸ entered) undisturbed.foreign,?_⟩
      rw [core]
      exact count.last.trans (settled ▸ entered)
    · rw [haltedHears halted]
      exact Or.inr ⟨reason,haltedArrival halted⟩
  | true =>
    have node : (s'.node,s'.result) = s.node.advanceRound np (s.round + 1) ∧
        s'.round = s.round + 1 := by
      rw [after,Pair.next]
      simp [pulse]
    have opens : s.bench.core.lastEntered + 1 = s.bench.core.timing.roundId := lastEnteredPulse pulse
    have first : s'.node = (s.node.advanceRound np (s.round + 1)).1 := congrArg Prod.fst node.1
    have second : s'.result = (s.node.advanceRound np (s.round + 1)).2 := congrArg Prod.snd node.1
    obtain ⟨alive,entered⟩ | ⟨reason,halted⟩ := coupled.related
    · have piped := ranPiped ran alive.running
      have busy : s.bench.core.protocol.state ≠ .idle := by simp [alive.running]
      cases atBoundary timed free undisturbed pulse busy with
      | halted _ halts next =>
        obtain ⟨reason,halted⟩ := haltedBoundary (x := op.1) ids alive halts
        rw [← next,← protocol,← first] at halted
        obtain ⟨_,_,_,_,_,result⟩ := haltsAlike ids alive (s.round + 1) halts
        have silent : s'.bench.core.protocol.commitValid = false := by
          rw [protocol,next]
          exact arrivalSilent
        exact ⟨⟨ran',Or.inr ⟨reason,halted⟩⟩,
          fun _ => haltedMatches halted silent (second.trans result)⟩
      | passed _ passes next =>
        have alive' := alivePassed (x := op.1) ids alive piped.opened passes
        rw [← next,← protocol,← first,← node.2] at alive'
        obtain ⟨t,count⟩ := counted timed free (protocol ▸ alive'.running)
        refine ⟨⟨ran',Or.inl ⟨alive',?_⟩⟩,
          fun _ => passedMatches ids alive piped entered pulse passes (protocol.trans next) node.1⟩
        rw [core,node.2,BitVec.ofInt_add,← entered]
        exact count.last.trans opens.symm
      | stayed still next => exact absurd alive.running still
    · have busy : s.bench.core.protocol.state ≠ .idle := by simp [halted.core]
      cases atBoundary timed free undisturbed pulse busy with
      | halted running halts next => exact FsmState.noConfusion (running.symm.trans halted.core)
      | passed running passes next => exact FsmState.noConfusion (running.symm.trans halted.core)
      | stayed still next =>
        have stays := @haltedArrival p s.bench.core s.node op.1 reason halted
        rw [haltedRests halted] at first second
        have stays' : Halted s'.bench.core.protocol s'.node reason := by
          rw [protocol,next,first]
          exact ⟨stays.core,stays.record,stays.node,stays.reason,stays.sound,stays.mailbox,
            stays.settled⟩
        refine ⟨⟨ran',Or.inr ⟨reason,stays'⟩⟩,fun _ => haltedMatches stays' ?_ second⟩
        rw [protocol,next]
        exact arrivalSilent

theorem pairedStart {s : Pair} (ids : SameNode p np) (start : Paired p np s) : Coupled p s := by
  obtain ⟨before,m,n,ran,installed,round,reset,node⟩ := start
  refine ⟨⟨_,ran⟩,Or.inl ?_⟩
  obtain ⟨earlier,step,same⟩ := Runs.ranSnoc ran
  have timed := ranTimed earlier
  obtain ⟨pulse,_,protocol⟩ := installsFacts timed step installed
  obtain ⟨free,after⟩ := step
  rw [← same]
  have running : m.after.core.protocol.state = .run := by
    rw [protocol]
    rfl
  rw [after] at running
  obtain ⟨t,count⟩ := counted timed free running
  have place := round t count.now
  have includes : m.before.core.csr.configMembership.getLsbD p.nodeId = true := by
    simp only [installs,Core.activationFires,Bool.and_eq_true] at installed
    exact installed.1.2.2
  have memberBit (i : Nat) : (installedMembers p m.before.core).getLsbD i = true →
      i < p.nodeCount := by
    rw [installedMembers,BitVec.getLsbD_and,maskGet,Bool.and_eq_true,decide_eq_true_eq]
    exact And.right
  have self : (installedMembers p m.before.core).getLsbD p.nodeId = true := by
    rw [installedMembers,BitVec.getLsbD_and,maskGet,BitVec.getLsbD_setWidth,includes]
    simp [selfSmall p,p.named]
  have joins : (n.configured np s.round).participates np := by
    refine ⟨reset.running,reset.active,?_⟩
    rw [reset.sound,ids.nodeId,BitVec.testBit_toNat]
    exact self
  obtain ⟨masked,_⟩ | ⟨_,rests,_⟩ | ⟨_,_,crosses⟩ := Node.advanceRoundCases np n s.round
  · exact absurd masked reset.unmasked
  · exact absurd joins rests
  · rw [crosses] at node
    have evaluated : Node.evaluateRoundBoundary np
        { n.configured np s.round with previousStage := (n.configured np s.round).currentStage }
        (some (n.configured np s.round).previousStage) = ⟨_,.skip,none,[]⟩ := if_pos reset.previous
    have crossed := Node.crossBoundaryFacts np (n.configured np s.round) s.round
    obtain ⟨status,sound,_⟩ := crossPass evaluated (by simp) rfl rfl rfl
    rw [node] at crossed status sound
    have previous : s.node.previousStage = Node.filedStage np (n.configured np s.round).currentStage :=
      crossed.previous
    constructor
    · rw [protocol]
      refine aliveEntered ids crossed rfl (status.trans reset.running) reset.active reset.mailbox
        reset.settled (Node.configuredRound np n s.round) (by omega) reset.runId
        (sound.trans reset.sound) self ?_ rfl (Or.inl ⟨?_,rfl⟩)
      · intro i held
        exact ⟨memberBit i held,by rw [reset.installed,BitVec.testBit_toNat]; exact held⟩
      · rw [previous]
        exact reset.current
    · rw [after,count.last,count.round,place]
      rfl

theorem ranCoupled {moves : List (Move Pair (Inputs × String))} {s : Pair} (ids : SameNode p np)
    (ran : Ran (paired p np) moves s) : Coupled p s :=
  Runs.ranInvariant (fun _ start => pairedStart ids start)
    (fun _ _ _ coupled step => (coupledStep ids coupled step).1) ran

theorem coreRefines (p : Parameters) (np : NodeParams) (ids : SameNode p np)
    {moves : List (Move Pair (Inputs × String))} {s : Pair} (ran : Ran (paired p np) moves s) :
    ∀ m ∈ moves, m.before.bench.core.timing.roundStartPulse = true → Matches m.after := by
  intro m member
  obtain ⟨pre,post,rfl⟩ := List.append_of_mem member
  obtain ⟨before,step,_⟩ := Runs.ranAt ran
  exact (coupledStep ids (ranCoupled ids before) step).2

end Lockstep

section Example

instance (p : Parameters) (s : Core) (x : Inputs) : Decidable (Undisturbed p s x) :=
  decidable_of_iff (s.protocolStop p x = false ∧ x.rst = false ∧
      (s.timing.roundStartPulse = true → s.activationDue = false ∧ x.rx = none) ∧
      ∀ f ∈ x.rx, f.nodeId.toNat ≠ p.nodeId ∧ f.row.toNat < 2 ^ p.nodeCount)
    ⟨fun h => ⟨h.1,h.2.1,h.2.2.1,h.2.2.2⟩,fun h => ⟨h.1,h.2,h.3,h.4⟩⟩

def pairCycle (p : Parameters) (np : NodeParams) (s : Pair) (op : Inputs × String) : Except Unit Pair :=
  if FaultFree p s.bench.now op.1 ∧ Undisturbed p s.bench.core op.1 then .ok (s.next p np op.1 op.2)
  else .error ()

theorem lockstepRan {s last : Pair} {ops : List (Inputs × String)}
    {moves : List (Move Pair (Inputs × String))} (start : Paired p np s)
    (done : Runs.record (pairCycle p np) ops s = .ok (moves,last)) : Ran (paired p np) moves last := by
  have legal : ∀ op ∈ ops, ∀ s s', pairCycle p np s op = .ok s' → (paired p np).step s op s' := by
    intro op _ s s' took
    simp only [pairCycle] at took
    split at took
    · rename_i fine
      cases took
      exact ⟨fine.1,fine.2,rfl⟩
    · cases took
  have ran : Ran (paired p np) ([] ++ moves) last := Runs.recordRan legal (Ran.start start) done
  simpa using ran

def trioNode : NodeParams := ⟨0,3,fun _ _ => "",⟨fun text => text,fun text _ => text⟩⟩

def trioArms : List Inputs :=
  trioAt 0 (some ⟨0x003104,7⟩) none :: trioAt 0 none none :: trioAt 0 (some ⟨0x00300C,3⟩) none ::
    (List.range 10).map (fun k => trioAt (1000 * k) none none)

-- Node 1 is heard in rounds 2 and 3 and then no more: round 2 commits, round 3 halts.
def peerSends : Nat → Option RxRow
  | 0 => some ⟨1,2,0,2⟩
  | 4 => some ⟨1,3,0,3⟩
  | _ => none

def trioRounds : List (Inputs × String) :=
  (List.range 13).map (fun k => (trioAt (1000 * (k + 10)) none (peerSends k),""))

def trioPair : Option (List (Move Bench Inputs) × Move Bench Inputs × Pair) := do
  let (moves,b) ← (play trio trioArms).toOption
  let (before,m,post) ← Runs.cut 12 moves
  let (node,result) := (Node.init trioNode).advanceRound trioNode 2
  if post.isEmpty then some (before,m,⟨b,node,2,result⟩) else none

theorem trioReset : ResetAt trioNode (Node.init trioNode) 2 7 0 :=
  ⟨by decide,rfl,rfl,by decide,by decide,rfl,rfl,rfl,rfl,fun _ => rfl⟩

theorem trioPaired {before : List (Move Bench Inputs)} {m : Move Bench Inputs} {s : Pair}
    (found : trioPair = some (before,m,s)) (installed : installs trio m = true)
    (now : m.before.now = some 8000) (members : installedMembers trio m.before.core = 7)
    (runId : m.before.core.csr.configRunId = 0) : Paired trio trioNode s := by
  simp only [trioPair,bind,Option.bind_eq_some_iff] at found
  obtain ⟨⟨moves,b⟩,done,⟨before',m',post⟩,split,same⟩ := found
  cases post with
  | cons next rest => simp at same
  | nil =>
    simp only [List.isEmpty_nil,if_true,Option.some.injEq,Prod.mk.injEq] at same
    obtain ⟨rfl,rfl,rfl⟩ := same
    have ran := playRan (Runs.okOption done)
    have parts : moves = before' ++ [m'] := Runs.cutIs split
    rw [parts] at ran
    refine ⟨before',m',Node.init trioNode,ran,installed,?_,?_,?_⟩
    · intro t seen
      cases now.symm.trans seen
      rfl
    · rw [members,runId]
      exact trioReset
    · exact Prod.mk.eta.symm

def roundsOf (moves : List (Move Pair (Inputs × String))) : List (Int × Nat) :=
  (moves.filter (fun m => m.before.bench.core.timing.roundStartPulse)).flatMap
    (fun m => m.after.result.newCommits.map (fun c => (c.round,c.commitSet)))

theorem coreRefinesOnce : ∃ s moves last, Paired trio trioNode s ∧
    Runs.record (pairCycle trio trioNode) trioRounds s = .ok (moves,last) ∧
    roundsOf moves = [(2,3)] ∧ last.node.status = .halted ∧
    ∀ m ∈ moves, m.before.bench.core.timing.roundStartPulse = true → Matches m.after := by
  have value : trioPair.map (fun w =>
      installs trio w.2.1 && decide (w.2.1.before.now = some 8000) &&
        decide (installedMembers trio w.2.1.before.core = 7) &&
        decide (w.2.1.before.core.csr.configRunId = 0) &&
        decide ((Runs.record (pairCycle trio trioNode) trioRounds w.2.2).toOption.map
          (fun result => (roundsOf result.1,result.2.node.status)) = some ([(2,3)],.halted))) =
      some true := by decide +kernel
  cases found : trioPair with
  | none => simp [found] at value
  | some w =>
    obtain ⟨before,m,s⟩ := w
    simp only [found,Option.map_some,Option.some.injEq,Bool.and_eq_true,decide_eq_true_eq] at value
    obtain ⟨⟨⟨⟨installed,now⟩,members⟩,runId⟩,rounds⟩ := value
    have start := trioPaired found installed now members runId
    obtain ⟨⟨moves,last⟩,done,same⟩ := Runs.okFound rounds
    simp only [Prod.mk.injEq] at same
    exact ⟨s,moves,last,start,done,same.1,same.2,
      coreRefines trio trioNode ⟨rfl,rfl⟩ (lockstepRan start done)⟩

end Example

end Syncons.ConsensusCore
