import Syncons.Node
import Syncons.Bitmap

/-! What each step of a node does: local activation, the control-plane update, the
configuration part of a round, the judged boundary and a received packet. -/
namespace Syncons
open Dict (Map)

namespace Node

variable {p : NodeParams} {n n' : Node} {u : ControlPlaneUpdate} {pending : PendingConfig}
  {r : Int} {stage : RoundStage}

def blankStage (roundId epoch : Int) (membership : Nat) : RoundStage := ⟨roundId,epoch,membership,0,∅,∅⟩

structure Blank (n : Node) : Prop where
  current : n.currentStage = blankStage (-1) n.installedMembershipEpoch n.installedMembership
  previous : n.previousStage = blankStage (-1) n.installedMembershipEpoch n.installedMembership
  soundSet : n.currentSoundSet = n.installedMembership

structure SameStages (n n' : Node) : Prop where
  current : n'.currentStage = n.currentStage
  previous : n'.previousStage = n.previousStage

def config (n : Node) : InstalledConfig := ⟨n.installedMembershipEpoch,n.installedMembership,n.runId⟩

theorem resetBlank (n : Node) : Blank n.resetPipeline := ⟨rfl,rfl,rfl⟩

section Activation

theorem pendingDueSome (h : n.pendingDue r = some pending) :
    n.pendingConfig = some pending ∧ pending.status = .committed ∧ pending.effectiveRound ≤ r := by
  unfold pendingDue at h
  split at h
  · simp at h
  · rename_i held some
    split at h
    · simp at h
    · rename_i committed
      split at h
      · simp at h
      · cases Option.some.inj h
        exact ⟨some,not_not.mp committed,by omega⟩

theorem pendingDueNone (h : ∀ pending ∈ n.pendingConfig, pending.status = .committed →
    r < pending.effectiveRound) : n.pendingDue r = none := by
  unfold pendingDue
  split
  · rfl
  · rename_i pending some
    split
    · rfl
    · rename_i committed
      have early := h pending some (not_not.mp committed)
      simp [early]

theorem activateQuiet (h : n.pendingDue r = none) : n.activatePendingConfigIfDue r = n := by
  simp only [activatePendingConfigIfDue,h]

structure Activated (n : Node) (pending : PendingConfig) (n' : Node) : Prop where
  blank : Blank n'
  config : n'.config = ⟨pending.membershipEpoch,pending.membersBitmap,pending.runId⟩
  pending : n'.pendingConfig = none
  state : n'.membershipState = .active
  status : n'.status = n.status
  haltedRound : n'.haltedRound = n.haltedRound
  currentRound : n'.currentRound = n.currentRound
  outbox : n'.controlPlaneEventOutbox = n.controlPlaneEventOutbox
  mailbox : n'.pendingControlPlaneUpdate = n.pendingControlPlaneUpdate
  irq : n'.controlPlaneIrqPending = n.controlPlaneIrqPending

theorem activateDue (h : n.pendingDue r = some pending) :
    Activated n pending (n.activatePendingConfigIfDue r) := by
  simp only [activatePendingConfigIfDue,h]
  exact ⟨resetBlank _,rfl,rfl,rfl,rfl,rfl,rfl,rfl,rfl,rfl⟩

end Activation

section Update

theorem installRepairLogSame (p : NodeParams) (n : Node) (log : RepairLog) :
    ∃ frontier lineage digest, n.installRepairLog p log =
      { n with
        committedFrontier := frontier
        lastCommittedSoundSet := lineage
        commitDigest := digest } := by
  unfold installRepairLog
  split
  · exact ⟨n.committedFrontier,n.lastCommittedSoundSet,n.commitDigest,rfl⟩
  · exact ⟨_,_,_,rfl⟩

theorem repairedSame (p : NodeParams) (n : Node) (log : Option RepairLog) :
    ∃ frontier lineage digest, n.installRepairLogIfNew p log =
      { n with
        committedFrontier := frontier
        lastCommittedSoundSet := lineage
        commitDigest := digest } := by
  cases log with
  | none => exact ⟨n.committedFrontier,n.lastCommittedSoundSet,n.commitDigest,rfl⟩
  | some log =>
    simp only [installRepairLogIfNew]
    split
    · exact installRepairLogSame p n log
    · exact ⟨n.committedFrontier,n.lastCommittedSoundSet,n.commitDigest,rfl⟩

-- The states under which an update reboots a halted or crashed node.
def authorizes (s : MembershipState) : Prop := s = .recovering ∨ s = .rejoinPending ∨ s = .active
instance (s) : Decidable (authorizes s) := by unfold authorizes; infer_instance

structure Applied (n : Node) (u : ControlPlaneUpdate) (n' : Node) : Prop where
  config : n'.config = u.installedConfig
  pending : n'.pendingConfig = u.pendingConfig
  state : n'.membershipState = u.membershipState
  rebooted : authorizes u.membershipState → n'.status = .running
  asleep : ¬ authorizes u.membershipState → n'.status = n.status ∧ n'.haltedRound = n.haltedRound
  awake : n.status = .running → n'.status = .running ∧ n'.haltedRound = n.haltedRound
  soundSet : n'.currentSoundSet = n'.installedMembership
  reset : n.updateResets u = true → Blank n'
  kept : n.updateResets u = false → SameStages n n'
  currentRound : n'.currentRound = n.currentRound
  outbox : n'.controlPlaneEventOutbox = n.controlPlaneEventOutbox
  mailbox : n'.pendingControlPlaneUpdate = n.pendingControlPlaneUpdate
  irq : n'.controlPlaneIrqPending = n.controlPlaneIrqPending

theorem rebootCases (n : Node) (s : MembershipState) :
    ∃ status reason haltedRound details, n.rebootIfAuthorized s =
      {n with
        status := status
        statusReason := reason
        haltedRound := haltedRound
        haltDetails := details} ∧
      (authorizes s → status = .running) ∧
      (¬ authorizes s → status = n.status ∧ haltedRound = n.haltedRound) ∧
      (n.status = .running → status = .running ∧ haltedRound = n.haltedRound) := by
  unfold rebootIfAuthorized
  split
  · rename_i both
    refine ⟨_,_,_,_,rfl,fun _ => rfl,fun none => absurd both.2 none,?_⟩
    intro running
    rcases both.1 with down | down <;> simp [running] at down
  · rename_i not
    refine ⟨n.status,n.statusReason,n.haltedRound,n.haltDetails,rfl,?_,fun _ => ⟨rfl,rfl⟩,
      fun running => ⟨running,rfl⟩⟩
    intro some
    cases up : n.status with
    | running => rfl
    | halted => exact absurd ⟨Or.inr up,some⟩ not
    | crashed => exact absurd ⟨Or.inl up,some⟩ not

theorem applyControlPlaneUpdateFacts (p : NodeParams) (n : Node) (u : ControlPlaneUpdate) :
    Applied n u (n.applyControlPlaneUpdate p u) := by
  obtain ⟨status,reason,halted,details,same,rebooted,asleep,awake⟩ := rebootCases
    { n with
      installedMembershipEpoch := u.installedConfig.membershipEpoch
      installedMembership := u.installedConfig.membersBitmap
      currentSoundSet := u.installedConfig.membersBitmap
      runId := u.installedConfig.runId
      pendingConfig := u.pendingConfig
      membershipState := u.membershipState } u.membershipState
  unfold applyControlPlaneUpdate
  simp only [same]
  obtain ⟨frontier,lineage,digest,repaired⟩ := repairedSame p
    { n with
      status := status
      statusReason := reason
      haltedRound := halted
      haltDetails := details
      installedMembershipEpoch := u.installedConfig.membershipEpoch
      installedMembership := u.installedConfig.membersBitmap
      currentSoundSet := u.installedConfig.membersBitmap
      runId := u.installedConfig.runId
      pendingConfig := u.pendingConfig
      membershipState := u.membershipState } u.repairLog
  simp only [repaired]
  cases resets : n.updateResets u with
  | true =>
    exact ⟨rfl,rfl,rfl,rebooted,asleep,awake,rfl,fun _ => resetBlank _,by simp [resets],
      rfl,rfl,rfl,rfl⟩
  | false =>
    exact ⟨rfl,rfl,rfl,rebooted,asleep,awake,rfl,by simp [resets],fun _ => ⟨rfl,rfl⟩,
      rfl,rfl,rfl,rfl⟩

def ackDue (p : NodeParams) (held : Option PendingConfig) (next : Option PendingConfig) : List NodeEvent :=
  match next with
  | none => []
  | some pending =>
    if pending.status = .prepared ∧ some pending ≠ held then [prepareAckEvent p pending] else []

theorem acknowledgeSame (p : NodeParams) (n : Node) (held : Option PendingConfig) :
    n.acknowledge p held =
      {n with controlPlaneEventOutbox := n.controlPlaneEventOutbox ++ ackDue p held n.pendingConfig} := by
  unfold acknowledge
  split
  · rename_i none
    have nothing : ackDue p held n.pendingConfig = [] := by simp only [ackDue,none]
    rw [nothing,List.append_nil]
  · rename_i pending some
    split
    · rename_i due
      have one : ackDue p held n.pendingConfig = [prepareAckEvent p pending] := by
        simp only [ackDue,some,if_pos due]
      rw [one]
      rfl
    · rename_i late
      have nothing : ackDue p held n.pendingConfig = [] := by simp only [ackDue,some,if_neg late]
      rw [nothing,List.append_nil]

end Update

-- The mailbox and its interrupt line go together.
def Wired (n : Node) : Prop := n.controlPlaneIrqPending = n.pendingControlPlaneUpdate.isSome

theorem pullEmpty (p : NodeParams) (empty : n.pendingControlPlaneUpdate = none) :
    n.pullControlPlaneUpdate p = n := by
  unfold pullControlPlaneUpdate
  split
  · rename_i update irq some
    simp [empty] at some
  · rfl

structure Pulled (p : NodeParams) (n : Node) (u : ControlPlaneUpdate) (n' : Node) : Prop where
  config : n'.config = u.installedConfig
  pending : n'.pendingConfig = u.pendingConfig
  state : n'.membershipState = u.membershipState
  rebooted : authorizes u.membershipState → n'.status = .running
  asleep : ¬ authorizes u.membershipState → n'.status = n.status ∧ n'.haltedRound = n.haltedRound
  awake : n.status = .running → n'.status = .running ∧ n'.haltedRound = n.haltedRound
  soundSet : n'.currentSoundSet = n'.installedMembership
  reset : n.updateResets u = true → Blank n'
  kept : n.updateResets u = false → SameStages n n'
  currentRound : n'.currentRound = n.currentRound
  outbox : n'.controlPlaneEventOutbox = n.controlPlaneEventOutbox ++ ackDue p n.pendingConfig u.pendingConfig
  mailbox : n'.pendingControlPlaneUpdate = none
  irq : n'.controlPlaneIrqPending = false

theorem pullFull (p : NodeParams) (wired : Wired n) (full : n.pendingControlPlaneUpdate = some u) :
    Pulled p n u (n.pullControlPlaneUpdate p) := by
  have irq : n.controlPlaneIrqPending = true := by
    rw [wired,full]
    rfl
  have applied := applyControlPlaneUpdateFacts p
    {n with pendingControlPlaneUpdate := none, controlPlaneIrqPending := false} u
  generalize after : applyControlPlaneUpdate p
    {n with pendingControlPlaneUpdate := none, controlPlaneIrqPending := false} u = m at applied
  have shape : n.pullControlPlaneUpdate p =
      { m with
        controlPlaneEventOutbox :=
          m.controlPlaneEventOutbox ++ ackDue p n.pendingConfig m.pendingConfig } := by
    rw [← acknowledgeSame,← after]
    unfold pullControlPlaneUpdate
    simp only [irq,full]
  rw [shape]
  refine ⟨applied.config,applied.pending,applied.state,applied.rebooted,applied.asleep,applied.awake,
    applied.soundSet,?_,?_,applied.currentRound,?_,applied.mailbox,applied.irq⟩
  · intro resets
    have blank := applied.reset resets
    exact ⟨blank.current,blank.previous,blank.soundSet⟩
  · intro same
    have kept := applied.kept same
    exact ⟨kept.current,kept.previous⟩
  · simp only [applied.outbox,applied.pending]

section Configuration

theorem keepsConfig (same : n.updateResets u = false) :
    n.config = u.installedConfig ∧ (u.membershipState = .active → n.membershipState = .active) := by
  simp only [updateResets,Bool.or_eq_false_iff,bne_eq_false_iff_eq,Bool.and_eq_false_iff,
    beq_eq_false_iff_ne] at same
  obtain ⟨⟨⟨state,epoch⟩,membership⟩,run⟩ := same
  refine ⟨by simp only [config,epoch,membership,run],?_⟩
  intro active
  rcases state with held | other
  · exact held
  · exact absurd active other

theorem ackDueCommitted {next : Option PendingConfig} (committed : pending.status = .committed) :
    ackDue p none next = ackDue p (some pending) next := by
  unfold ackDue
  cases next with
  | none => rfl
  | some other =>
    have differs : other.status = .prepared → other ≠ pending := by
      intro prepared same
      rw [same,committed] at prepared
      simp at prepared
    by_cases prepared : other.status = .prepared
    · simp [prepared,differs prepared]
    · simp [prepared]

-- What a reset leaves, or nothing that matters to the stages has changed.
def Restarted (n n' : Node) : Prop :=
  Blank n' ∨ SameStages n n' ∧ n'.config = n.config ∧
    (n'.membershipState = .active → n.membershipState = .active)

structure Adopted (p : NodeParams) (n : Node) (u : ControlPlaneUpdate) (n' : Node) : Prop where
  config : n'.config = u.installedConfig
  pending : n'.pendingConfig = u.pendingConfig
  state : n'.membershipState = u.membershipState
  rebooted : authorizes u.membershipState → n'.status = .running
  asleep : ¬ authorizes u.membershipState → n'.status = n.status ∧ n'.haltedRound = n.haltedRound
  awake : n.status = .running → n'.status = .running ∧ n'.haltedRound = n.haltedRound
  soundSet : n'.currentSoundSet = n'.installedMembership
  stages : Restarted n n'
  currentRound : n'.currentRound = n.currentRound
  outbox : n'.controlPlaneEventOutbox = n.controlPlaneEventOutbox ++ ackDue p n.pendingConfig u.pendingConfig
  mailbox : n'.pendingControlPlaneUpdate = none
  irq : n'.controlPlaneIrqPending = false

theorem configureFull (p : NodeParams) (r : Int) (wired : Wired n)
    (full : n.pendingControlPlaneUpdate = some u) : Adopted p n u (n.configure p r) := by
  unfold configure
  cases due : n.pendingDue r with
  | none =>
    rw [activateQuiet due]
    have pulled := pullFull p wired full
    refine ⟨pulled.config,pulled.pending,pulled.state,pulled.rebooted,pulled.asleep,pulled.awake,
      pulled.soundSet,?_,pulled.currentRound,pulled.outbox,pulled.mailbox,pulled.irq⟩
    cases resets : n.updateResets u with
    | true => exact Or.inl (pulled.reset resets)
    | false =>
      obtain ⟨config,active⟩ := keepsConfig resets
      exact Or.inr ⟨pulled.kept resets,pulled.config.trans config.symm,
        fun now => active (pulled.state.symm.trans now)⟩
  | some pending =>
    have activated := activateDue due
    obtain ⟨held,committed,_⟩ := pendingDueSome due
    have wired' : Wired (n.activatePendingConfigIfDue r) := by
      rw [Wired,activated.irq,activated.mailbox]
      exact wired
    have pulled := pullFull p wired' (activated.mailbox.trans full)
    refine ⟨pulled.config,pulled.pending,pulled.state,pulled.rebooted,?_,?_,pulled.soundSet,Or.inl ?_,
      pulled.currentRound.trans activated.currentRound,?_,pulled.mailbox,pulled.irq⟩
    · intro none
      obtain ⟨status,halted⟩ := pulled.asleep none
      exact ⟨status.trans activated.status,halted.trans activated.haltedRound⟩
    · intro running
      obtain ⟨status,halted⟩ := pulled.awake (activated.status.trans running)
      exact ⟨status,halted.trans activated.haltedRound⟩
    · cases resets : (n.activatePendingConfigIfDue r).updateResets u with
      | true => exact pulled.reset resets
      | false =>
        have same := pulled.config.trans (keepsConfig resets).1.symm
        have kept := pulled.kept resets
        simp only [config,InstalledConfig.mk.injEq] at same
        exact ⟨by rw [kept.current,activated.blank.current,same.1,same.2.1],
          by rw [kept.previous,activated.blank.previous,same.1,same.2.1],pulled.soundSet⟩
    · rw [pulled.outbox,activated.outbox,activated.pending,held,ackDueCommitted committed]

theorem configureEmpty (p : NodeParams) (empty : n.pendingControlPlaneUpdate = none)
    (quiet : n.pendingDue r = none) : n.configure p r = n := by
  rw [configure,activateQuiet quiet,pullEmpty p empty]

end Configuration

section Boundary

theorem commitSetAgreed {p : NodeParams} {agreed : Nat} (h : agreedRow p stage = some agreed) :
    commitSet p stage = some agreed ∧
      (∀ member ∈ bitmapMembers agreed p.nodeCount, (stage.proposals.lookup member).isSome) ∨
    commitSet p stage = none := by
  simp only [commitSet,h,bind,Option.bind]
  split
  · exact Or.inr rfl
  · rename_i all
    refine Or.inl ⟨rfl,?_⟩
    intro member inside
    simp only [List.any_eq_true,not_exists,not_and] at all
    exact Option.isSome_iff_ne_none.mpr (fun none => all member inside (by simp [none]))

structure Judged (p : NodeParams) (n : Node) (stage : RoundStage) (agreed core : Nat) : Prop where
  round : 0 ≤ stage.roundId
  row : agreedRow p stage = some agreed
  proposed : ∀ member ∈ bitmapMembers agreed p.nodeCount, (stage.proposals.lookup member).isSome
  sound : soundSet p stage = some core
  self : core.testBit p.nodeId = true
  shrinks : core &&& n.currentSoundSet = core

inductive Evaluated (p : NodeParams) (n : Node) (stage : RoundStage) : Evaluation → Prop where
  | skip (early : stage.roundId < 0) : Evaluated p n stage ⟨n,.skip,none,[]⟩
  | halt (round : 0 ≤ stage.roundId) (rows localRow reason) :
      Evaluated p n stage (n.enterHaltState p stage rows localRow reason)
  | continue {agreed core : Nat} (judged : Judged p n stage agreed core) :
      Evaluated p n stage
        ⟨{ n with
            committedFrontier := stage.roundId
            lastCommittedSoundSet := some core
            commitDigest := extendLogDigest p.hash n.commitDigest (committedRound p stage agreed) },
          .continue,some core,[committedRound p stage agreed]⟩

theorem evaluateCases (p : NodeParams) (n : Node) (stage : RoundStage) :
    Evaluated p n stage (n.evaluateRoundBoundary p (some stage)) := by
  simp only [evaluateRoundBoundary,Option.getD_some]
  split
  · rename_i early
    exact .skip early
  · rename_i late
    have round : 0 ≤ stage.roundId := by omega
    split
    · exact .halt round _ _ _
    · exact .halt round _ _ _
    · exact .halt round _ _ _
    · rename_i agreed commit sound agreedIs commitIs soundIs
      split
      · exact .halt round _ _ _
      · rename_i self
        split
        · exact .halt round _ _ _
        · rename_i shrinks
          rcases commitSetAgreed agreedIs with ⟨same,proposed⟩ | none
          · cases Option.some.inj (same.symm.trans commitIs)
            exact .continue ⟨round,agreedIs,proposed,soundIs,by simpa using self,not_not.mp shrinks⟩
          · simp [none] at commitIs

-- The packet a node sends in round `r`, with the row of its stage of round `r - 1`.
def broadcast (p : NodeParams) (n : Node) (r : Int) : OutboundPacket :=
  ⟨⟨r,p.nodeId,n.runId,n.currentStage.row,p.payloadFactory p.nodeId r⟩,n.defaultDestinations p⟩

def filedStage (p : NodeParams) (stage : RoundStage) : RoundStage :=
  {stage with rows := stage.rows.insert p.nodeId stage.row}

inductive Verdict (p : NodeParams) (n : Node) (r : Int) (n' : Node) : NodeRoundResult → Prop where
  | skip (early : n.previousStage.roundId < 0)
      (status : n'.status = n.status ∧ n'.haltedRound = n.haltedRound)
      (sound : n'.currentSoundSet = n.currentSoundSet)
      (outbox : n'.controlPlaneEventOutbox = n.controlPlaneEventOutbox) :
      Verdict p n r n' ⟨some (n.broadcast p r),[]⟩
  | halt (round : 0 ≤ n.previousStage.roundId) (status : n'.status = .halted)
      (sound : n'.currentSoundSet = n.currentSoundSet) (record : HaltRecord)
      (outbox : n'.controlPlaneEventOutbox =
        n.controlPlaneEventOutbox ++ [⟨.nodeHalted,p.nodeId,none,some record⟩]) :
      Verdict p n r n' ⟨none,[]⟩
  | commit {agreed core : Nat} (judged : Judged p n n.previousStage agreed core)
      (status : n'.status = n.status ∧ n'.haltedRound = n.haltedRound)
      (sound : n'.currentSoundSet = core)
      (outbox : n'.controlPlaneEventOutbox = n.controlPlaneEventOutbox) :
      Verdict p n r n' ⟨some (n.broadcast p r),[committedRound p n.previousStage agreed]⟩

structure Crossed (p : NodeParams) (n : Node) (r : Int) (n' : Node) (result : NodeRoundResult) : Prop where
  config : n'.config = n.config
  pending : n'.pendingConfig = n.pendingConfig
  state : n'.membershipState = n.membershipState
  currentRound : n'.currentRound = n.currentRound
  mailbox : n'.pendingControlPlaneUpdate = n.pendingControlPlaneUpdate
  irq : n'.controlPlaneIrqPending = n.controlPlaneIrqPending
  current : n'.currentStage = n.newCurrentStage p r
  previous : n'.previousStage = filedStage p n.currentStage
  verdict : Verdict p n r n' result

theorem broadcastPacket (p : NodeParams) (n : Node) (r : Int) :
    OutboundPacket.mk ⟨r,p.nodeId,n.runId,n.currentStage.row,
      Dict.getD (n.newCurrentStage p r).proposals p.nodeId ""⟩ (n.defaultDestinations p) =
      n.broadcast p r := by
  simp only [broadcast,newCurrentStage,Dict.getD,Finmap.lookup_singleton_eq,Option.getD_some]

theorem crossBoundaryFacts (p : NodeParams) (n : Node) (r : Int) :
    Crossed p n r (n.crossBoundary p r).1 (n.crossBoundary p r).2 := by
  have cases := evaluateCases p {n with previousStage := n.currentStage} n.previousStage
  simp only [crossBoundary]
  generalize evaluateRoundBoundary p {n with previousStage := n.currentStage}
    (some n.previousStage) = e at cases
  have packet := broadcastPacket p n r
  cases cases with
  | skip early =>
    refine ⟨rfl,rfl,rfl,rfl,rfl,rfl,rfl,rfl,?_⟩
    exact Eq.mpr (congrArg (fun o => Verdict p n r _ ⟨some o,[]⟩) packet)
      (.skip early ⟨rfl,rfl⟩ rfl rfl)
  | halt round rows localRow reason =>
    exact ⟨rfl,rfl,rfl,rfl,rfl,rfl,rfl,rfl,.halt round rfl rfl _ rfl⟩
  | «continue» judged =>
    refine ⟨rfl,rfl,rfl,rfl,rfl,rfl,rfl,rfl,?_⟩
    have same : Judged p n n.previousStage _ _ :=
      ⟨judged.round,judged.row,judged.proposed,judged.sound,judged.self,judged.shrinks⟩
    exact Eq.mpr (congrArg (fun o => Verdict p n r _ ⟨some o,_⟩) packet)
      (.commit same ⟨rfl,rfl⟩ rfl rfl)

theorem crossedBroadcast {c : Node} {result : NodeRoundResult} (crossed : Crossed p c r n' result)
    {sent : OutboundPacket} (member : result.outbound = some sent) : sent = c.broadcast p r := by
  have verdict := crossed.verdict
  cases verdict with
  | skip early status sound outbox => exact (Option.some.inj member).symm
  | halt round status sound record outbox => cases member
  | commit judged status sound outbox => exact (Option.some.inj member).symm

theorem broadcastOthers (p : NodeParams) (n : Node) (r : Int) :
    ∀ dst ∈ (n.broadcast p r).destinations, dst ≠ p.nodeId := by
  intro dst inside
  simpa using (List.mem_filter.mp inside).2

end Boundary

section Round

def configured (p : NodeParams) (n : Node) (r : Int) : Node := {n with currentRound := r}.configure p r

theorem configuredRound (p : NodeParams) (n : Node) (r : Int) :
    (n.configured p r).currentRound = r := by
  have activated : ({n with currentRound := r}.activatePendingConfigIfDue r).currentRound = r := by
    cases due : {n with currentRound := r}.pendingDue r with
    | none => rw [activateQuiet due]
    | some pending => exact (activateDue due).currentRound
  simp only [configured,configure]
  generalize {n with currentRound := r}.activatePendingConfigIfDue r = m at activated
  unfold pullControlPlaneUpdate
  split
  · rw [acknowledgeSame]
    exact (applyControlPlaneUpdateFacts p _ _).currentRound.trans activated
  · exact activated

theorem advanceRoundCases (p : NodeParams) (n : Node) (r : Int) :
    n.masked r ∧ n.advanceRound p r = ({n with currentRound := r},⟨none,[]⟩) ∨
    ¬ n.masked r ∧ ¬ (n.configured p r).participates p ∧
      n.advanceRound p r = (n.configured p r,⟨none,[]⟩) ∨
    ¬ n.masked r ∧ (n.configured p r).participates p ∧
      n.advanceRound p r = (n.configured p r).crossBoundary p r := by
  have same : {n with currentRound := r}.masked r ↔ n.masked r := Iff.rfl
  unfold advanceRound
  by_cases hidden : n.masked r
  · exact Or.inl ⟨hidden,if_pos (same.mpr hidden)⟩
  · right
    dsimp only
    rw [if_neg (fun other => hidden (same.mp other))]
    by_cases joins : (n.configured p r).participates p
    · exact Or.inr ⟨hidden,joins,if_pos joins⟩
    · exact Or.inl ⟨hidden,joins,if_neg joins⟩

theorem crashCases (p : NodeParams) (n : Node) (r : Int) :
    n.status = .running ∧ n.crash p r =
      { n with
        status := .crashed
        statusReason := some .crashFault
        haltedRound := some r
        controlPlaneEventOutbox :=
          n.controlPlaneEventOutbox ++ [⟨.nodeCrashed,p.nodeId,none,none⟩] } ∨
    n.status ≠ .running ∧ n.crash p r = n := by
  unfold crash
  by_cases up : n.status = .running
  · exact Or.inl ⟨up,if_pos up⟩
  · exact Or.inr ⟨up,if_neg up⟩

def accepts (n : Node) (packet : Packet) : Prop :=
  n.status = .running ∧ n.membershipState = .active ∧ n.currentSoundSet.testBit packet.srcId = true ∧
  packet.runId = n.runId ∧ packet.roundId = n.currentRound

def accepted (n : Node) (packet : Packet) : Node :=
  { n with
    currentStage :=
      { n.currentStage with
        row := n.currentStage.row ||| bit packet.srcId
        proposals := n.currentStage.proposals.insert packet.srcId packet.payload }
    previousStage :=
      {n.previousStage with rows := n.previousStage.rows.insert packet.srcId packet.row} }

theorem receiveCases (n : Node) (packet : Packet) :
    n.accepts packet ∧ n.receive packet = n.accepted packet ∨
    ¬ n.accepts packet ∧ n.receive packet = n := by
  unfold receive accepts
  by_cases up : n.status = .running
  · by_cases active : n.membershipState = .active
    · by_cases heard : n.currentSoundSet.testBit packet.srcId = true
      · by_cases run : packet.runId = n.runId
        · by_cases now : packet.roundId = n.currentRound
          · exact Or.inl ⟨⟨up,active,heard,run,now⟩,by simp [up,active,heard,run,now,accepted]⟩
          · exact Or.inr ⟨fun all => now all.2.2.2.2,by simp [up,active,heard,run,now]⟩
        · exact Or.inr ⟨fun all => run all.2.2.2.1,by simp [up,active,heard,run]⟩
      · exact Or.inr ⟨fun all => heard all.2.2.1,by simp [up,active,heard]⟩
    · exact Or.inr ⟨fun all => active all.2.1,by simp [up,active]⟩
  · exact Or.inr ⟨fun all => up all.1,by simp [up]⟩

structure Undelivered (n n' : Node) : Prop where
  status : n'.status = n.status
  haltedRound : n'.haltedRound = n.haltedRound
  config : n'.config = n.config
  pending : n'.pendingConfig = n.pendingConfig
  state : n'.membershipState = n.membershipState
  sound : n'.currentSoundSet = n.currentSoundSet
  currentRound : n'.currentRound = n.currentRound
  mailbox : n'.pendingControlPlaneUpdate = n.pendingControlPlaneUpdate
  irq : n'.controlPlaneIrqPending = n.controlPlaneIrqPending
  outbox : n'.controlPlaneEventOutbox = n.controlPlaneEventOutbox
  row : n'.previousStage.row = n.previousStage.row

theorem undeliveredRefl (n : Node) : Undelivered n n := ⟨rfl,rfl,rfl,rfl,rfl,rfl,rfl,rfl,rfl,rfl,rfl⟩

theorem undeliveredTrans {m : Node} (h : Undelivered n m) (k : Undelivered m n') : Undelivered n n' :=
  ⟨k.status.trans h.status,k.haltedRound.trans h.haltedRound,k.config.trans h.config,
    k.pending.trans h.pending,k.state.trans h.state,k.sound.trans h.sound,
    k.currentRound.trans h.currentRound,k.mailbox.trans h.mailbox,k.irq.trans h.irq,
    k.outbox.trans h.outbox,k.row.trans h.row⟩

theorem receiveUndelivered (n : Node) (packet : Packet) : Undelivered n (n.receive packet) := by
  rcases receiveCases n packet with ⟨_,same⟩ | ⟨_,same⟩
  · rw [same]
    exact ⟨rfl,rfl,rfl,rfl,rfl,rfl,rfl,rfl,rfl,rfl,rfl⟩
  · rw [same]
    exact undeliveredRefl n

end Round

end Node
end Syncons
