import Syncons.QuorumRule
import Syncons.Stages

/-! The reasons of a halt. A running ACTIVE node holds a proposal for every bit of its
row and has heard every row it judges from its sound set, so the only check of a
boundary that can fail is the first one. -/
namespace Syncons
open Dict (Map)
open Outcome Runs
open OnlineRejoinControlPlane (inState)

namespace Node

variable {p : NodeParams} {n c n' : Node} {r : Int} {i sound : Nat} {stage : RoundStage}
  {packet : Packet} {result : NodeRoundResult}

structure Backed (n : Node) (stage : RoundStage) : Prop where
  proposals : ∀ j, stage.row.testBit j = true ↔ (stage.proposals.lookup j).isSome = true
  members : stage.installedMembership = n.installedMembership

-- The pipeline of node `i` while the rows it hears come from the set `sound`.
structure Guarded (i sound : Nat) (n : Node) : Prop where
  current : 0 ≤ n.currentStage.roundId → Backed n n.currentStage
  previous : 0 ≤ n.previousStage.roundId → Backed n n.previousStage
  rows : n.currentStage.rows = ∅
  filed : 0 ≤ n.previousStage.roundId → memberRow n.previousStage i = n.previousStage.row
  heard : 0 ≤ n.previousStage.roundId → ∀ j, (n.previousStage.rows.lookup j).isSome = true →
    j = i ∨ sound.testBit j = true

def report (n : Node) : NodeStatus × Option StatusReason × Option HaltRecord :=
  (n.status,n.statusReason,n.haltDetails)

structure Excused (n : Node) : Prop where
  halted : n.status = .halted → ∃ record ∈ n.haltDetails, n.statusReason = some (.halt record.haltReason)
  reason : ∀ reason, n.statusReason = some (.halt reason) → reason = .noAgreedRow
  record : ∀ record ∈ n.haltDetails, record.haltReason = .noAgreedRow

structure EventExcused (event : NodeEvent) : Prop where
  halted : event.kind = .nodeHalted → event.haltRecord.isSome = true
  record : ∀ record ∈ event.haltRecord, record.haltReason = .noAgreedRow

section Report

theorem excusedSame (h : Excused n) (same : n'.report = n.report) : Excused n' := by
  simp only [report,Prod.mk.injEq] at same
  obtain ⟨status,reason,details⟩ := same
  refine ⟨?_,?_,?_⟩
  · rw [status,reason,details]
    exact h.halted
  · rw [reason]
    exact h.reason
  · rw [details]
    exact h.record

theorem excusedReboot (same : n'.report = (.running,some .rebootedUnderControlPlane,none)) :
    Excused n' := by
  simp only [report,Prod.mk.injEq] at same
  obtain ⟨status,reason,details⟩ := same
  refine ⟨?_,?_,?_⟩
  · simp [status]
  · simp [reason]
  · simp [details]

theorem excusedHalt {record : HaltRecord} (only : record.haltReason = .noAgreedRow)
    (same : n'.report = (.halted,some (.halt record.haltReason),some record)) : Excused n' := by
  simp only [report,Prod.mk.injEq] at same
  obtain ⟨status,reason,details⟩ := same
  refine ⟨fun _ => ⟨record,details,reason⟩,?_,?_⟩
  · intro other held
    rw [reason] at held
    cases held
    exact only
  · intro other held
    rw [details] at held
    cases held
    exact only

theorem activateReport (n : Node) (r : Int) : (n.activatePendingConfigIfDue r).report = n.report := by
  unfold activatePendingConfigIfDue
  split
  · rfl
  · rfl

theorem rebootReport (n : Node) (s : MembershipState) :
    (n.rebootIfAuthorized s).report = n.report ∨
    (n.rebootIfAuthorized s).report = (.running,some .rebootedUnderControlPlane,none) := by
  unfold rebootIfAuthorized
  split
  · exact Or.inr rfl
  · exact Or.inl rfl

theorem applyReport (p : NodeParams) (n : Node) (u : ControlPlaneUpdate) :
    (n.applyControlPlaneUpdate p u).report = n.report ∨
    (n.applyControlPlaneUpdate p u).report = (.running,some .rebootedUnderControlPlane,none) := by
  have rebooted := rebootReport
    { n with
      installedMembershipEpoch := u.installedConfig.membershipEpoch
      installedMembership := u.installedConfig.membersBitmap
      currentSoundSet := u.installedConfig.membersBitmap
      runId := u.installedConfig.runId
      pendingConfig := u.pendingConfig
      membershipState := u.membershipState } u.membershipState
  unfold applyControlPlaneUpdate
  dsimp only
  generalize rebootIfAuthorized _ _ = m at rebooted ⊢
  obtain ⟨frontier,lineage,digest,repaired⟩ := repairedSame p m u.repairLog
  rw [repaired]
  split
  · exact rebooted
  · exact rebooted

theorem configureReport (p : NodeParams) (n : Node) (r : Int) :
    (n.configured p r).report = n.report ∨
    (n.configured p r).report = (.running,some .rebootedUnderControlPlane,none) := by
  have activated := activateReport {n with currentRound := r} r
  have same : report {n with currentRound := r} = n.report := rfl
  unfold configured configure
  generalize {n with currentRound := r}.activatePendingConfigIfDue r = m at activated
  unfold pullControlPlaneUpdate
  split
  · rename_i u _ _
    rw [acknowledgeSame]
    have applied := applyReport p {m with pendingControlPlaneUpdate := none, controlPlaneIrqPending := false} u
    rw [show report {m with pendingControlPlaneUpdate := none, controlPlaneIrqPending := false} = n.report
      from activated.trans same] at applied
    exact applied
  · exact Or.inl (activated.trans same)

theorem refusedSame {reason : HaltReason} (h : Refused p n' stage reason)
    (same : n'.currentSoundSet = n.currentSoundSet) : Refused p n stage reason := by
  cases h with
  | rows split => exact .rows split
  | proposals agreed missing => exact .proposals agreed missing
  | sound agreed proposed outside =>
    refine .sound agreed proposed ?_
    rw [Sounded,← same]
    exact outside

theorem refusedRows {reason : HaltReason} (h : Refused p n stage reason)
    (commits : Agreed p stage → Proposed p stage ∧ Sounded p n stage) : reason = .noAgreedRow := by
  cases h with
  | rows split => rfl
  | proposals agreed missing => exact absurd (commits agreed).1 missing
  | sound agreed proposed outside => exact absurd (commits agreed).2 outside

/- A boundary leaves the report and the outbox as they are, or halts with a record of
the stage it judged. -/
theorem crossReport (p : NodeParams) (n : Node) (r : Int) :
    (n.crossBoundary p r).1.report = n.report ∧
      (n.crossBoundary p r).1.controlPlaneEventOutbox = n.controlPlaneEventOutbox ∨
    ∃ record, 0 ≤ n.previousStage.roundId ∧ Refused p n n.previousStage record.haltReason ∧
      (n.crossBoundary p r).1.report = (.halted,some (.halt record.haltReason),some record) ∧
      (n.crossBoundary p r).1.controlPlaneEventOutbox =
        n.controlPlaneEventOutbox ++ [⟨.nodeHalted,p.nodeId,none,some record⟩] := by
  have report : (n.crossBoundary p r).1.report = (evaluateRoundBoundary p
      {n with previousStage := n.currentStage} (some n.previousStage)).node.report := by
    unfold crossBoundary
    dsimp only
    split
    · rfl
    · rfl
  have outbox : (n.crossBoundary p r).1.controlPlaneEventOutbox = (evaluateRoundBoundary p
      {n with previousStage := n.currentStage} (some n.previousStage)).node.controlPlaneEventOutbox := by
    unfold crossBoundary
    dsimp only
    split
    · rfl
    · rfl
  rw [report,outbox]
  by_cases late : 0 ≤ n.previousStage.roundId
  · rcases boundaryCases p {n with previousStage := n.currentStage} late with
      ⟨_,commits⟩ | ⟨_,halts⟩
    · left
      generalize evaluateRoundBoundary p _ _ = e at commits
      cases commits
      exact ⟨rfl,rfl⟩
    · right
      generalize evaluateRoundBoundary p _ _ = e at halts
      cases halts with
      | @entry record describes =>
        exact ⟨record,late,refusedSame describes.reason rfl,rfl,rfl⟩
  · left
    have skipped : evaluateRoundBoundary p {n with previousStage := n.currentStage}
        (some n.previousStage) = ⟨{n with previousStage := n.currentStage},.skip,none,[]⟩ := by
      simp only [evaluateRoundBoundary,Option.getD_some,if_pos (show n.previousStage.roundId < 0 by omega)]
    rw [skipped]
    exact ⟨rfl,rfl⟩

end Report

section Pipeline

theorem backedSame (config : c.config = n.config) (h : Backed n stage) : Backed c stage := by
  have members : c.installedMembership = n.installedMembership :=
    congrArg InstalledConfig.membersBitmap config
  exact ⟨h.proposals,h.members.trans members.symm⟩

theorem guardedSame (same : SameStages n c) (config : c.config = n.config) (h : Guarded i sound n) :
    Guarded i sound c := by
  obtain ⟨current,previous⟩ := same
  refine ⟨?_,?_,?_,?_,?_⟩
  · rw [current]
    exact fun late => backedSame config (h.current late)
  · rw [previous]
    exact fun late => backedSame config (h.previous late)
  · rw [current]
    exact h.rows
  · rw [previous]
    exact h.filed
  · rw [previous]
    exact h.heard

/- What a node judges it can commit, once a quorum agrees: its row names proposals that
it holds, and the rows that match come from the sound set or from all members. -/
theorem guardedCommits (h : Guarded p.nodeId sound n) (late : 0 ≤ n.previousStage.roundId)
    (self : n.currentSoundSet.testBit p.nodeId = true)
    (force : n.currentSoundSet = n.installedMembership ∨ n.currentSoundSet = sound)
    (agreed : Agreed p n.previousStage) :
    Proposed p n.previousStage ∧ Sounded p n n.previousStage := by
  have own : localRow p n.previousStage = n.previousStage.row := by
    have installed := (Finset.mem_filter.mp (selfMatches agreed)).2
    rw [← installed.2]
    exact h.filed late
  refine ⟨?_,?_⟩
  · intro j _ named
    rw [own] at named
    exact ((h.previous late).proposals j).mp named
  · intro j member
    obtain ⟨_,installed,row⟩ := Finset.mem_filter.mp member
    have told : (n.previousStage.rows.lookup j).isSome = true := by
      cases held : n.previousStage.rows.lookup j with
      | none =>
        have silent : memberRow n.previousStage j = 0 := by
          rw [memberRow,Dict.getD,held]
          rfl
        exact absurd (row.symm.trans silent) agreed.spoken
      | some row => rfl
    rcases h.heard late j told with same | heard
    · rw [same]
      exact self
    · rcases force with whole | kept
      · rw [whole,← (h.previous late).members]
        exact installed
      · rw [kept]
        exact heard

theorem newStageBacked (p : NodeParams) (n : Node) (r : Int) : Backed n (n.newCurrentStage p r) := by
  refine ⟨?_,rfl⟩
  intro j
  change (bit p.nodeId).testBit j = true ↔
    ((Finmap.singleton p.nodeId (p.payloadFactory p.nodeId r) : Map Nat String).lookup j).isSome = true
  rw [testBitBit,Dict.lookupSingleton,decide_eq_true_eq]
  by_cases own : j = p.nodeId
  · simp [own]
  · simp [own,Ne.symm own]

theorem crossGuarded (crossed : Crossed p c r n' result) (h : Guarded p.nodeId sound c) :
    Guarded p.nodeId n'.currentSoundSet n' := by
  have config := crossed.config
  refine ⟨?_,?_,?_,?_,?_⟩
  · rw [crossed.current]
    exact fun _ => backedSame config (newStageBacked p c r)
  · rw [crossed.previous]
    intro late
    have backed := backedSame config (h.current late)
    exact ⟨backed.proposals,backed.members⟩
  · rw [crossed.current]
    rfl
  · rw [crossed.previous]
    intro _
    rw [memberRow,filedStage,Dict.getD,Dict.lookupInsert,if_pos rfl]
    rfl
  · rw [crossed.previous]
    intro _ j held
    rw [filedStage,Dict.lookupInsert,h.rows] at held
    by_cases own : j = p.nodeId
    · exact Or.inl own
    · simp [own] at held

theorem receiveGuarded (h : Guarded i n.currentSoundSet n) (foreign : packet.srcId ≠ i) :
    Guarded i (n.receive packet).currentSoundSet (n.receive packet) := by
  rcases receiveCases n packet with ⟨accepts,same⟩ | ⟨_,same⟩
  · rw [same]
    refine ⟨?_,?_,h.rows,?_,?_⟩
    · intro late
      have backed := h.current late
      refine ⟨?_,backed.members⟩
      intro j
      change (n.currentStage.row ||| bit packet.srcId).testBit j = true ↔
        ((n.currentStage.proposals.insert packet.srcId packet.payload).lookup j).isSome = true
      rw [Nat.testBit_or,testBitBit,Dict.lookupInsert,Bool.or_eq_true,backed.proposals,decide_eq_true_eq]
      by_cases source : j = packet.srcId
      · simp [source]
      · simp [source,Ne.symm source]
    · intro late
      have backed := h.previous late
      exact ⟨backed.proposals,backed.members⟩
    · intro late
      change ((n.previousStage.rows.insert packet.srcId packet.row).lookup i).getD 0 = _
      rw [Dict.lookupInsert,if_neg (Ne.symm foreign)]
      exact h.filed late
    · intro late j held
      change ((n.previousStage.rows.insert packet.srcId packet.row).lookup j).isSome = true at held
      rw [Dict.lookupInsert] at held
      by_cases source : j = packet.srcId
      · rw [source]
        exact Or.inr accepts.2.2.1
      · rw [if_neg source] at held
        exact h.heard late j held
  · rw [same]
    exact h

end Pipeline

end Node

namespace ClusterRun

variable {run : ClusterRun} {pt : Point} {s s' : Cluster} {i k r : Nat}
  {moves : List (Move Point Phase)} {n c : Node} {shown : ControlPlaneState}
  {last : Option ControlPlaneUpdate}

structure HaltsForRows (run : ClusterRun) (s : Cluster) : Prop where
  nodes : ∀ i < run.nodeCount, (s.nodes i).Excused
  events : ∀ event ∈ s.controlPlaneEvents, Node.EventExcused event.toNodeEvent

structure Shielded (run : ClusterRun) (s : Cluster) : Prop where
  guarded : ∀ i < run.nodeCount, up (s.nodes i) →
    Node.Guarded i (s.nodes i).currentSoundSet (s.nodes i)
  halts : HaltsForRows run s
  flight : inFlight (fun dst packet => packet.srcId ≠ dst) s.scheduledDeliveries

theorem tunedGuarded {p : NodeParams} {r : Int} (pushed : Pushed r shown i last n)
    (active : inState shown i .active) (tuned : Tuned p shown i r n c)
    (before : up n → Node.Guarded i n.currentSoundSet n) : Node.Guarded i n.currentSoundSet c := by
  have stages : Fresh c ∧ Rowed (fun _ => 0) c ∨ up n ∧ Node.SameStages n c ∧ c.config = n.config :=
    tunedStages pushed active tuned
  rcases stages with ⟨fresh,_⟩ | ⟨was,same,config⟩
  · have early := fresh.current
    have late := fresh.previous
    exact ⟨fun h => by omega,fun h => by omega,fresh.rows,fun h => by omega,fun h => by omega⟩
  · exact Node.guardedSame same config (before was)

theorem ackExcused {p : NodeParams} {held next : Option PendingConfig} :
    ∀ event ∈ Node.ackDue p held next, Node.EventExcused event := by
  intro event member
  unfold Node.ackDue at member
  split at member
  · cases member
  · split at member
    · rw [List.mem_singleton.mp member]
      exact ⟨by simp [Node.prepareAckEvent],by simp [Node.prepareAckEvent]⟩
    · cases member

structure TurnExcused (i : Nat) (n : Node) : Prop where
  guarded : up n → Node.Guarded i n.currentSoundSet n
  node : n.Excused
  events : ∀ event ∈ n.controlPlaneEventOutbox, Node.EventExcused event

theorem turnExcused (pushed : Pushed r shown i last n) (ready : Shown r shown)
    (before : up n → Node.Guarded i n.currentSoundSet n) (excused : n.Excused) :
    TurnExcused i (run.advanced r i n).1 := by
  have tuned := configuredTuned (run.params i) pushed ready
  have acks : ∀ event ∈ (n.configured (run.params i) r).controlPlaneEventOutbox,
      Node.EventExcused event := by
    rw [tuned.outbox]
    exact ackExcused
  have configured : (n.configured (run.params i) r).Excused := by
    rcases Node.configureReport (run.params i) n r with same | rebooted
    · exact Node.excusedSame excused same
    · exact Node.excusedReboot rebooted
  rcases advancedCases run (standingAwake pushed.standing) with
    ⟨_,_,done⟩ | ⟨_,out,done⟩ | ⟨_,joined,done⟩
  · rw [done]
    refine ⟨?_,⟨?_,?_,excused.record⟩,?_⟩
    · intro running
      simp [up,crashedNode] at running
    · simp [crashedNode]
    · simp [crashedNode]
    · intro event member
      have inside : event ∈ n.controlPlaneEventOutbox ++ [⟨.nodeCrashed,i,none,none⟩] := member
      rw [pushed.standing.outbox,List.nil_append] at inside
      rw [List.mem_singleton.mp inside]
      refine ⟨?_,?_⟩
      · intro halted
        cases halted
      · intro record held
        cases held
  · rw [done]
    refine ⟨?_,configured,acks⟩
    intro running
    have active := (tunedState tuned).mp running.2
    exact absurd ⟨running.1,running.2,tuned.sound active⟩ out
  · rw [done]
    have active := (tunedState tuned).mp joined.2.1
    have guarded := tunedGuarded pushed active tuned before
    have crossed := Node.crossBoundaryFacts (run.params i) (n.configured (run.params i) r) r
    have after : Node.Guarded i _ _ := @Node.crossGuarded (run.params i) _ _ _ _ _ crossed guarded
    rcases Node.crossReport (run.params i) (n.configured (run.params i) r) r with
      ⟨report,outbox⟩ | ⟨record,late,refused,report,outbox⟩
    · refine ⟨fun _ => after,Node.excusedSame configured report,?_⟩
      rw [outbox]
      exact acks
    · have only : record.haltReason = .noAgreedRow := Node.refusedRows refused
        (@Node.guardedCommits (run.params i) _ _ guarded late joined.2.2 tuned.soundSet)
      refine ⟨fun _ => after,Node.excusedHalt only report,?_⟩
      intro event member
      rw [outbox] at member
      rcases List.mem_append.mp member with old | new
      · exact acks event old
      · rw [List.mem_singleton.mp new]
        exact ⟨fun _ => rfl,fun other held => by cases held; exact only⟩

theorem submittedEvents {events : List ControlPlaneEvent}
    (done : events.foldlM submitControlPlaneEvent s = .ok s') :
    s'.controlPlaneEvents = s.controlPlaneEvents ++ events := by
  induction events generalizing s with
  | nil =>
    cases done
    simp
  | cons event rest ih =>
    rw [List.foldlM_cons] at done
    obtain ⟨mid,first,others⟩ := bindOk.mp done
    obtain ⟨cp,_,same⟩ := bindOk.mp first
    cases same
    rw [ih others]
    simp

theorem turnLogs (done : run.nodeTurn r s i = .ok s') :
    s'.controlPlaneEvents = s.controlPlaneEvents ++ run.turnEvents r i (s.nodes i) := by
  unfold nodeTurn at done
  cases out : run.advanced r i (s.nodes i) with
  | mk node result =>
    simp only [out,Node.pullControlPlaneEvents] at done
    obtain ⟨told,submitted,rest⟩ := bindOk.mp done
    have logged := submittedEvents submitted
    rw [turnEvents,out]
    split at rest
    · cases rest
      exact logged
    · cases rest
      exact logged

theorem turnShielded {state : ControlPlaneState} (midround : Midround run r k shown s state)
    (bound : k < run.nodeCount) (done : run.nodeTurn r s k = .ok s') (h : Shielded run s) :
    Shielded run s' := by
  have turned := turnFacts done
  have turn := @turnExcused run k r _ _ _ (midround.todo k le_rfl bound) midround.ready
    (h.guarded k bound) (h.halts.nodes k bound)
  refine ⟨?_,⟨?_,?_⟩,?_⟩
  · intro i inside running
    by_cases own : i = k
    · subst i
      rw [turned.node] at running ⊢
      have same : Node.SameStages (run.advanced r k (s.nodes k)).1
          {(run.advanced r k (s.nodes k)).1 with controlPlaneEventOutbox := []} := ⟨rfl,rfl⟩
      exact Node.guardedSame same rfl (turn.guarded running)
    · rw [(turned.others i own).node] at running ⊢
      exact h.guarded i inside running
  · intro i inside
    by_cases own : i = k
    · subst i
      rw [turned.node]
      exact Node.excusedSame turn.node rfl
    · rw [(turned.others i own).node]
      exact h.halts.nodes i inside
  · intro event member
    rw [turnLogs done] at member
    rcases List.mem_append.mp member with old | new
    · exact h.halts.events event old
    · obtain ⟨raw,inside,same⟩ := List.mem_map.mp new
      rw [← same]
      exact turn.events raw inside
  · rw [turned.deliveries]
    cases sent : (run.advanced r k (s.nodes k)).2.outbound with
    | none => exact h.flight
    | some outbound =>
      refine outboundInFlight h.flight ?_
      intro dst member
      obtain ⟨c,same⟩ := advancedBroadcast sent
      rw [same] at member ⊢
      exact Ne.symm (Node.broadcastOthers _ _ _ dst member)

theorem networkShielded (h : Shielded run s) : Shielded run (run.advanceNetwork r s) := by
  have copies : copied run (fun dst packet => packet.srcId ≠ dst) := fun _ _ good => ⟨good,fun _ _ => good⟩
  have whole := @networkInvariant run s (fun dst packet => packet.srcId ≠ dst)
    (fun nodes => ∀ i < run.nodeCount,
      (up (nodes i) → Node.Guarded i (nodes i).currentSoundSet (nodes i)) ∧ (nodes i).Excused)
    r copies ?_ (fun i inside => ⟨h.guarded i inside,h.halts.nodes i inside⟩) h.flight
  · obtain ⟨nodes,flight⟩ := whole
    exact ⟨fun i inside => (nodes i inside).1,⟨fun i inside => (nodes i inside).2,h.halts.events⟩,flight⟩
  · intro nodes dst packet before foreign i inside
    by_cases own : i = dst
    · subst i
      rw [Function.update_self]
      obtain ⟨guarded,excused⟩ := before dst inside
      have same := Node.receiveUndelivered (nodes dst) packet
      refine ⟨?_,?_⟩
      · intro running
        rw [up,same.status,same.state] at running
        exact Node.receiveGuarded (guarded running) foreign
      · rcases Node.receiveCases (nodes dst) packet with ⟨_,received⟩ | ⟨_,received⟩
        · rw [received]
          exact Node.excusedSame excused rfl
        · rw [received]
          exact excused
    · rw [Function.update_of_ne own]
      exact before i inside

theorem controlShielded {before : OnlineRejoinControlPlane} {state : ControlPlaneState}
    (boundary : Boundary run r s before state) (done : run.controlPhase r s = .ok s')
    (h : Shielded run s) : Shielded run s' := by
  obtain ⟨_,_,shown,_,shape,_⟩ := controlMirrored boundary done
  obtain ⟨one,_,_,flight⟩ := pushAll shown {s with controlPlane := s'.controlPlane} run.nodeCount
  have events : s'.controlPlaneEvents = s.controlPlaneEvents := by
    rw [shape]
    unfold pushControlPlaneUpdates
    refine List.foldlRecOn (motive := fun t : Cluster => t.controlPlaneEvents = s.controlPlaneEvents) _ _ rfl ?_
    intro t same i _
    unfold pushControlPlaneUpdate
    dsimp only
    split
    · exact same
    · exact same
  have flight' : s'.scheduledDeliveries = s.scheduledDeliveries := by
    rw [shape]
    exact flight
  have node : ∀ i < run.nodeCount, s'.nodes i = s.nodes i ∨
      ∃ u, s'.nodes i = (s.nodes i).pushControlPlaneUpdate u := by
    intro i inside
    rw [shape]
    have push := one i inside
    by_cases new : pushed shown i {s with controlPlane := s'.controlPlane}
    · exact Or.inr ⟨_,push.node new⟩
    · exact Or.inl (push.quiet new).1
  refine ⟨?_,⟨?_,?_⟩,?_⟩
  · intro i inside running
    rcases node i inside with same | ⟨u,same⟩
    · rw [same] at running ⊢
      exact h.guarded i inside running
    · rw [same] at running ⊢
      have stages : Node.SameStages (s.nodes i) ((s.nodes i).pushControlPlaneUpdate u) := ⟨rfl,rfl⟩
      exact Node.guardedSame stages rfl (h.guarded i inside running)
  · intro i inside
    rcases node i inside with same | ⟨u,same⟩
    · rw [same]
      exact h.halts.nodes i inside
    · rw [same]
      exact Node.excusedSame (h.halts.nodes i inside) rfl
  · rw [events]
    exact h.halts.events
  · rw [flight']
    exact h.flight

theorem initialShielded (run : ClusterRun) : Shielded run (Cluster.init run) := by
  refine ⟨?_,⟨?_,by simp [Cluster.init]⟩,by simp [inFlight,Cluster.init,Dict.getD]⟩
  · intro i _ _
    have unstarted : ¬ (0 : Int) ≤ -1 := by decide
    exact ⟨fun h => absurd h unstarted,fun h => absurd h unstarted,rfl,fun h => absurd h unstarted,
      fun h => absurd h unstarted⟩
  · intro i _
    refine ⟨?_,?_,?_⟩
    · intro halted
      cases halted
    · intro reason held
      cases held
    · intro record held
      cases held

theorem ranShielded (ran : Ran run.system moves pt) : Shielded run pt.cluster := by
  induction ran with
  | start h =>
    cases h
    exact initialShielded run
  | move upTo h ih =>
    have mirrored := ranMirrored upTo
    cases stepCases h with
    | control done =>
      obtain ⟨cp,state,boundary⟩ := mirrored
      exact controlShielded boundary done ih
    | turn done =>
      obtain ⟨bound,shown,state,midround⟩ := mirrored
      exact turnShielded midround bound done ih
    | network => exact networkShielded ih

theorem haltsForRowsOnly (ran : Ran run.system moves pt) : HaltsForRows run pt.cluster :=
  (ranShielded ran).halts

def deafCluster : ClusterRun :=
  { nodeCount := 3
    rounds := 4
    timing := ⟨1,0,0,0,3,0,0,0⟩
    payloadFactory := fun _ _ => ""
    networkFaultModel := fun _ _ => {deliverRound := none}
    nodeFaultModel := fun _ _ => true
    hash := ⟨fun _ => "",fun _ _ => ""⟩ }

theorem haltsForRowsOnce :
    ∃ moves pt, Ran deafCluster.system moves pt ∧ (pt.cluster.nodes 0).status = .halted ∧
      HaltsForRows deafCluster pt.cluster := by
  have value : (deafCluster.walk 3).toOption.map
      (fun result => (result.2.cluster.nodes 0).status) = some .halted := by decide +kernel
  obtain ⟨moves,pt,ran,found⟩ := walkFound value
  exact ⟨moves,pt,ran,found,haltsForRowsOnly ran⟩

end ClusterRun
end Syncons
