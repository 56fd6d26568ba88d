import Syncons.Mirror

/-! The two-stage pipeline along a run. After its turn in round `r` a running ACTIVE
node collects round `r` and judges round `r - 1`, both under the installed config, and
every row it holds is the one its sender advertised. -/
namespace Syncons
open Dict (Map)
open Outcome Runs
open OnlineRejoinControlPlane (inState Coherent Listened)

namespace ClusterRun

variable {run : ClusterRun} {pt pt' : Point} {s s' : Cluster} {i k : Nat} {r : Int} {phase : Phase}
  {moves : List (Move Point Phase)} {n c n' : Node} {p : NodeParams} {result : NodeRoundResult}
  {shown : ControlPlaneState} {last : Option ControlPlaneUpdate} {rowOf : Nat → Nat} {packet : Packet}

structure Filled (run : ClusterRun) (n : Node) (r : Int) (stage : RoundStage) : Prop where
  round : stage.roundId = r
  epoch : stage.membershipEpoch = n.installedMembershipEpoch
  members : stage.installedMembership = n.installedMembership
  proposals : ∀ j v, stage.proposals.lookup j = some v → v = run.payloadFactory j r

structure Live (run : ClusterRun) (r : Int) (n : Node) : Prop where
  current : Filled run n r n.currentStage
  rows : n.currentStage.rows = ∅
  previous : n.previousStage.roundId < 0 ∨ Filled run n (r - 1) n.previousStage

-- No round has been collected since the last reset.
structure Fresh (n : Node) : Prop where
  current : n.currentStage.roundId < 0
  rows : n.currentStage.rows = ∅
  previous : n.previousStage.roundId < 0

def Pipelined (run : ClusterRun) (r : Int) (n : Node) : Prop := Fresh n ∨ Live run r n

def Rowed (rowOf : Nat → Nat) (n : Node) : Prop :=
  ∀ j x, n.previousStage.rows.lookup j = some x → x = rowOf j

def OwnRow (i : Nat) (n : Node) : Prop :=
  ∀ j x, n.previousStage.rows.lookup j = some x → j = i ∧ x = n.previousStage.row

def up (n : Node) : Prop := n.status = .running ∧ n.membershipState = .active

def rowsAt (s : Cluster) (j : Nat) : Nat := (s.nodes j).previousStage.row

structure Advertised (run : ClusterRun) (r : Int) (rowOf : Nat → Nat) (packet : Packet) : Prop where
  round : packet.roundId = r
  row : packet.row = rowOf packet.srcId
  payload : packet.payload = run.payloadFactory packet.srcId r

section Node

theorem blankFresh (blank : Node.Blank n) : Fresh n := by
  refine ⟨?_,?_,?_⟩
  · simp [blank.current,Node.blankStage]
  · simp [blank.current,Node.blankStage]
  · simp [blank.previous,Node.blankStage]

theorem filledSame {stage : RoundStage} (config : c.config = n.config) (h : Filled run n r stage) :
    Filled run c r stage := by
  simp only [Node.config,InstalledConfig.mk.injEq] at config
  exact ⟨h.round,h.epoch.trans config.1.symm,h.members.trans config.2.1.symm,h.proposals⟩

theorem liveSame (same : Node.SameStages n c) (config : c.config = n.config) (h : Live run r n) :
    Live run r c := by
  refine ⟨?_,by rw [same.current]; exact h.rows,?_⟩
  · rw [same.current]
    exact filledSame config h.current
  · rw [same.previous]
    exact h.previous.imp id (filledSame config)

theorem pipelinedSame (same : Node.SameStages n c) (config : c.config = n.config)
    (h : Pipelined run r n) : Pipelined run r c := by
  rcases h with fresh | live
  · exact Or.inl ⟨by rw [same.current]; exact fresh.current,by rw [same.current]; exact fresh.rows,
      by rw [same.previous]; exact fresh.previous⟩
  · exact Or.inr (liveSame same config live)

theorem tunedStages (pushed : Pushed r shown i last n) (active : inState shown i .active)
    (tuned : Tuned p shown i r n c) :
    Fresh c ∧ Rowed rowOf c ∨ up n ∧ Node.SameStages n c ∧ c.config = n.config := by
  rcases tuned.stages with blank | ⟨same,config,was⟩
  · refine Or.inl ⟨blankFresh blank,?_⟩
    intro j x held
    simp [blank.previous,Node.blankStage] at held
  · refine Or.inr ⟨⟨?_,was ((tunedState tuned).mpr active)⟩,same,config⟩
    by_contra down
    have older := pushed.dormant down active
    have equal : n.runId = shown.installedConfig.runId :=
      congrArg InstalledConfig.runId (config.symm.trans tuned.mirrors.1)
    omega

theorem tunedPipelined (pushed : Pushed r shown i last n) (active : inState shown i .active)
    (tuned : Tuned p shown i r n c) (before : up n → Pipelined run (r - 1) n ∧ Rowed rowOf n) :
    Pipelined run (r - 1) c ∧ Rowed rowOf c := by
  rcases tunedStages pushed active tuned with ⟨fresh,rowed⟩ | ⟨was,same,config⟩
  · exact ⟨Or.inl fresh,rowed⟩
  · obtain ⟨pipelined,rowed⟩ := before was
    refine ⟨pipelinedSame same config pipelined,?_⟩
    intro j x held
    rw [same.previous] at held
    exact rowed j x held

theorem crossedLive (crossed : Node.Crossed (run.params i) c r n' result)
    (before : Pipelined run (r - 1) c) : Live run r n' ∧ OwnRow i n' := by
  have config : n'.config = c.config := crossed.config
  have fields := config
  simp only [Node.config,InstalledConfig.mk.injEq] at fields
  have empty : c.currentStage.rows = ∅ := by
    rcases before with fresh | live
    · exact fresh.rows
    · exact live.rows
  refine ⟨⟨?_,by rw [crossed.current]; rfl,?_⟩,?_⟩
  · rw [crossed.current]
    refine ⟨rfl,fields.1.symm,fields.2.1.symm,?_⟩
    intro j v held
    have single := (Dict.lookupSingleton i j (run.payloadFactory i r)).symm.trans held
    split at single
    · rename_i own
      rw [← Option.some.inj single,own]
    · simp at single
  · rw [crossed.previous]
    rcases before with fresh | live
    · exact Or.inl fresh.current
    · have filled := filledSame config live.current
      exact Or.inr ⟨filled.round,filled.epoch,filled.members,filled.proposals⟩
  · intro j x held
    rw [crossed.previous,Node.filedStage] at held
    dsimp only at held
    rw [empty,Dict.lookupInsert] at held
    split at held
    · rename_i own
      refine ⟨own,?_⟩
      rw [crossed.previous]
      exact (Option.some.inj held).symm
    · simp at held

theorem crossedSends (crossed : Node.Crossed (run.params i) c r n' result) {sent : OutboundPacket}
    (member : sent ∈ result.outbound) :
    sent.packet.srcId = i ∧ sent.packet.roundId = r ∧ sent.packet.row = n'.previousStage.row ∧
    sent.packet.payload = run.payloadFactory i r := by
  have row : n'.previousStage.row = c.currentStage.row := by
    rw [crossed.previous]
    rfl
  have verdict := crossed.verdict
  cases verdict with
  | skip early status sound outbox =>
    cases Option.some.inj member
    exact ⟨rfl,rfl,row.symm,rfl⟩
  | halt round status sound record outbox => simp at member
  | commit judged status sound outbox =>
    cases Option.some.inj member
    exact ⟨rfl,rfl,row.symm,rfl⟩

theorem receiveLive (round : n.currentRound = r) (live : Live run r n) (rowed : Rowed rowOf n)
    (good : packet.roundId < r ∨ Advertised run r rowOf packet) :
    Live run r (n.receive packet) ∧ Rowed rowOf (n.receive packet) := by
  rcases Node.receiveCases n packet with ⟨accepts,same⟩ | ⟨_,same⟩
  · obtain ⟨_,_,_,_,now⟩ := accepts
    have advertised : Advertised run r rowOf packet := by
      rcases good with old | new
      · omega
      · exact new
    rw [same]
    refine ⟨⟨⟨live.current.round,live.current.epoch,live.current.members,?_⟩,live.rows,?_⟩,?_⟩
    · intro j v held
      change (n.currentStage.proposals.insert packet.srcId packet.payload).lookup j = some v at held
      rw [Dict.lookupInsert] at held
      split at held
      · rename_i own
        rw [← Option.some.inj held,advertised.payload,own]
      · exact live.current.proposals j v held
    · exact live.previous.imp id (fun filled =>
        ⟨filled.round,filled.epoch,filled.members,filled.proposals⟩)
    · intro j x held
      change (n.previousStage.rows.insert packet.srcId packet.row).lookup j = some x at held
      rw [Dict.lookupInsert] at held
      split at held
      · rename_i own
        rw [← Option.some.inj held,advertised.row,own]
      · exact rowed j x held
  · rw [same]
    exact ⟨live,rowed⟩

end Node

section Cluster

structure Opened (run : ClusterRun) (R : Nat) (s : Cluster) : Prop where
  nodes : ∀ i < run.nodeCount, up (s.nodes i) →
    Pipelined run (R - 1) (s.nodes i) ∧ Rowed (rowsAt s) (s.nodes i)
  flight : inFlight (fun _ packet => packet.roundId < R) s.scheduledDeliveries

-- In round `r`, with the turns of the nodes below `k` done; `rowOf` are the rows before them.
structure Collected (run : ClusterRun) (r k : Nat) (rowOf : Nat → Nat) (s : Cluster) : Prop where
  done : ∀ i < k, up (s.nodes i) →
    Live run r (s.nodes i) ∧ OwnRow i (s.nodes i) ∧ (s.nodes i).currentRound = r
  todo : ∀ i, k ≤ i → i < run.nodeCount → up (s.nodes i) →
    Pipelined run (r - 1) (s.nodes i) ∧ Rowed rowOf (s.nodes i)
  flight : inFlight (fun _ packet => packet.roundId < r ∨
    packet.srcId < k ∧ Advertised run r (rowsAt s) packet) s.scheduledDeliveries

def Staged (run : ClusterRun) (pt : Point) : Prop :=
  match pt.phase with
  | .control => Opened run pt.round pt.cluster
  | .turn k => ∃ rowOf, Collected run pt.round k rowOf pt.cluster
  | .network => ∃ rowOf, Collected run pt.round run.nodeCount rowOf pt.cluster

theorem stagedFrom {r : Nat} (bound : k ≤ run.nodeCount) (h : Collected run r k rowOf s) :
    Staged run ⟨r,run.turnFrom k,s⟩ := by
  unfold turnFrom
  split
  · exact ⟨rowOf,h⟩
  · have last : k = run.nodeCount := by omega
    subst last
    exact ⟨rowOf,h⟩

theorem pushedSame {state : ControlPlaneState} (one : PushedOne state i s s') :
    Node.SameStages (s.nodes i) (s'.nodes i) ∧ (s'.nodes i).config = (s.nodes i).config ∧
    (up (s'.nodes i) → up (s.nodes i)) ∧
    (s'.nodes i).previousStage = (s.nodes i).previousStage := by
  by_cases new : pushed state i s
  · rw [one.node new]
    exact ⟨⟨rfl,rfl⟩,rfl,id,rfl⟩
  · rw [(one.quiet new).1]
    exact ⟨⟨rfl,rfl⟩,rfl,id,rfl⟩

theorem controlStaged {r : Nat} {before : OnlineRejoinControlPlane} {state : ControlPlaneState}
    (boundary : Boundary run r s before state) (done : run.controlPhase r s = .ok s')
    (h : Opened run r s) : Collected run r 0 (rowsAt s) s' := by
  obtain ⟨mid,midState,shown,_,shape,_⟩ := controlMirrored boundary done
  obtain ⟨one,_,_,flight⟩ := pushAll shown {s with controlPlane := s'.controlPlane} run.nodeCount
  refine ⟨by simp,?_,?_⟩
  · intro i _ bound running
    have push := one i bound
    rw [shape] at running ⊢
    obtain ⟨same,config,was,previous⟩ := pushedSame push
    obtain ⟨pipelined,rowed⟩ := h.nodes i bound (was running)
    refine ⟨pipelinedSame same config pipelined,?_⟩
    intro j x held
    exact rowed j x (previous ▸ held)
  · rw [shape]
    intro round item member
    rw [show (run.pushControlPlaneUpdates shown _).scheduledDeliveries = _ from flight] at member
    exact Or.inl (h.flight round item member)

theorem turnStaged {r : Nat} {shown state : ControlPlaneState} (midround : Midround run r k shown s state)
    (bound : k < run.nodeCount) (done : run.nodeTurn r s k = .ok s') (h : Collected run r k rowOf s) :
    Collected run r (k + 1) rowOf s' := by
  obtain ⟨state',_,turned,turn,_⟩ := turnMirrored midround bound done
  have pushed := midround.todo k le_rfl bound
  have others : ∀ j, j ≠ k → rowsAt s' j = rowsAt s j := by
    intro j other
    rw [rowsAt,(turned.others j other).node]
    rfl
  have earlier : inFlight (fun _ packet => packet.roundId < r ∨
      packet.srcId < k + 1 ∧ Advertised run r (rowsAt s') packet) s.scheduledDeliveries := by
    intro round item member
    refine (h.flight round item member).imp id ?_
    rintro ⟨below,round',row,payload⟩
    exact ⟨by omega,round',by rw [others _ (by omega)]; exact row,payload⟩
  refine ⟨?_,?_,?_⟩
  · intro i below running
    by_cases own : i = k
    · subst i
      rw [turned.node] at running ⊢
      generalize run.advanced r k (s.nodes k) = out at turn running
      obtain ⟨n',result⟩ := out
      dsimp only at turn running ⊢
      cases turn with
      | down off was => simp [up,crashedNode] at running
      | idle spared inactive tuned =>
        have active := tuned.mirrors.2.2.symm.trans running.2
        exact absurd (builtActive.mp active) inactive
      | took spared active tuned crossed =>
        obtain ⟨pipelined,_⟩ := tunedPipelined pushed active tuned (h.todo k le_rfl bound)
        obtain ⟨live,own⟩ := crossedLive crossed pipelined
        have kept : Node.SameStages n' {n' with controlPlaneEventOutbox := []} := ⟨rfl,rfl⟩
        exact ⟨liveSame kept rfl live,own,crossed.currentRound.trans tuned.currentRound⟩
    · rw [(turned.others i own).node] at running ⊢
      exact h.done i (by omega) running
  · intro i above inside running
    rw [(turned.others i (by omega)).node] at running ⊢
    exact h.todo i (by omega) inside running
  · rw [turned.deliveries]
    have nodeIs := turned.node
    generalize run.advanced r k (s.nodes k) = out at turn nodeIs
    obtain ⟨n',result⟩ := out
    dsimp only at turn nodeIs ⊢
    cases turn with
    | down off was => exact earlier
    | idle spared inactive tuned => exact earlier
    | took spared active tuned crossed =>
      cases sent : result.outbound with
      | none => exact earlier
      | some outbound =>
        obtain ⟨source,round,row,payload⟩ := crossedSends crossed sent
        refine outboundInFlight earlier ?_
        intro _ _
        refine Or.inr ⟨by omega,round,?_,by rw [source]; exact payload⟩
        rw [source,rowsAt,nodeIs]
        exact row

theorem networkStaged {r : Nat} (faithful : Faithful run) (h : Collected run r run.nodeCount rowOf s) :
    Opened run (r + 1) (run.advanceNetwork r s) := by
  have same := networkUndelivered run r s
  have whole := @networkInvariant run s
    (fun _ packet => packet.roundId < r ∨ packet.srcId < run.nodeCount ∧ Advertised run r (rowsAt s) packet)
    (fun nodes => ∀ i < run.nodeCount, up (nodes i) →
      Live run r (nodes i) ∧ Rowed (rowsAt s) (nodes i) ∧ (nodes i).currentRound = r)
    r (copiedFaithful faithful _) ?_ ?_ h.flight
  · obtain ⟨nodes,flight⟩ := whole
    refine ⟨?_,?_⟩
    · intro i bound running
      obtain ⟨live,rowed,_⟩ := nodes i bound running
      have round : ((r + 1 : Nat) : Int) - 1 = r := by omega
      rw [round]
      refine ⟨Or.inr live,?_⟩
      intro j x held
      exact (rowed j x held).trans (same j).row.symm
    · intro round item member
      rcases flight round item member with old | ⟨_,now⟩
      · have : item.packet.roundId < r := old
        omega
      · have : item.packet.roundId = r := now.round
        omega
  · intro nodes dst packet before good i bound running
    by_cases own : i = dst
    · subst i
      rw [Function.update_self] at running ⊢
      have undelivered := Node.receiveUndelivered (nodes dst) packet
      have was : up (nodes dst) := by
        rw [up,← undelivered.status,← undelivered.state]
        exact running
      obtain ⟨live,rowed,round⟩ := before dst bound was
      obtain ⟨live',rowed'⟩ := receiveLive round live rowed (good.imp id (fun now => now.2))
      exact ⟨live',rowed',undelivered.currentRound.trans round⟩
    · rw [Function.update_of_ne own] at running ⊢
      exact before i bound running
  · intro i bound running
    obtain ⟨live,own,round⟩ := h.done i bound running
    refine ⟨live,?_,round⟩
    intro j x held
    obtain ⟨rfl,row⟩ := own j x held
    exact row

theorem initialStaged (run : ClusterRun) : Opened run 0 (Cluster.init run) := by
  refine ⟨?_,?_⟩
  · intro i _ _
    refine ⟨Or.inl ⟨by simp [Cluster.init,Node.init],rfl,by simp [Cluster.init,Node.init]⟩,?_⟩
    intro j x held
    simp [Cluster.init,Node.init] at held
  · intro round item member
    simp [Cluster.init,Dict.getD] at member

theorem ranStaged (faithful : Faithful run) (ran : Ran run.system moves pt) : Staged run pt := by
  induction ran with
  | start h =>
    cases h
    exact initialStaged run
  | move upTo h ih =>
    have mirrored := ranMirrored upTo
    cases stepCases h with
    | control done =>
      obtain ⟨cp,state,boundary⟩ := mirrored
      exact stagedFrom (Nat.zero_le _) (controlStaged boundary done ih)
    | turn done =>
      obtain ⟨bound,shown,state,midround⟩ := mirrored
      obtain ⟨rowOf,collected⟩ := ih
      exact stagedFrom bound (turnStaged midround bound done collected)
    | network =>
      obtain ⟨rowOf,collected⟩ := ih
      exact networkStaged faithful collected

end Cluster

end ClusterRun
end Syncons
