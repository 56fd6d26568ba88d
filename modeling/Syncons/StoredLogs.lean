import Syncons.Repair

/-! A node's digest and frontier against its stored history. The push of a repair log
overwrites the history at once, and the node installs the log when it pulls its mailbox,
which a crash in that round skips. -/
namespace Syncons
open Outcome Runs

namespace Node

variable {p : NodeParams} {n n' : Node} {r : Int} {history : List CommittedRoundRecord}
  {u : ControlPlaneUpdate} {log : RepairLog}

def mirrorsLog (p : NodeParams) (n : Node) (history : List CommittedRoundRecord) : Prop :=
  n.commitDigest = digestForCommittedRounds p.hash history ∧
  n.committedFrontier = (history.getLast?.map (fun entry => entry.round)).getD (-1)
instance (p : NodeParams) (n : Node) (history : List CommittedRoundRecord) :
    Decidable (n.mirrorsLog p history) := by unfold mirrorsLog; infer_instance

structure SameLog (n n' : Node) : Prop where
  digest : n'.commitDigest = n.commitDigest
  frontier : n'.committedFrontier = n.committedFrontier

theorem sameLogTrans {m : Node} (h : SameLog n m) (k : SameLog m n') : SameLog n n' :=
  ⟨k.digest.trans h.digest,k.frontier.trans h.frontier⟩

theorem sameLogMirrors (same : SameLog n n') : n'.mirrorsLog p history ↔ n.mirrorsLog p history := by
  unfold mirrorsLog
  rw [same.digest,same.frontier]

theorem shouldInstallIff : n.shouldInstallRepairLog p log = false ↔ n.mirrorsLog p log.entries := by
  unfold shouldInstallRepairLog mirrorsLog
  dsimp only
  split
  · rename_i other
    exact ⟨nofun,fun both => absurd both.2.symm other⟩
  · rename_i same
    rw [bne_eq_false_iff_eq]
    exact ⟨fun digest => ⟨digest.symm,(not_not.mp same).symm⟩,fun both => both.1.symm⟩

section Install

theorem installMirrors (some : log.entries ≠ []) : (n.installRepairLog p log).mirrorsLog p log.entries := by
  unfold installRepairLog
  cases last : log.entries.getLast? with
  | none => exact absurd (List.getLast?_eq_none_iff.mp last) some
  | some entry => exact ⟨rfl,by rw [last]; rfl⟩

theorem installIfNewMirrors (some : log.entries ≠ []) :
    (n.installRepairLogIfNew p (Option.some log)).mirrorsLog p log.entries := by
  simp only [installRepairLogIfNew]
  split
  · exact installMirrors some
  · rename_i kept
    exact shouldInstallIff.mp (Bool.eq_false_iff.mpr kept)

theorem activateLog (n : Node) (r : Int) : SameLog n (n.activatePendingConfigIfDue r) := by
  unfold activatePendingConfigIfDue
  split
  · exact ⟨rfl,rfl⟩
  · exact ⟨rfl,rfl⟩

theorem rebootLog (n : Node) (s : MembershipState) : SameLog n (n.rebootIfAuthorized s) := by
  unfold rebootIfAuthorized
  split
  · exact ⟨rfl,rfl⟩
  · exact ⟨rfl,rfl⟩

theorem applyLog (p : NodeParams) (n : Node) (u : ControlPlaneUpdate) :
    ∃ m, SameLog n m ∧ SameLog (m.installRepairLogIfNew p u.repairLog) (n.applyControlPlaneUpdate p u) := by
  have reboot := rebootLog
    { n with
      installedMembershipEpoch := u.installedConfig.membershipEpoch
      installedMembership := u.installedConfig.membersBitmap
      currentSoundSet := u.installedConfig.membersBitmap
      runId := u.installedConfig.runId
      pendingConfig := u.pendingConfig
      membershipState := u.membershipState } u.membershipState
  simp only [applyControlPlaneUpdate]
  generalize rebootIfAuthorized _ u.membershipState = m at reboot
  refine ⟨m,⟨reboot.digest,reboot.frontier⟩,?_⟩
  split
  · exact ⟨rfl,rfl⟩
  · exact ⟨rfl,rfl⟩

theorem appliedUnlogged (none : u.repairLog = none) : SameLog n (n.applyControlPlaneUpdate p u) := by
  obtain ⟨m,before,after⟩ := applyLog p n u
  rw [none] at after
  exact sameLogTrans before after

theorem appliedLogged (some : u.repairLog = some log) (full : log.entries ≠ []) :
    (n.applyControlPlaneUpdate p u).mirrorsLog p log.entries := by
  obtain ⟨m,_,after⟩ := applyLog p n u
  rw [some] at after
  exact (sameLogMirrors after).mpr (installIfNewMirrors full)

end Install

def Logged (n : Node) (history : List CommittedRoundRecord) : Prop :=
  ∀ u ∈ n.pendingControlPlaneUpdate, ∀ log ∈ u.repairLog, log.entries = history ∧ log.entries ≠ []

def handedLog (n : Node) : Prop := ∃ u ∈ n.pendingControlPlaneUpdate, u.repairLog.isSome

theorem pullMirrors (wired : n.Wired) (logged : n.Logged history)
    (held : n.mirrorsLog p history ∨ n.handedLog) : (n.pullControlPlaneUpdate p).mirrorsLog p history := by
  cases mailbox : n.pendingControlPlaneUpdate with
  | none =>
    rw [pullEmpty p mailbox]
    rcases held with mirrors | ⟨u,full,_⟩
    · exact mirrors
    · simp [mailbox] at full
  | some u =>
    have irq : n.controlPlaneIrqPending = true := by
      rw [wired,mailbox]
      rfl
    have shape : n.pullControlPlaneUpdate p =
        ({n with pendingControlPlaneUpdate := none, controlPlaneIrqPending := false}.applyControlPlaneUpdate
          p u).acknowledge p n.pendingConfig := by
      unfold pullControlPlaneUpdate
      simp only [irq,mailbox]
    rw [shape,acknowledgeSame]
    cases carried : u.repairLog with
    | none =>
      rcases held with mirrors | ⟨other,full,some⟩
      · have same := @appliedUnlogged p
          {n with pendingControlPlaneUpdate := none, controlPlaneIrqPending := false} u carried
        exact (sameLogMirrors ⟨same.digest,same.frontier⟩).mpr mirrors
      · cases Option.some.inj (mailbox.symm.trans full)
        simp [carried] at some
    | some log =>
      obtain ⟨same,full⟩ := logged u mailbox log carried
      rw [← same]
      exact appliedLogged carried full

theorem configuredMirrors (wired : n.Wired) (logged : n.Logged history)
    (held : n.mirrorsLog p history ∨ n.handedLog) : (n.configured p r).mirrorsLog p history := by
  have activated := activateLog {n with currentRound := r} r
  have mailbox : ({n with currentRound := r}.activatePendingConfigIfDue r).pendingControlPlaneUpdate =
      n.pendingControlPlaneUpdate ∧
      ({n with currentRound := r}.activatePendingConfigIfDue r).controlPlaneIrqPending =
        n.controlPlaneIrqPending := by
    cases due : {n with currentRound := r}.pendingDue r with
    | none =>
      rw [activateQuiet due]
      exact ⟨rfl,rfl⟩
    | some pending => exact ⟨(activateDue due).mailbox,(activateDue due).irq⟩
  rw [configured,configure]
  generalize {n with currentRound := r}.activatePendingConfigIfDue r = m at activated mailbox
  refine pullMirrors ?_ ?_ ?_
  · rw [Wired,mailbox.1,mailbox.2]
    exact wired
  · unfold Logged
    rw [mailbox.1]
    exact logged
  · unfold handedLog
    rw [mailbox.1]
    exact held.imp (sameLogMirrors ⟨activated.digest,activated.frontier⟩).mpr id

end Node

namespace ClusterRun

variable {run : ClusterRun} {pt pt' : Point} {s s' : Cluster} {r k i : Nat} {phase : Phase}
  {moves : List (Move Point Phase)} {m : Move Point Phase} {n : Node}
  {history : List CommittedRoundRecord} {last : Option ControlPlaneUpdate} {bound : Int}

theorem timedCommitted (run : ClusterRun) (r : Int) (hash : LogHash) (history : List CommittedRoundRecord)
    (commit : CommittedRound) :
    Node.digestForCommittedRounds hash (history ++ run.timedEntries r [commit]) =
      Node.extendLogDigest hash (Node.digestForCommittedRounds hash history) commit := by
  simp only [Node.digestForCommittedRounds,timedEntries,List.map_cons,List.map_nil,List.foldl_append,
    List.foldl_cons,List.foldl_nil]
  rfl

theorem crossMirrors {p : NodeParams} (run : ClusterRun) (r : Int) (mirrors : n.mirrorsLog p history) :
    (n.crossBoundary p r).1.mirrorsLog p (history ++ run.timedEntries r (n.crossBoundary p r).2.newCommits) := by
  have cases := Node.evaluateCases p {n with previousStage := n.currentStage} n.previousStage
  obtain ⟨digest,frontier⟩ := mirrors
  simp only [Node.crossBoundary]
  generalize Node.evaluateRoundBoundary p {n with previousStage := n.currentStage}
    (some n.previousStage) = e at cases
  cases cases with
  | skip early => exact ⟨by simpa [timedEntries] using digest,by simpa [timedEntries] using frontier⟩
  | halt round rows localRow reason =>
    exact ⟨by simpa [timedEntries,Node.enterHaltState,Node.emitControlPlaneEvent] using digest,
      by simpa [timedEntries,Node.enterHaltState,Node.emitControlPlaneEvent] using frontier⟩
  | «continue» judged =>
    refine ⟨?_,?_⟩
    · rw [show (if (Node.Decision.continue = Node.Decision.halt) then _ else _) = _ from if_neg (by decide)]
      rw [timedCommitted,← digest]
    · simp [timedEntries,Node.committedRound,CommittedRoundRecord.fromCommittedRound]

def MirrorsLogAt (run : ClusterRun) (i : Nat) (s : Cluster) : Prop :=
  (s.nodes i).mirrorsLog (run.params i) (s.commitHistoryByNode i)
instance (run : ClusterRun) (i : Nat) (s : Cluster) : Decidable (MirrorsLogAt run i s) := by
  unfold MirrorsLogAt; infer_instance

-- No running node is crashed with a repair log in its mailbox that it would install.
def sheltered (run : ClusterRun) (i r : Nat) (n : Node) : Prop :=
  run.nodeFaultModel i r = false → n.status = .running →
    ∀ u ∈ n.pendingControlPlaneUpdate, ∀ log ∈ u.repairLog,
      n.shouldInstallRepairLog (run.params i) log = false

theorem crashedMirrors {p : NodeParams} :
    (crashedNode p r n).mirrorsLog p history ↔ n.mirrorsLog p history := Iff.rfl

theorem untimed (run : ClusterRun) (r : Int) (history : List CommittedRoundRecord) :
    history ++ run.timedEntries r [] = history := by simp [timedEntries]

theorem advancedMirrors (standing : Standing i r bound last n) (logged : n.Logged history)
    (held : n.mirrorsLog (run.params i) history ∨ n.handedLog) (safe : sheltered run i r n) :
    (run.advanced r i n).1.mirrorsLog (run.params i)
      (history ++ run.timedEntries r (run.advanced r i n).2.newCommits) := by
  have tuned := @Node.configuredMirrors (run.params i) n r history standing.wired logged held
  rcases advancedCases run (standingAwake standing) with ⟨off,up,done⟩ | ⟨_,_,done⟩ | ⟨_,_,done⟩
  · rw [done,untimed]
    refine crashedMirrors.mpr ?_
    rcases held with mirrors | ⟨u,mailbox,some⟩
    · exact mirrors
    · obtain ⟨log,carried⟩ := Option.isSome_iff_exists.mp some
      rw [← (logged u mailbox log carried).1]
      exact Node.shouldInstallIff.mp (safe off up u mailbox log carried)
  · rw [done,untimed]
    exact tuned
  · rw [done]
    exact crossMirrors run r tuned

theorem exposedStays (standing : Standing i r bound last n) (logged : n.Logged history)
    (exposed : ¬ sheltered run i r n) :
    ¬ (run.advanced r i n).1.mirrorsLog (run.params i)
      (history ++ run.timedEntries r (run.advanced r i n).2.newCommits) := by
  unfold sheltered at exposed
  push Not at exposed
  obtain ⟨off,up,u,mailbox,log,carried,install⟩ := exposed
  rcases advancedCases run (standingAwake standing) with ⟨_,_,done⟩ | ⟨spared,_⟩ | ⟨spared,_⟩
  · rw [done,untimed,← (logged u mailbox log carried).1]
    exact fun mirrors => install (Node.shouldInstallIff.mpr (crashedMirrors.mp mirrors))
  · rcases spared with on | down
    · simp [off] at on
    · exact absurd up down
  · rcases spared with on | down
    · simp [off] at on
    · exact absurd up down

section Mailbox

variable {shown : ControlPlaneState} {n' : Node} {result : NodeRoundResult}

theorem emptyLogged (empty : n.pendingControlPlaneUpdate = none) : n.Logged history := by
  intro u mailbox
  simp [empty] at mailbox

theorem turnLogged (turn : Turn run r i shown n n' result) (logged : n.Logged history) :
    n'.Logged (history ++ run.timedEntries r result.newCommits) := by
  cases turn with
  | down off up =>
    rw [untimed]
    exact logged
  | idle spared inactive tuned => exact emptyLogged tuned.mailbox
  | took spared active tuned crossed => exact emptyLogged (crossed.mailbox.trans tuned.mailbox)

def LoggedAt (i : Nat) (s : Cluster) : Prop := (s.nodes i).Logged (s.commitHistoryByNode i)

theorem pushedLogged (one : PushedOne shown i s s')
    (full : ∀ log, shown.repairLogs.lookup i = some log → log.entries ≠ []) (logged : LoggedAt i s) :
    LoggedAt i s' := by
  unfold LoggedAt
  by_cases new : pushed shown i s
  · rw [one.node new,one.history new]
    intro u mailbox log carried
    cases Option.some.inj mailbox
    have found : shown.repairLogs.lookup i = some log := carried
    rw [found]
    exact ⟨rfl,full log found⟩
  · obtain ⟨node,history⟩ := one.quiet new
    rw [node,history]
    exact logged

theorem ranLogged (ran : Ran run.system moves pt) (inside : i < run.nodeCount) :
    LoggedAt i pt.cluster := by
  induction ran with
  | start h =>
    cases h
    exact emptyLogged rfl
  | @move moves at' op next upTo h ih =>
    have mirrored := ranMirrored upTo
    have stocked := ranStocked upTo
    cases stepCases h with
    | control done =>
      obtain ⟨cp,state,boundary⟩ := mirrored
      obtain ⟨mid,midState,shown,controlled,_,one⟩ := controlPushed boundary done
      refine pushedLogged (one i inside) ?_ ih
      intro log held
      exact (controlLogs controlled (boundaryStocked boundary stocked) held).2
    | @turn r k s s' done =>
      obtain ⟨bound,shown,state,midround⟩ := mirrored
      obtain ⟨_,_,turned,turn,_⟩ := turnMirrored midround bound done
      unfold LoggedAt
      by_cases own : i = k
      · subst own
        have logged := turnLogged turn ih
        rw [turned.node,turned.history]
        exact logged
      · rw [(turned.others i own).node,(turned.others i own).history]
        exact ih
    | @network r s =>
      unfold LoggedAt Node.Logged
      rw [(networkUndelivered run r s i).mailbox]
      exact ih

end Mailbox

section Runs

def Sheltered (run : ClusterRun) (moves : List (Move Point Phase)) : Prop :=
  ∀ m ∈ moves, ∀ i, m.op = .turn i → sheltered run i m.before.round (m.before.cluster.nodes i)

def LogsMirrored (run : ClusterRun) (moves : List (Move Point Phase)) : Prop :=
  ∀ m ∈ moves, m.op = .network → ∀ i < run.nodeCount, MirrorsLogAt run i m.after.cluster

-- In a sheltered run a node holds its stored log, or is about to install it.
def Holding (run : ClusterRun) (i : Nat) (pt : Point) : Prop :=
  MirrorsLogAt run i pt.cluster ∨
  ∃ k ≤ i, pt.phase = .turn k ∧ (pt.cluster.nodes i).handedLog

theorem receiveLog (n : Node) (packet : Packet) : Node.SameLog n (n.receive packet) := by
  rcases Node.receiveCases n packet with ⟨_,same⟩ | ⟨_,same⟩
  · rw [same]
    exact ⟨rfl,rfl⟩
  · rw [same]
    exact ⟨rfl,rfl⟩

theorem networkLog (run : ClusterRun) (r : Nat) (s : Cluster) (i : Nat) :
    Node.SameLog (s.nodes i) ((run.advanceNetwork r s).nodes i) := by
  have whole := @networkInvariant run s (fun _ _ => True)
    (fun nodes => Node.SameLog (s.nodes i) (nodes i)) r
    (fun _ _ _ => ⟨trivial,fun _ _ => trivial⟩) ?_ ⟨rfl,rfl⟩ (fun _ _ _ => trivial)
  · exact whole.1
  · intro nodes dst packet before _
    by_cases same : i = dst
    · subst i
      rw [Function.update_self]
      exact Node.sameLogTrans before (receiveLog _ _)
    · rw [Function.update_of_ne same]
      exact before

theorem networkMirrorsLog : MirrorsLogAt run i (run.advanceNetwork r s) ↔ MirrorsLogAt run i s :=
  Node.sameLogMirrors (networkLog run r s i)

theorem pushedHolding {shown : ControlPlaneState} (one : PushedOne shown i s s')
    (held : MirrorsLogAt run i s) : MirrorsLogAt run i s' ∨ (s'.nodes i).handedLog := by
  unfold MirrorsLogAt
  by_cases new : pushed shown i s
  · rw [one.node new,one.history new]
    cases carried : shown.repairLogs.lookup i with
    | none => exact Or.inl held
    | some log => exact Or.inr ⟨_,rfl,by simp [buildControlPlaneUpdate,carried]⟩
  · obtain ⟨node,history⟩ := one.quiet new
    rw [node,history]
    exact Or.inl held

theorem midroundStanding {shown state : ControlPlaneState} (midround : Midround run r k shown s state)
    (bound : k < run.nodeCount) :
    Standing k r shown.installedConfig.runId (s.lastControlPlaneUpdates k) (s.nodes k) :=
  (midround.todo k le_rfl bound).standing

theorem ranHolding (ran : Ran run.system moves pt) (safe : Sheltered run moves)
    (inside : i < run.nodeCount) : Holding run i pt := by
  induction ran with
  | start h =>
    cases h
    exact Or.inl ⟨rfl,rfl⟩
  | @move moves at' op next upTo h ih =>
    have before := ih (fun m member => safe m (List.mem_append_left _ member))
    have mirrored := ranMirrored upTo
    have logged := ranLogged upTo inside
    have here := safe _ (List.mem_append_right _ (List.mem_singleton.mpr rfl))
    cases stepCases h with
    | control done =>
      obtain ⟨cp,state,boundary⟩ := mirrored
      obtain ⟨mid,midState,shown,_,_,one⟩ := controlPushed boundary done
      have held := before.resolve_right (by rintro ⟨k,_,phase,_⟩; cases phase)
      rcases pushedHolding (one i inside) held with mirrors | handed
      · exact Or.inl mirrors
      · exact Or.inr ⟨0,Nat.zero_le _,if_pos (by omega),handed⟩
    | @turn r k s s' done =>
      obtain ⟨bound,shown,state,midround⟩ := mirrored
      obtain ⟨_,_,turned,_,_⟩ := turnMirrored midround bound done
      by_cases own : i = k
      · subst own
        left
        unfold MirrorsLogAt
        rw [turned.node,turned.history]
        have held := before.imp id (fun ⟨_,_,_,handed⟩ => handed)
        have mirrors := advancedMirrors (midroundStanding midround bound) logged held (here i rfl)
        exact (Node.sameLogMirrors ⟨rfl,rfl⟩).mpr mirrors
      · have same := turned.others i own
        rcases before with mirrors | ⟨j,below,phase,handed⟩
        · left
          unfold MirrorsLogAt
          rw [same.node,same.history]
          exact mirrors
        · cases phase
          refine Or.inr ⟨k + 1,by omega,if_pos (by omega),?_⟩
          dsimp only
          rw [same.node]
          exact handed
    | network =>
      have held := before.resolve_right (by rintro ⟨k,_,phase,_⟩; cases phase)
      exact Or.inl (networkMirrorsLog.mpr held)

-- The round is not over for a node that was crashed without shelter.
def Exposed (run : ClusterRun) (i : Nat) (pt : Point) : Prop :=
  i < run.nodeCount ∧ ¬ MirrorsLogAt run i pt.cluster ∧
  (pt.phase = .network ∨ ∃ k, pt.phase = .turn k ∧ i < k)

theorem turnFromLater (below : i < k) : run.turnFrom k = .network ∨ ∃ j, run.turnFrom k = .turn j ∧ i < j := by
  unfold turnFrom
  split
  · exact Or.inr ⟨k,rfl,below⟩
  · exact Or.inl rfl

theorem ranExposed (ran : Ran run.system moves pt) (mirrored : LogsMirrored run moves)
    (member : m ∈ moves) (own : m.op = .turn i)
    (bare : ¬ sheltered run i m.before.round (m.before.cluster.nodes i)) : Exposed run i pt := by
  induction ran with
  | start h => simp at member
  | @move moves at' op next upTo h ih =>
    have earlier := ih (fun x inside => mirrored x (List.mem_append_left _ inside))
    have here := mirrored _ (List.mem_append_right _ (List.mem_singleton.mpr rfl))
    have midrounds := ranMirrored upTo
    cases stepCases h with
    | control done =>
      rcases List.mem_append.mp member with old | last
      · obtain ⟨_,_,phase | ⟨k,phase,_⟩⟩ := earlier old
        · cases phase
        · cases phase
      · cases List.mem_singleton.mp last
        cases own
    | @turn r k s s' done =>
      obtain ⟨bound,shown,state,midround⟩ := midrounds
      obtain ⟨_,_,turned,_,_⟩ := turnMirrored midround bound done
      rcases List.mem_append.mp member with old | last
      · obtain ⟨inside,stale,phase | ⟨j,phase,below⟩⟩ := earlier old
        · cases phase
        · cases phase
          have same := turned.others i (by omega)
          refine ⟨inside,?_,turnFromLater (by omega)⟩
          unfold MirrorsLogAt
          rw [same.node,same.history]
          exact stale
      · cases List.mem_singleton.mp last
        cases own
        have logged := ranLogged upTo bound
        have stale := exposedStays (midroundStanding midround bound) logged bare
        refine ⟨bound,?_,turnFromLater (by omega)⟩
        unfold MirrorsLogAt
        rw [turned.node,turned.history]
        exact fun mirrors => stale ((Node.sameLogMirrors ⟨rfl,rfl⟩).mp mirrors)
    | network =>
      rcases List.mem_append.mp member with old | last
      · obtain ⟨inside,stale,_⟩ := earlier old
        exact absurd (networkMirrorsLog.mp (here rfl i inside)) stale
      · cases List.mem_singleton.mp last
        cases own

theorem logsMirroredWhenSheltered (ran : Ran run.system moves pt) (whole : pt.phase = .control) :
    LogsMirrored run moves ↔ Sheltered run moves := by
  constructor
  · intro mirrored m member i own
    by_contra bare
    obtain ⟨_,_,phase | ⟨k,phase,_⟩⟩ := ranExposed ran mirrored member own bare
    · cases whole.symm.trans phase
    · cases whole.symm.trans phase
  · intro safe m member network i inside
    obtain ⟨pre,post,rfl⟩ := List.append_of_mem member
    obtain ⟨_,step,upTo⟩ := ranAt ran
    have held := ranHolding upTo (fun x old => safe x (by simp at old ⊢; tauto)) inside
    rcases held with mirrors | ⟨k,_,phase,_⟩
    · exact mirrors
    · obtain ⟨before,op,after⟩ := m
      cases network
      cases stepCases step
      cases phase

end Runs

-- Node 2 is down in round 3, rejoins and crashes again in round 6 while repair logs arrive.
def crashTwice : ClusterRun :=
  { nodeCount := 3
    rounds := 7
    timing := ⟨1,0,2,0,0,1,0,0⟩
    payloadFactory := fun _ _ => ""
    networkFaultModel := fun packet _ => {deliverRound := some packet.roundId}
    nodeFaultModel := fun i r => decide (i ≠ 2 ∨ r ≠ 3 ∧ r ≠ 6)
    hash := ⟨fun _ => "",fun _ _ => ""⟩ }

theorem logDiverges :
    ¬ ∀ run moves pt, 0 < run.timing.roundLengthNs → Faithful run → Ran run.system moves pt →
      LogsMirrored run moves := by
  intro claim
  have faithful : Faithful crashTwice := fun _ _ => ⟨rfl,by simp [crashTwice]⟩
  have value : (crashTwice.walk 7).toOption.map (fun result =>
      result.1.any (fun m => m.op == .network && !decide (MirrorsLogAt crashTwice 2 m.after.cluster))) =
        some true := by
    decide +kernel
  obtain ⟨moves,pt,ran,found⟩ := walkFound value
  simp only [List.any_eq_true,Bool.and_eq_true,beq_iff_eq,Bool.not_eq_true',decide_eq_false_iff_not] at found
  obtain ⟨m,member,network,stale⟩ := found
  exact stale (claim crashTwice moves pt (by decide) faithful ran m member network 2 (by decide))

-- Until its second crash the run is sheltered.
theorem logsMirroredWhenShelteredOnce :
    ∃ moves pt, Ran crashTwice.system moves pt ∧ pt.phase = .control ∧ moves.length = 30 ∧
      (LogsMirrored crashTwice moves ↔ Sheltered crashTwice moves) := by
  have value : (crashTwice.walk 6).toOption.map (fun result =>
      decide (result.2.phase = .control ∧ result.1.length = 30)) = some true := by
    decide +kernel
  obtain ⟨moves,pt,ran,found⟩ := walkFound value
  simp only [decide_eq_true_eq] at found
  exact ⟨moves,pt,ran,found.1,found.2,logsMirroredWhenSheltered ran found.1⟩

end ClusterRun
end Syncons
