import Syncons.Concert
import Syncons.Streams
import Syncons.Cutover
import Syncons.DeliverySchedule

/-! Survivors. A majority of nodes that never crash, hear one another in every round and
hear the same of everybody else, goes through its rounds in concert: none of them halts,
and each round is committed by all of them, two rounds later, with one set. -/
namespace Syncons
open Dict (Map)
open Outcome Runs
open OnlineRejoinControlPlane (inState interruption Coherent Tracked Called)

namespace OnlineRejoinControlPlane

variable {cp cp' : OnlineRejoinControlPlane} {state state' : ControlPlaneState}
  {snapshots : List RepairSnapshot} {r : Int} {i count : Nat}

theorem ensureTouched (done : cp.ensureState count = .ok cp') (some : cp'.touched i) : cp.touched i := by
  unfold ensureState at done
  split at done
  · cases done
    exact some
  · obtain ⟨state,_,last⟩ := bindOk.mp done
    cases last
    exact some

theorem calledTouched (h : Called snapshots r cp state cp' state') (some : cp'.touched i) :
    cp.touched i := by
  cases h with
  | quiet early rebuilt => exact some
  | @cutover future pending committed due logs rebuilt =>
    have ended : (cp.afterCutover r future).touched i :=
      beganTouched (cp.afterCutover r future) (r * cp.timing.roundLengthNs) i some
    rcases ended with collecting | episode | queued
    · exact Or.inl collecting
    · simp [afterCutover,clearEpisodeState] at episode
    · exact Or.inr (Or.inr queued)

theorem untouchedActive (h : Tracked cp state) (bound : i < cp.nodeCount) (spared : ¬ cp.touched i) :
    inState state i .active := by
  obtain ⟨s,held⟩ := Option.isSome_iff_exists.mp ((h.known i).mpr bound)
  cases s with
  | active => exact held
  | failed => exact absurd (h.failed i held) spared
  | recovering => exact absurd (Or.inr (Or.inl (h.rejoining i _ held (Or.inl rfl)))) spared
  | rejoinPending => exact absurd (Or.inr (Or.inl (h.rejoining i _ held (Or.inr rfl)))) spared

end OnlineRejoinControlPlane

namespace ClusterRun

variable {run : ClusterRun} {pt pt' : Point} {s s' : Cluster} {r R k i q : Nat} {phase : Phase}
  {moves : List (Move Point Phase)} {m : Move Point Phase} {n c n' : Node}
  {before mid after : OnlineRejoinControlPlane} {state midState shown : ControlPlaneState}

section Control

theorem controlTouched {r : Int} (boundary : Boundary run r s before state)
    (controlled : Controlled run r s before state mid midState after shown)
    (spared : ¬ s.controlPlane.touched i) : ¬ after.touched i := by
  intro some
  have called := OnlineRejoinControlPlane.calledTouched controlled.second some
  have advanced := controlled.first.1.touched i called
  exact spared (OnlineRejoinControlPlane.ensureTouched boundary.ready.1 advanced)

theorem controlSpared {r : Int} (boundary : Boundary run r s before state)
    (controlled : Controlled run r s before state mid midState after shown) (bound : i < run.nodeCount)
    (spared : ¬ s.controlPlane.touched i) : inState shown i .active := by
  have counted : i < after.nodeCount := controlled.sound.nodeCount ▸ bound
  exact OnlineRejoinControlPlane.untouchedActive controlled.called.tracked counted
    (controlTouched boundary controlled spared)

theorem boundaryUnique {r : Int} {before' : OnlineRejoinControlPlane} {state' : ControlPlaneState}
    (h : Boundary run r s before state) (h' : Boundary run r s before' state') : state' = state := by
  have same : before' = before := Except.ok.inj (h'.ready.1.symm.trans h.ready.1)
  subst same
  exact Option.some.inj (h'.coherent.tracked.current.symm.trans h.coherent.tracked.current)

end Control

section Rows

def Signed (i : Nat) (stage : RoundStage) : Prop :=
  (0 ≤ stage.roundId → stage.row.testBit i = true) ∧ (stage.roundId < 0 → stage.row = 0)

structure SignedStages (i : Nat) (n : Node) : Prop where
  current : Signed i n.currentStage
  previous : Signed i n.previousStage

theorem signedSame (same : Node.SameStages n c) (h : SignedStages i n) : SignedStages i c :=
  ⟨same.current ▸ h.current,same.previous ▸ h.previous⟩

theorem signedBlank (blank : Node.Blank n) : SignedStages i n := by
  have none (epoch : Int) (members : Nat) : Signed i (Node.blankStage (-1) epoch members) :=
    ⟨fun late => absurd late (by simp [Node.blankStage]),fun _ => rfl⟩
  exact ⟨blank.current ▸ none _ _,blank.previous ▸ none _ _⟩

theorem signedRestarted (restarted : Node.Restarted n c) (h : SignedStages i n) : SignedStages i c := by
  rcases restarted with blank | ⟨same,_⟩
  · exact signedBlank blank
  · exact signedSame same h

theorem signedCrossed {result : NodeRoundResult}
    (crossed : Node.Crossed (run.params i) c r n' result) (h : SignedStages i c) : SignedStages i n' := by
  refine ⟨?_,?_⟩
  · rw [crossed.current]
    refine ⟨fun _ => ?_,fun early => absurd early (by simp [Node.newCurrentStage])⟩
    change (bit i).testBit i = true
    simp
  · rw [crossed.previous]
    exact h.current

theorem signedTurn {result : NodeRoundResult} (turn : Turn run r i shown n n' result)
    (h : SignedStages i n) : SignedStages i n' := by
  cases turn with
  | down off up => exact ⟨h.current,h.previous⟩
  | idle spared inactive tuned => exact signedRestarted tuned.stages h
  | took spared active tuned crossed => exact signedCrossed crossed (signedRestarted tuned.stages h)

theorem signedHeard {packets : List Packet} (heard : Node.Heard n packets n')
    (opened : up n → n.currentStage.roundId = r) (h : SignedStages i n) : SignedStages i n' := by
  have round : n'.currentStage.roundId = n.currentStage.roundId := by rw [heard.current]
  refine ⟨⟨?_,?_⟩,?_⟩
  · intro late
    rw [round] at late
    exact (heard.row i).mpr (Or.inl (h.current.1 late))
  · intro early
    rw [round] at early
    have deaf : ∀ j, ¬ Node.hears n packets j := by
      rintro j ⟨packet,_,accepts,_⟩
      have now := opened ⟨accepts.1,accepts.2.1⟩
      omega
    rw [← h.current.2 early]
    refine bitmapEq ?_
    intro j
    have same := heard.row j
    rw [or_iff_left (deaf j)] at same
    exact Bool.eq_iff_iff.mpr same
  · rw [heard.previous]
    exact h.previous

theorem ranSigned (faithful : Faithful run) (ran : Ran run.system moves pt) :
    ∀ i < run.nodeCount, SignedStages i (pt.cluster.nodes i) := by
  induction ran with
  | start h =>
    cases h
    intro i _
    refine ⟨⟨?_,?_⟩,⟨?_,?_⟩⟩ <;> simp [Cluster.init,Node.init]
  | move upTo h ih =>
    have mirrored := ranMirrored upTo
    have staged := ranStaged faithful upTo
    cases stepCases h with
    | control done =>
      obtain ⟨cp,state,boundary⟩ := mirrored
      obtain ⟨_,_,shown,_,_,one⟩ := controlPushed boundary done
      intro i bound
      exact signedSame (pushedSame (one i bound)).1 (ih i bound)
    | @turn r k s s' done =>
      obtain ⟨bound,shown,state,midround⟩ := mirrored
      obtain ⟨_,_,turned,turn,_⟩ := turnMirrored midround bound done
      intro i inside
      by_cases own : i = k
      · subst own
        rw [turned.node]
        have signed := signedTurn turn (ih i inside)
        exact ⟨signed.current,signed.previous⟩
      · rw [(turned.others i own).node]
        exact ih i inside
    | @network r s =>
      obtain ⟨rowOf,collected⟩ := staged
      intro i inside
      dsimp only
      rw [advanceNetworkAt]
      exact signedHeard (Node.receiveAllHeard _ _)
        (fun running => (collected.done i inside running).1.current.round) (ih i inside)

end Rows

def deliveredTo (run : ClusterRun) (m : Move Point Phase) (i : Nat) : List Packet :=
  run.handedTo m.before.round m.before.cluster i

/- A majority `Q` that never crashes. In each round its packets to one another arrive, and
a packet from elsewhere arrives at all of its members or at none. -/
structure Survivors (run : ClusterRun) (Q : Finset Nat) (moves : List (Move Point Phase)) : Prop where
  inside : ∀ q ∈ Q, q < run.nodeCount
  majority : run.nodeCount / 2 + 1 ≤ Q.card
  spared : ∀ m ∈ moves, ∀ q ∈ Q, (m.after.cluster.nodes q).status ≠ .crashed
  arrive : ∀ m ∈ moves, ∀ call ∈ consultedIn run m, call.1.srcId ∈ Q → call.2 ∈ Q →
    call.1 ∈ deliveredTo run m call.2
  alike : ∀ m ∈ moves, ∀ call ∈ consultedIn run m, call.1.srcId ∉ Q →
    (∀ q ∈ Q, call.1 ∈ deliveredTo run m q) ∨ ∀ q ∈ Q, call.1 ∉ deliveredTo run m q

def cutsOver (m : Move Point Phase) : Prop := m.op = .control ∧ installedAt m.before ≠ installedAt m.after
instance (m : Move Point Phase) : Decidable (cutsOver m) := by unfold cutsOver; infer_instance

def uncut (moves : List (Move Point Phase)) (r : Nat) : Prop := ∀ m ∈ moves, cutsOver m → m.before.round ≠ r

def commitsAt (run : ClusterRun) (moves : List (Move Point Phase)) (q r commitSet : Nat) : Prop :=
  ∃ m ∈ moves, m.op = .turn q ∧ m.before.round = r + 2 ∧
    ∃ entry, run.commitsIn q m = [entry] ∧ entry.round = r ∧ entry.commitSet = commitSet

structure InConcert (run : ClusterRun) (Q : Finset Nat) (moves : List (Move Point Phase)) (rounds : Nat) :
    Prop where
  running : ∀ m ∈ moves, ∀ q ∈ Q, (m.after.cluster.nodes q).status ≠ .halted
  commits : ∀ r, r + 2 < rounds → uncut moves (r + 1) → uncut moves (r + 2) →
    ∃ commitSet, ∀ q ∈ Q, commitsAt run moves q r commitSet

variable {Q : Finset Nat} {w : Node.Shared}

-- Between rounds, before round `R`; `w` is what the survivors share.
structure Abreast (run : ClusterRun) (Q : Finset Nat) (moves : List (Move Point Phase)) (R : Nat)
    (s : Cluster) (w : Node.Shared) : Prop where
  up : ∀ q ∈ Q, up (s.nodes q)
  calm : ∀ q ∈ Q, ¬ s.controlPlane.touched q
  latest : ∀ q ∈ Q, ∀ q' ∈ Q, s.lastControlPlaneUpdates q' = s.lastControlPlaneUpdates q
  shared : ∀ q ∈ Q, (s.nodes q).shared = w
  concerted : Node.Concerted run.nodeCount Q w
  current : 0 < R → w.current.roundId = (R : Int) - 1
  previous : 1 < R → uncut moves (R - 1) → w.previous.roundId = (R : Int) - 2

-- A survivor after its turn in round `r`, which it entered with what `w` says.
structure Stood (run : ClusterRun) (Q : Finset Nat) (moves : List (Move Point Phase)) (r : Nat)
    (w : Node.Shared) (q : Nat) (n : Node) : Prop where
  up : up n
  currentRound : n.currentRound = r
  config : n.config = w.config
  pending : n.pendingConfig = w.pending
  mailbox : n.pendingControlPlaneUpdate = none
  irq : n.controlPlaneIrqPending = false
  current : ∃ c : Node, c.config = w.config ∧ n.currentStage = c.newCurrentStage (run.params q) r
  previous : n.previousStage = Node.filedStage (run.params q) w.current
  sound : n.currentSoundSet = Node.nextSound (run.params q) w
  trusted : ∀ other ∈ Q, n.currentSoundSet.testBit other = true
  agreed : 0 ≤ w.previous.roundId → Node.Agreed (run.params q) w.previous ∧
    Node.localRow (run.params q) w.previous = w.previous.row
  spoke : ∃ packet : Packet, packet.srcId = q ∧ packet.roundId = r ∧ packet.runId = n.runId ∧
    ∀ other ∈ Q, other ≠ q → (packet,other) ∈ sentDuring run moves r
  commits : 1 < r → uncut moves (r - 1) → uncut moves r →
    commitsAt run moves q (r - 2) w.previous.row

-- In round `r`, with the turns of the nodes below `k` done; `w` is what all had before their turns.
structure Halfway (run : ClusterRun) (Q : Finset Nat) (moves : List (Move Point Phase)) (r k : Nat)
    (shown : ControlPlaneState) (s : Cluster) (w : Node.Shared) : Prop where
  calm : ∀ q ∈ Q, ¬ s.controlPlane.touched q
  latest : ∀ q ∈ Q, ∀ q' ∈ Q, s.lastControlPlaneUpdates q' = s.lastControlPlaneUpdates q
  active : ∀ q ∈ Q, inState shown q .active
  concerted : Node.Concerted run.nodeCount Q w
  current : 0 < r → uncut moves r → w.current.roundId = (r : Int) - 1
  previous : 1 < r → uncut moves (r - 1) → uncut moves r → w.previous.roundId = (r : Int) - 2
  running : ∀ q ∈ Q, (s.nodes q).status = .running
  todo : ∀ q ∈ Q, k ≤ q → ((s.nodes q).configured (run.params q) r).shared = w
  done : ∀ q ∈ Q, q < k → Stood run Q moves r w q (s.nodes q)

theorem uncutSnoc (kept : uncut (moves ++ [m]) r) : uncut moves r :=
  fun x member => kept x (List.mem_append_left _ member)

theorem commitsAtSnoc {commitSet : Nat} (h : commitsAt run moves q r commitSet) :
    commitsAt run (moves ++ [m]) q r commitSet := by
  obtain ⟨x,member,rest⟩ := h
  exact ⟨x,List.mem_append_left _ member,rest⟩

theorem survivorsBefore (h : Survivors run Q (moves ++ [m])) : Survivors run Q moves :=
  ⟨h.inside,h.majority,fun x member => h.spared x (List.mem_append_left _ member),
    fun x member => h.arrive x (List.mem_append_left _ member),
    fun x member => h.alike x (List.mem_append_left _ member)⟩

theorem stoodSnoc (h : Stood run Q moves r w q n) : Stood run Q (moves ++ [m]) r w q n := by
  obtain ⟨packet,source,round,runId,sent⟩ := h.spoke
  refine ⟨h.up,h.currentRound,h.config,h.pending,h.mailbox,h.irq,h.current,h.previous,h.sound,h.trusted,
    h.agreed,⟨packet,source,round,runId,?_⟩,?_⟩
  · intro other member apart
    rw [sentSnoc]
    exact List.mem_append_left _ (sent other member apart)
  · intro late before now
    exact commitsAtSnoc (h.commits late (uncutSnoc before) (uncutSnoc now))

section Control

theorem builtAlike (active : inState shown i .active) (active' : inState shown q .active)
    (logs : shown.repairLogs.lookup q = shown.repairLogs.lookup i) :
    buildControlPlaneUpdate q shown = buildControlPlaneUpdate i shown := by
  have state : Dict.getD shown.nodeStates q .failed = Dict.getD shown.nodeStates i .failed := by
    rw [Dict.getD,Dict.getD,show shown.nodeStates.lookup i = _ from active,
      show shown.nodeStates.lookup q = _ from active']
  simp only [buildControlPlaneUpdate,state,logs]

theorem pushedAlike (one : PushedOne shown i s s') (one' : PushedOne shown q s s')
    (update : buildControlPlaneUpdate q shown = buildControlPlaneUpdate i shown)
    (latest : s.lastControlPlaneUpdates q = s.lastControlPlaneUpdates i)
    (same : (s.nodes q).shared = (s.nodes i).shared) :
    s'.lastControlPlaneUpdates q = s'.lastControlPlaneUpdates i ∧
      (s'.nodes q).shared = (s'.nodes i).shared := by
  refine ⟨by rw [one'.last,one.last,update],?_⟩
  have both : pushed shown q s ↔ pushed shown i s := by
    unfold pushed
    rw [latest,update]
  by_cases new : pushed shown i s
  · rw [one.node new,one'.node (both.mpr new),update]
    simp only [Node.shared,Node.Shared.mk.injEq] at same ⊢
    obtain ⟨sound,current,previous,config,state,pending,_,_⟩ := same
    exact ⟨sound,current,previous,config,state,pending,rfl,rfl⟩
  · rw [(one.quiet new).1,(one'.quiet (fun other => new (both.mp other))).1,same]

theorem pushedRunning (one : PushedOne shown i s s') (running : (s.nodes i).status = .running) :
    (s'.nodes i).status = .running := by
  by_cases new : pushed shown i s
  · rw [one.node new]
    exact running
  · rw [(one.quiet new).1]
    exact running

theorem pushedSound (one : PushedOne shown i s s') :
    (s'.nodes i).currentSoundSet = (s.nodes i).currentSoundSet := by
  by_cases new : pushed shown i s
  · rw [one.node new]
    rfl
  · rw [(one.quiet new).1]

theorem controlAlike {r : Nat} (h : Abreast run Q moves r s w) (stocked : Stocked run s state)
    (controlled : Controlled run r s before state mid midState after shown)
    (active : ∀ q ∈ Q, inState shown q .active) (one : ∀ i < run.nodeCount, PushedOne shown i s s')
    (inside : ∀ q ∈ Q, q < run.nodeCount) (member : i ∈ Q) (other : q ∈ Q) :
    s'.lastControlPlaneUpdates q = s'.lastControlPlaneUpdates i ∧
      (s'.nodes q).shared = (s'.nodes i).shared := by
  have unlogged : ∀ q ∈ Q, shown.repairLogs.lookup q = none := fun q member =>
    controlUnlogged controlled stocked (active q member)
  exact pushedAlike (one i (inside i member)) (one q (inside q other))
    (builtAlike (active i member) (active q other) ((unlogged q other).trans (unlogged i member).symm))
    (h.latest i member q other) ((h.shared q other).trans (h.shared i member).symm)

theorem controlKeepsRun {p : NodeParams} (boundary : Boundary run r s before state)
    (midround : Midround run r 0 shown s' shown) (one : PushedOne shown i s s')
    (bound : i < run.nodeCount) (was : up (s.nodes i))
    (keeps : s'.controlPlane.installedConfig = s.controlPlane.installedConfig)
    (tuned : Tuned p shown i r (s'.nodes i) c) : c.runId = (s'.nodes i).runId := by
  have installed := boundaryInstalled boundary (keeps.symm.trans (midroundInstalled midround))
  have mirrored := (boundary.nodes i bound).config was.1 was.2
  have config := (pushedSame one).2.1
  exact (congrArg InstalledConfig.runId
    (config.trans (mirrored.trans (installed.trans tuned.mirrors.1.symm)))).symm

theorem controlHalfway (h : Abreast run Q moves r s w) (survivors : Survivors run Q moves)
    (boundary : Boundary run r s before state) (stocked : Stocked run s state)
    (attentive : ∀ q ∈ Q, Attentive state q (s.nodes q)) (done : run.controlPhase r s = .ok s')
    (before' : m.before = ⟨r,.control,s⟩) (after' : m.after = ⟨r,run.turnFrom 0,s'⟩)
    (op : m.op = .control) :
    ∃ shown w', Midround run r 0 shown s' shown ∧ Halfway run Q (moves ++ [m]) r 0 shown s' w' := by
  obtain ⟨mid,midState,shown,controlled,midround,one⟩ := controlPushed boundary done
  obtain ⟨lead,leads⟩ : Q.Nonempty := Finset.card_pos.mp (by have := survivors.majority; omega)
  have active : ∀ q ∈ Q, inState shown q .active := fun q member =>
    controlSpared boundary controlled (survivors.inside q member) (h.calm q member)
  have alike {i q : Nat} (member : i ∈ Q) (other : q ∈ Q) :=
    controlAlike h stocked controlled active one survivors.inside member other
  have bound := survivors.inside lead leads
  have pushed := midround.todo lead (Nat.zero_le _) bound
  have tuned := configuredTuned (run.params lead) pushed midround.ready
  have renewed := pushedRenewed (one lead bound)
    (controlRenewed boundary bound controlled (attentive lead leads))
  have carries := carried (run.params lead) pushed midround.ready renewed (active lead leads)
  have same := (pushedSame (one lead bound)).1
  have held := h.shared lead leads
  simp only [Node.shared] at held
  have others : ∀ q ∈ Q, ((s'.nodes q).configured (run.params q) r).shared =
      ((s'.nodes lead).configured (run.params lead) r).shared := fun q member =>
    Node.configuredShared pushed.standing.wired (alike leads member).2
  generalize (s'.nodes lead).configured (run.params lead) r = c at tuned carries others
  have members : ∀ q ∈ Q, c.installedMembership.testBit q = true := by
    intro q member
    have installed : c.installedMembership = shown.installedConfig.membersBitmap :=
      congrArg InstalledConfig.membersBitmap tuned.mirrors.1
    rw [installed]
    exact midround.ready.bits q (active q member)
  have switches : (s'.nodes lead).runId < c.runId → ¬ uncut (moves ++ [m]) r := by
    intro older kept
    refine kept m (by simp) ⟨op,?_⟩ (by rw [before'])
    rw [before',after']
    intro keeps
    have runId := controlKeepsRun boundary midround (one lead bound) bound (h.up lead leads) keeps.symm tuned
    omega
  refine ⟨shown,c.shared,midround,?_,fun q member q' member' => (alike member member').1,active,?_,?_,?_,?_,
    fun q member _ => others q member,fun q _ below => absurd below (Nat.not_lt_zero q)⟩
  · exact fun q member => controlTouched boundary controlled (h.calm q member)
  · cases carries with
    | anew older blank => exact Node.concertedBlank blank members
    | on up kept stages quiet =>
      have current : c.currentStage = w.current := by rw [stages.current,same.current,← held]
      have previous : c.previousStage = w.previous := by rw [stages.previous,same.previous,← held]
      refine Node.concertedSame h.concerted current previous ?_
      intro q member
      change c.currentSoundSet.testBit q = true
      rcases tuned.soundSet with whole | kept
      · rw [whole]
        exact members q member
      · have sound : (s'.nodes lead).currentSoundSet = w.soundSet := by
          rw [pushedSound (one lead bound),← held]
        rw [kept,sound]
        exact h.concerted.trusted q member
  · intro late kept
    cases carries with
    | anew older blank => exact absurd kept (switches older)
    | on up _ stages quiet =>
      change c.currentStage.roundId = _
      rw [stages.current,same.current,show (s.nodes lead).currentStage = w.current by rw [← held]]
      exact h.current late
  · intro late spared kept
    cases carries with
    | anew older blank => exact absurd kept (switches older)
    | on up _ stages quiet =>
      change c.previousStage.roundId = _
      rw [stages.previous,same.previous,show (s.nodes lead).previousStage = w.previous by rw [← held]]
      exact h.previous late (uncutSnoc spared)
  · exact fun q member => pushedRunning (one q (survivors.inside q member)) (h.up q member).1

end Control

section Turn

structure Steps (run : ClusterRun) (Q : Finset Nat) (r k : Nat) (shown : ControlPlaneState) (w : Node.Shared)
    (n c : Node) : Prop where
  shared : c.shared = w
  tuned : Tuned (run.params k) shown k r n c
  members : ∀ q ∈ Q, c.installedMembership.testBit q = true
  advanced : run.advanced r k n = c.crossBoundary (run.params k) r
  passed : Node.Passed (run.params k) c r (c.crossBoundary (run.params k) r).1
    (c.crossBoundary (run.params k) r).2
  agreed : 0 ≤ w.previous.roundId → Node.Agreed (run.params k) w.previous ∧
    Node.localRow (run.params k) w.previous = w.previous.row ∧ Q ⊆ Node.matching (run.params k) w.previous

theorem survivorSteps {last : Option ControlPlaneUpdate} (inside : ∀ q ∈ Q, q < run.nodeCount)
    (majority : run.nodeCount / 2 + 1 ≤ Q.card) (pushed : Pushed r shown k last n) (ready : Shown r shown)
    (active : ∀ q ∈ Q, inState shown q .active) (member : k ∈ Q)
    (guarded : up n → Node.Guarded k n.currentSoundSet n) (concerted : Node.Concerted run.nodeCount Q w)
    (todo : (n.configured (run.params k) r).shared = w) (spared : (run.advanced r k n).1.status ≠ .crashed) :
    Steps run Q r k shown w n (n.configured (run.params k) r) := by
  have tuned := configuredTuned (run.params k) pushed ready
  have on := active k member
  have running := tuned.running on
  have joins := (tunedJoins (p := run.params k) rfl tuned).mpr on
  have advanced : run.advanced r k n = (n.configured (run.params k) r).crossBoundary (run.params k) r := by
    rcases advancedCases run (standingAwake pushed.standing) with ⟨_,_,done⟩ | ⟨_,out,_⟩ | ⟨_,_,done⟩
    · rw [done] at spared
      exact absurd rfl spared
    · exact absurd joins out
    · exact done
  have backed := tunedGuarded pushed on tuned guarded
  generalize n.configured (run.params k) r = c at tuned running advanced backed todo
  have members : ∀ q ∈ Q, c.installedMembership.testBit q = true := by
    intro q other
    have installed : c.installedMembership = shown.installedConfig.membersBitmap :=
      congrArg InstalledConfig.membersBitmap tuned.mirrors.1
    rw [installed]
    exact ready.bits q (active q other)
  have previous : c.previousStage = w.previous := congrArg Node.Shared.previous todo
  have agreed : 0 ≤ w.previous.roundId → Node.Agreed (run.params k) w.previous ∧
      Node.localRow (run.params k) w.previous = w.previous.row ∧
        Q ⊆ Node.matching (run.params k) w.previous := by
    intro late
    refine @Node.concertedAgrees (run.params k) Q w concerted late ?_ majority member
    intro q other
    rw [← previous] at late ⊢
    exact ⟨inside q other,by rw [(backed.previous late).members]; exact members q other⟩
  refine ⟨todo,tuned,members,advanced,Node.quorumPasses running ?_,agreed⟩
  intro late
  have stands := (agreed (previous ▸ late)).1
  rw [← previous] at stands
  obtain ⟨proposed,sounded⟩ :=
    @Node.guardedCommits (run.params k) c _ backed late (tuned.sound on) tuned.soundSet stands
  exact ⟨stands,proposed,sounded⟩

theorem survivorStood {c : Node} (inside : ∀ q ∈ Q, q < run.nodeCount) (active : inState shown k .active)
    (steps : Steps run Q r k shown w (s.nodes k) c) (concerted : Node.Concerted run.nodeCount Q w)
    (previous : 1 < r → uncut moves (r - 1) → uncut moves r → w.previous.roundId = (r : Int) - 2)
    (before' : m.before = ⟨r,.turn k,s⟩) (op : m.op = .turn k) :
    Stood run Q (moves ++ [m]) r w k
      {(run.advanced r k (s.nodes k)).1 with controlPlaneEventOutbox := []} := by
  have sent : sentIn run m = addressed (c.broadcast (run.params k) r) := by
    simp only [sentIn,op,before',steps.advanced,steps.passed.sent,Option.map_some,Option.getD_some]
  have committed : run.commitsIn k m = (c.crossBoundary (run.params k) r).2.newCommits := by
    rw [commitsIn,if_pos op,before',steps.advanced]
  have round : m.before.round = r := by rw [before']
  obtain ⟨same,tuned,members,advanced,passed,agreed⟩ := steps
  have crossed := Node.crossBoundaryFacts (run.params k) c r
  rw [advanced]
  generalize c.crossBoundary (run.params k) r = out at passed crossed committed
  have stage : c.previousStage = w.previous := congrArg Node.Shared.previous same
  have sound : out.1.currentSoundSet = Node.nextSound (run.params k) w := by rw [passed.sound,same]
  constructor
  case up =>
    exact ⟨passed.status.trans (tuned.running active),
      crossed.state.trans ((tunedState tuned).mpr active)⟩
  case currentRound => exact crossed.currentRound.trans tuned.currentRound
  case config => exact crossed.config.trans (congrArg Node.Shared.config same)
  case pending => exact crossed.pending.trans (congrArg Node.Shared.pending same)
  case mailbox => exact crossed.mailbox.trans tuned.mailbox
  case irq => exact crossed.irq.trans tuned.irq
  case current => exact ⟨c,congrArg Node.Shared.config same,crossed.current⟩
  case previous =>
    change out.1.previousStage = _
    rw [crossed.previous,show c.currentStage = w.current from congrArg Node.Shared.current same]
  case sound => exact sound
  case trusted =>
    intro other member
    change out.1.currentSoundSet.testBit other = true
    by_cases early : w.previous.roundId < 0
    · rw [sound,Node.nextSound,if_pos early]
      exact concerted.trusted other member
    · have late : 0 ≤ w.previous.roundId := Int.not_lt.mp early
      rw [passed.sound]
      refine passed.core (stage ▸ late) other ?_
      rw [stage]
      exact (agreed late).2.2 member
  case agreed => exact fun late => ⟨(agreed late).1,(agreed late).2.1⟩
  case spoke =>
    refine ⟨(c.broadcast (run.params k) r).packet,rfl,rfl,?_,?_⟩
    · exact (congrArg InstalledConfig.runId crossed.config).symm
    · intro other member apart
      rw [sentSnoc,if_pos round,sent]
      refine List.mem_append_right _ (List.mem_map.mpr ⟨other,?_,rfl⟩)
      refine List.mem_filter.mpr ⟨?_,decide_eq_true apart⟩
      exact List.mem_filter.mpr ⟨List.mem_range.mpr (inside other member),members other member⟩
  case commits =>
    intro late spared kept
    have now := previous late (uncutSnoc spared) (uncutSnoc kept)
    have ripe : 0 ≤ c.previousStage.roundId := by
      rw [stage]
      omega
    obtain ⟨entry,one,named,set⟩ := passed.commits ripe
    refine ⟨m,by simp,op,by omega,entry,committed.trans one,?_,?_⟩
    · rw [named,stage,now]
      omega
    · rw [set,stage]
      exact (agreed (stage ▸ ripe)).2.1

theorem turnHalfway (h : Halfway run Q moves r k shown s w) (survivors : Survivors run Q (moves ++ [m]))
    (midround : Midround run r k shown s state) (shielded : Shielded run s) (bound : k < run.nodeCount)
    (done : run.nodeTurn r s k = .ok s') (before' : m.before = ⟨r,.turn k,s⟩)
    (after' : m.after = ⟨r,run.turnFrom (k + 1),s'⟩) (op : m.op = .turn k) :
    ∃ state', Midround run r (k + 1) shown s' state' ∧
      Halfway run Q (moves ++ [m]) r (k + 1) shown s' w := by
  obtain ⟨state',midround',turned,turn,listened⟩ := turnMirrored midround bound done
  have pushed := midround.todo k le_rfl bound
  have ended := turnEnded pushed turn
  have taken : k ∈ Q → Steps run Q r k shown w (s.nodes k) ((s.nodes k).configured (run.params k) r) := by
    intro member
    refine survivorSteps survivors.inside survivors.majority pushed midround.ready h.active member
      (shielded.guarded k bound) h.concerted (h.todo k member le_rfl) ?_
    have spared := survivors.spared m (by simp) k member
    rw [after'] at spared
    dsimp only at spared
    rw [turned.node] at spared
    exact spared
  have stood : k ∈ Q → Stood run Q (moves ++ [m]) r w k (s'.nodes k) := by
    intro member
    rw [turned.node]
    exact survivorStood survivors.inside (h.active k member) (taken member) h.concerted h.previous before' op
  -- A survivor tells the control plane at most that it is prepared.
  have quiet : k ∈ Q → ∀ event ∈ (run.advanced r k (s.nodes k)).1.controlPlaneEventOutbox,
      ¬ interruption event := by
    intro member event inside
    have steps := taken member
    rw [steps.advanced,steps.passed.outbox,steps.tuned.outbox] at inside
    have ack := (ackOwn event inside).2
    simp [interruption,ack]
  refine ⟨state',midround',?_,?_,h.active,h.concerted,?_,?_,?_,?_,?_⟩
  · intro q member touched
    rcases listened.touched q touched with old | ⟨event,inside,kind,own⟩
    · exact h.calm q member old
    · obtain ⟨raw,told,rfl⟩ := List.mem_map.mp inside
      have same : q = k := own.symm.trans (ended.own raw told)
      exact quiet (same ▸ member) raw told kind
  · intro q member q' member'
    rw [turned.last]
    exact h.latest q member q' member'
  · exact fun late kept => h.current late (uncutSnoc kept)
  · exact fun late spared kept => h.previous late (uncutSnoc spared) (uncutSnoc kept)
  · intro q member
    by_cases own : q = k
    · subst own
      exact (stood member).up.1
    · rw [(turned.others q own).node]
      exact h.running q member
  · intro q member above
    rw [(turned.others q (by omega)).node]
    exact h.todo q member (by omega)
  · intro q member below
    by_cases own : q = k
    · subst own
      exact stood member
    · rw [(turned.others q own).node]
      exact stoodSnoc (h.done q member (by omega))

end Turn

section Network

variable {item : ScheduledDelivery} {call : Packet × Nat} {packet : Packet} {j : Nat}

theorem requestedFaithful (faithful : Faithful run) :
    ∀ copy ∈ run.requested call, copy.2.packet = call.1 ∧ copy.2.dst = call.2 := by
  obtain ⟨main,extras⟩ := faithful call.1 call.2
  intro copy member
  simp only [requested,primary,repeats,variants,List.mem_append,List.mem_map,main] at member
  rcases member with (⟨_,_,rfl⟩ | ⟨_,_,rfl⟩) | ⟨extra,inside,rfl⟩
  · exact ⟨rfl,rfl⟩
  · exact ⟨rfl,rfl⟩
  · rw [extras extra inside]
    exact ⟨rfl,rfl⟩

theorem grantedFaithful {r k : Int} (faithful : Faithful run) (member : item ∈ run.grantedFrom r k call) :
    item.packet = call.1 ∧ item.dst = call.2 := by
  have asked : ∃ copy ∈ run.requested call, copy.2 = item := by
    unfold grantedFrom present booked at member
    simp only [requested,List.mem_append]
    split at member
    · split at member
      · cases member
      · obtain ⟨copy,kept,same⟩ := List.mem_map.mp member
        rcases List.mem_append.mp (List.mem_filter.mp kept).1 with first | variant
        · exact ⟨copy,Or.inl (Or.inl first),same⟩
        · exact ⟨copy,Or.inr variant,same⟩
    · obtain ⟨copy,kept,same⟩ := List.mem_map.mp member
      have among := (List.mem_filter.mp kept).1
      split at among
      · cases among
      · rcases List.mem_append.mp among with early | variant
        · rcases List.mem_append.mp early with first | again
          · exact ⟨copy,Or.inl (Or.inl (List.mem_filter.mp first).1),same⟩
          · exact ⟨copy,Or.inl (Or.inr again),same⟩
        · exact ⟨copy,Or.inr (List.mem_filter.mp variant).1,same⟩
  obtain ⟨copy,inside,rfl⟩ := asked
  exact requestedFaithful faithful copy inside

-- A packet of this round that is handed over was sent in this round.
theorem handedFresh (faithful : Faithful run) (ran : Ran run.system moves pt)
    (member : packet ∈ run.handedTo pt.round pt.cluster i) (now : packet.roundId = pt.round) :
    (packet,i) ∈ sentDuring run moves pt.round := by
  obtain ⟨item,kept,rfl⟩ := List.mem_map.mp member
  obtain ⟨inside,addressee⟩ := List.mem_filter.mp kept
  have addressee : item.dst = i := of_decide_eq_true addressee
  rw [(queuedNetwork (ranQueued ran)).2] at inside
  rcases List.mem_append.mp inside with old | new
  · obtain ⟨m,before,granted⟩ := List.mem_flatMap.mp old
    obtain ⟨call,asked,copy⟩ := List.mem_flatMap.mp granted
    have early := (ranTurning ran).earlier call (List.mem_flatMap.mpr ⟨m,before,asked⟩)
    rw [← (grantedFaithful faithful copy).1,now] at early
    exact absurd early (lt_irrefl _)
  · obtain ⟨call,sent,copy⟩ := List.mem_flatMap.mp new
    have copy : item ∈ run.grantedFrom pt.round pt.round call := by
      rw [grantedFrom,if_pos rfl]
      exact copy
    obtain ⟨same,dst⟩ := grantedFaithful faithful copy
    rw [same,← addressee,dst]
    exact sent

def reached (run : ClusterRun) (r : Nat) (s : Cluster) (i j : Nat) : Prop :=
  j = i ∨ Node.hears (s.nodes i) (run.handedTo r s i) j

theorem stoodAccepts (stood : Stood run Q moves r w q n) : n.accepts packet ↔
    n.currentSoundSet.testBit packet.srcId = true ∧ packet.runId = w.config.runId ∧ packet.roundId = r := by
  have runId : n.runId = w.config.runId := congrArg InstalledConfig.runId stood.config
  rw [Node.accepts,runId,stood.currentRound]
  exact ⟨fun h => h.2.2,fun h => ⟨stood.up.1,stood.up.2,h⟩⟩

theorem soundAlike (stood : Stood run Q moves r w i n) (stood' : Stood run Q moves r w q n') :
    n'.currentSoundSet = n.currentSoundSet := by
  rw [stood'.sound,stood.sound]
  exact Node.nextSoundSame rfl stood.agreed stood'.agreed

-- The survivors have taken their turns, and the network carries what they sent.
structure Exchanged (run : ClusterRun) (Q : Finset Nat) (moves : List (Move Point Phase)) (r : Nat)
    (w : Node.Shared) (s : Cluster) : Prop where
  inside : ∀ q ∈ Q, q < run.nodeCount
  empty : w.current.rows = ∅
  stood : ∀ q ∈ Q, Stood run Q moves r w q (s.nodes q)
  fresh : ∀ i, ∀ packet ∈ run.handedTo r s i, packet.roundId = r → (packet,i) ∈ sentDuring run moves r
  arrive : ∀ call ∈ sentDuring run moves r, call.1.srcId ∈ Q → call.2 ∈ Q →
    call.1 ∈ run.handedTo r s call.2
  alike : ∀ call ∈ sentDuring run moves r, call.1.srcId ∉ Q →
    (∀ q ∈ Q, call.1 ∈ run.handedTo r s q) ∨ ∀ q ∈ Q, call.1 ∉ run.handedTo r s q

theorem networkExchanged (h : Halfway run Q moves r run.nodeCount shown s w)
    (survivors : Survivors run Q (moves ++ [m])) (before' : m.before = ⟨r,.network,s⟩)
    (asked : consultedIn run m = sentDuring run moves r)
    (fresh : ∀ i, ∀ packet ∈ run.handedTo r s i, packet.roundId = r → (packet,i) ∈ sentDuring run moves r) :
    Exchanged run Q moves r w s := by
  have arrive := survivors.arrive m (by simp)
  have alike := survivors.alike m (by simp)
  simp only [deliveredTo,before',asked] at arrive alike
  exact ⟨survivors.inside,h.concerted.empty,fun q member => h.done q member (survivors.inside q member),
    fresh,arrive,alike⟩

theorem reachedSurvivor (h : Exchanged run Q moves r w s) (member : i ∈ Q) (other : q ∈ Q) :
    reached run r s i q := by
  by_cases own : q = i
  · exact Or.inl own
  · obtain ⟨packet,source,round,runId,sent⟩ := (h.stood q other).spoke
    have arrives := h.arrive _ (sent i member (Ne.symm own)) (source ▸ other) member
    refine Or.inr ⟨packet,arrives,(stoodAccepts (h.stood i member)).mpr ⟨?_,?_,round⟩,source⟩
    · rw [source]
      exact (h.stood i member).trusted q other
    · exact runId.trans (congrArg InstalledConfig.runId (h.stood q other).config)

theorem reachedAlike (h : Exchanged run Q moves r w s) (member : i ∈ Q) (other : q ∈ Q)
    (reached' : reached run r s i j) : reached run r s q j := by
  by_cases among : j ∈ Q
  · exact reachedSurvivor h other among
  · rcases reached' with own | ⟨packet,handed,accepts,source⟩
    · exact absurd (own ▸ member) among
    · have accepted := (stoodAccepts (h.stood i member)).mp accepts
      have all : packet ∈ run.handedTo r s q := by
        rcases h.alike _ (h.fresh i packet handed accepted.2.2) (source ▸ among) with all | none
        · exact all q other
        · exact absurd handed (none i member)
      refine Or.inr ⟨packet,all,(stoodAccepts (h.stood q other)).mpr ⟨?_,accepted.2⟩,source⟩
      rw [soundAlike (h.stood i member) (h.stood q other)]
      exact accepted.1

-- A node at the end of round `r`, that has in hand what the nodes in `reach` sent.
structure Closed (run : ClusterRun) (r : Int) (w : Node.Shared) (rowOf : Nat → Nat) (reach : Nat → Prop)
    (n : Node) : Prop where
  current : n.currentStage =
    { roundId := r
      membershipEpoch := w.config.membershipEpoch
      installedMembership := w.config.membersBitmap
      row := n.currentStage.row
      proposals := n.currentStage.proposals
      rows := ∅ }
  row : ∀ j, n.currentStage.row.testBit j = true ↔ reach j
  proposed : ∀ j, (n.currentStage.proposals.lookup j).isSome = true ↔ reach j
  payloads : ∀ j v, n.currentStage.proposals.lookup j = some v → v = run.payloadFactory j r
  previous : n.previousStage = {w.current with rows := n.previousStage.rows}
  named : ∀ j, (n.previousStage.rows.lookup j).isSome = true ↔ reach j
  rows : Rowed rowOf n

theorem closedSame {r : Int} {rowOf : Nat → Nat} {reach : Nat → Prop}
    (h : Closed run r w rowOf reach n) (h' : Closed run r w rowOf reach n') :
    n'.currentStage = n.currentStage ∧ n'.previousStage = n.previousStage := by
  have row : n'.currentStage.row = n.currentStage.row :=
    bitmapEq (fun j => Bool.eq_iff_iff.mpr ((h'.row j).trans (h.row j).symm))
  have proposals : n'.currentStage.proposals = n.currentStage.proposals :=
    Dict.lookupSame h.proposed h'.proposed h.payloads h'.payloads
  have rows : n'.previousStage.rows = n.previousStage.rows := Dict.lookupSame h.named h'.named h.rows h'.rows
  refine ⟨?_,?_⟩
  · exact h'.current.trans (by rw [row,proposals,← h.current])
  · exact h'.previous.trans (by rw [rows,← h.previous])

theorem stoodClosed {packets : List Packet} {rowOf : Nat → Nat} (stood : Stood run Q moves r w i n)
    (heard : Node.Heard n packets n') (live : Live run r n') (rowed : Rowed rowOf n')
    (empty : w.current.rows = ∅) :
    Closed run r w rowOf (fun j => j = i ∨ Node.hears n packets j) n' := by
  obtain ⟨c,config,current⟩ := stood.current
  have filed := stood.previous
  obtain ⟨current',previous',row,proposals,rows⟩ := heard
  constructor
  case current =>
    rw [current']
    dsimp only
    rw [current]
    dsimp only [Node.newCurrentStage]
    rw [← config]
    rfl
  case row =>
    intro j
    rw [row,current]
    change (bit i).testBit j = true ∨ _ ↔ _
    rw [testBitBit]
    simp [eq_comm]
  case proposed =>
    intro j
    rw [proposals,current]
    change ((Finmap.singleton i _ : Map Nat String).lookup j).isSome = true ∨ _ ↔ _
    rw [Dict.lookupSingleton]
    by_cases own : j = i
    · simp [own]
    · simp [own]
  case payloads => exact live.current.proposals
  case previous =>
    rw [previous',filed]
    rfl
  case named =>
    intro j
    rw [rows,filed]
    change ((w.current.rows.insert i w.current.row).lookup j).isSome = true ∨ _ ↔ _
    rw [Node.insertedSome,empty]
    simp [eq_comm]
  case rows => exact rowed

theorem exchangedUp (h : Exchanged run Q moves r w s) (member : q ∈ Q) :
    up ((run.advanceNetwork r s).nodes q) := by
  have kept := networkUndelivered run r s q
  exact ⟨kept.status.trans (h.stood q member).up.1,kept.state.trans (h.stood q member).up.2⟩

theorem exchangedClosed (h : Exchanged run Q moves r w s)
    (opened : Opened run (r + 1) (run.advanceNetwork r s)) (member : q ∈ Q) (lead : i ∈ Q) :
    Closed run r w (rowsAt (run.advanceNetwork r s)) (reached run r s i)
      ((run.advanceNetwork r s).nodes q) := by
  have stood := h.stood q member
  have alike : ∀ j, reached run r s q j ↔ reached run r s i j := fun j =>
    ⟨reachedAlike h member lead,reachedAlike h lead member⟩
  obtain ⟨pipelined,rowed⟩ := opened.nodes q (h.inside q member) (exchangedUp h member)
  have heard := Node.receiveAllHeard (s.nodes q) (run.handedTo r s q)
  rw [← advanceNetworkAt] at heard
  have live : Live run r ((run.advanceNetwork r s).nodes q) := by
    rcases pipelined with fresh | live
    · have early := fresh.current
      obtain ⟨c,_,current⟩ := stood.current
      rw [heard.current,current] at early
      exact absurd early (by simp [Node.newCurrentStage])
    · simpa using live
  have own := stoodClosed stood heard live rowed h.empty
  exact ⟨own.current,fun j => (own.row j).trans (alike j),fun j => (own.proposed j).trans (alike j),
    own.payloads,own.previous,fun j => (own.named j).trans (alike j),own.rows⟩

theorem exchangedShared (h : Exchanged run Q moves r w s)
    (opened : Opened run (r + 1) (run.advanceNetwork r s)) (member : q ∈ Q) (lead : i ∈ Q) :
    ((run.advanceNetwork r s).nodes q).shared = ((run.advanceNetwork r s).nodes i).shared := by
  obtain ⟨current,previous⟩ :=
    closedSame (exchangedClosed h opened lead lead) (exchangedClosed h opened member lead)
  have here := h.stood q member
  have there := h.stood i lead
  have kept := networkUndelivered run r s
  simp only [Node.shared,Node.Shared.mk.injEq,(kept q).sound,(kept i).sound,(kept q).config,
    (kept i).config,(kept q).pending,(kept i).pending,(kept q).state,(kept i).state,
    (kept q).mailbox,(kept i).mailbox,(kept q).irq,(kept i).irq]
  exact ⟨soundAlike there here,current,previous,here.config.trans there.config.symm,
    here.up.2.trans there.up.2.symm,here.pending.trans there.pending.symm,
    here.mailbox.trans there.mailbox.symm,here.irq.trans there.irq.symm⟩

theorem exchangedConcerted (h : Exchanged run Q moves r w s)
    (concerted : Node.Concerted run.nodeCount Q w) (opened : Opened run (r + 1) (run.advanceNetwork r s))
    (signed : ∀ j < run.nodeCount, SignedStages j ((run.advanceNetwork r s).nodes j)) (lead : i ∈ Q) :
    Node.Concerted run.nodeCount Q ((run.advanceNetwork r s).nodes i).shared := by
  have shut := exchangedClosed h opened lead lead
  have kept := networkUndelivered run r s i
  have row : ∀ q ∈ Q, rowsAt (run.advanceNetwork r s) q = w.current.row := by
    intro q member
    rw [rowsAt,(exchangedClosed h opened member lead).previous]
  generalize run.advanceNetwork r s = s' at *
  constructor
  case empty =>
    change (s'.nodes i).currentStage.rows = ∅
    rw [shut.current]
  case trusted =>
    intro q member
    change (s'.nodes i).currentSoundSet.testBit q = true
    rw [kept.sound]
    exact (h.stood i lead).trusted q member
  case collected => exact fun _ q member => (shut.row q).mpr (reachedSurvivor h lead member)
  case named =>
    intro late q member
    change 0 ≤ (s'.nodes i).previousStage.roundId at late
    change (s'.nodes i).previousStage.row.testBit q = true
    rw [shut.previous] at late ⊢
    exact concerted.collected late q member
  case told =>
    intro _ q member
    obtain ⟨x,held⟩ := Option.isSome_iff_exists.mp ((shut.named q).mpr (reachedSurvivor h lead member))
    have value := (shut.rows q x held).trans (row q member)
    change (s'.nodes i).previousStage.rows.lookup q = some (rowsAt s' i)
    rw [row i lead,held,value]
  case valid =>
    intro j inside x held
    have value : x = (s'.nodes j).previousStage.row := shut.rows j x held
    obtain ⟨some,none⟩ := (signed j inside).previous
    by_cases early : (s'.nodes j).previousStage.roundId < 0
    · exact Or.inl (value.trans (none early))
    · exact Or.inr (value ▸ some (Int.not_lt.mp early))

theorem networkAbreast (h : Halfway run Q moves r run.nodeCount shown s w)
    (survivors : Survivors run Q (moves ++ [m])) (before' : m.before = ⟨r,.network,s⟩)
    (asked : consultedIn run m = sentDuring run moves r)
    (fresh : ∀ i, ∀ packet ∈ run.handedTo r s i, packet.roundId = r → (packet,i) ∈ sentDuring run moves r)
    (opened : Opened run (r + 1) (run.advanceNetwork r s))
    (signed : ∀ i < run.nodeCount, SignedStages i ((run.advanceNetwork r s).nodes i)) :
    ∃ w', Abreast run Q (moves ++ [m]) (r + 1) (run.advanceNetwork r s) w' := by
  obtain ⟨lead,leads⟩ : Q.Nonempty := Finset.card_pos.mp (by have := survivors.majority; omega)
  have exchanged := networkExchanged h survivors before' asked fresh
  have shut := exchangedClosed exchanged opened leads leads
  have controlPlane : (run.advanceNetwork r s).controlPlane = s.controlPlane := by rw [watchIs]
  have latest : (run.advanceNetwork r s).lastControlPlaneUpdates = s.lastControlPlaneUpdates := by rw [watchIs]
  refine ⟨((run.advanceNetwork r s).nodes lead).shared,fun q member => exchangedUp exchanged member,?_,?_,
    fun q member => exchangedShared exchanged opened member leads,
    exchangedConcerted exchanged h.concerted opened signed leads,?_,?_⟩
  · rw [controlPlane]
    exact h.calm
  · rw [latest]
    exact h.latest
  · intro _
    change ((run.advanceNetwork r s).nodes lead).currentStage.roundId = _
    rw [shut.current]
    push_cast
    omega
  · intro late spared
    change ((run.advanceNetwork r s).nodes lead).previousStage.roundId = _
    rw [shut.previous]
    have current := h.current (by omega) (uncutSnoc spared)
    dsimp only
    push_cast
    omega

end Network

section Run

def Surviving (run : ClusterRun) (Q : Finset Nat) (moves : List (Move Point Phase)) (pt : Point) : Prop :=
  match pt.phase with
  | .control => ∃ w, Abreast run Q moves pt.round pt.cluster w
  | .turn k => k < run.nodeCount ∧ ∃ shown state w, Midround run pt.round k shown pt.cluster state ∧
      Halfway run Q moves pt.round k shown pt.cluster w
  | .network => ∃ shown state w, Midround run pt.round run.nodeCount shown pt.cluster state ∧
      Halfway run Q moves pt.round run.nodeCount shown pt.cluster w

theorem survivingFrom (bound : k ≤ run.nodeCount) (midround : Midround run r k shown s state)
    (h : Halfway run Q moves r k shown s w) : Surviving run Q moves ⟨r,run.turnFrom k,s⟩ := by
  unfold turnFrom
  split
  · rename_i below
    exact ⟨below,shown,state,w,midround,h⟩
  · have last : k = run.nodeCount := by omega
    subst last
    exact ⟨shown,state,w,midround,h⟩

theorem initialAbreast (run : ClusterRun) (inside : ∀ q ∈ Q, q < run.nodeCount) :
    ∃ w, Abreast run Q [] 0 (Cluster.init run) w := by
  refine ⟨(Node.init (run.params 0)).shared,fun _ _ => ⟨rfl,rfl⟩,?_,fun _ _ _ _ => rfl,fun _ _ => rfl,?_,
    fun late => absurd late (by omega),fun late => absurd late (by omega)⟩
  · intro q _ touched
    rcases touched with collecting | episode | queued
    · exact absurd collecting (Finset.notMem_empty q)
    · exact absurd episode (Finset.notMem_empty q)
    · exact absurd queued (Finset.notMem_empty q)
  · refine ⟨rfl,?_,fun late => ?_,fun late => ?_,fun late => ?_,?_⟩
    · intro q member
      change (bit run.nodeCount - 1).testBit q = true
      rw [fullBitmap]
      exact decide_eq_true (inside q member)
    · exact absurd late (by simp [Node.shared,Node.init])
    · exact absurd late (by simp [Node.shared,Node.init])
    · exact absurd late (by simp [Node.shared,Node.init])
    · intro i _ x held
      simp [Node.shared,Node.init] at held

theorem concertSnoc (h : InConcert run Q moves r)
    (running : ∀ q ∈ Q, (m.after.cluster.nodes q).status = .running) :
    InConcert run Q (moves ++ [m]) r := by
  refine ⟨?_,?_⟩
  · intro x member q inside
    rcases List.mem_append.mp member with old | new
    · exact h.running x old q inside
    · rw [List.mem_singleton.mp new,running q inside]
      exact NodeStatus.noConfusion
  · intro r' early before now
    obtain ⟨commitSet,all⟩ := h.commits r' early (uncutSnoc before) (uncutSnoc now)
    exact ⟨commitSet,fun q inside => commitsAtSnoc (all q inside)⟩

theorem concertLater (h : InConcert run Q moves r)
    (last : 1 < r → uncut moves (r - 1) → uncut moves r →
      ∃ commitSet, ∀ q ∈ Q, commitsAt run moves q (r - 2) commitSet) : InConcert run Q moves (r + 1) := by
  refine ⟨h.running,?_⟩
  intro r' early before now
  by_cases new : r' + 2 = r
  · subst new
    exact last (by omega) before now
  · exact h.commits r' (by omega) before now

theorem stepConcert (faithful : Faithful run) (ran : Ran run.system moves pt)
    (step : run.system.step pt phase pt') (survivors : Survivors run Q (moves ++ [⟨pt,phase,pt'⟩]))
    (h : Surviving run Q moves pt) (concert : InConcert run Q moves pt.round) :
    Surviving run Q (moves ++ [⟨pt,phase,pt'⟩]) pt' ∧
      InConcert run Q (moves ++ [⟨pt,phase,pt'⟩]) pt'.round := by
  have mirrored := ranMirrored ran
  have later := Ran.move ran step
  cases stepCases step with
  | @control r s s' done =>
    obtain ⟨w,abreast⟩ := h
    obtain ⟨cp,state,boundary⟩ := mirrored
    have attentive : ∀ q ∈ Q, Attentive state q (s.nodes q) := by
      intro q member
      obtain ⟨_,_,boundary',attends⟩ := ranAttending (survivors.inside q member) ran
      exact boundaryUnique boundary boundary' ▸ attends
    obtain ⟨shown,w',midround,halfway⟩ :=
      controlHalfway (m := ⟨⟨r,.control,s⟩,.control,⟨r,run.turnFrom 0,s'⟩⟩) abreast
        (survivorsBefore survivors) boundary (boundaryStocked boundary (ranStocked ran)) attentive done
        rfl rfl rfl
    exact ⟨survivingFrom (Nat.zero_le _) midround halfway,concertSnoc concert halfway.running⟩
  | turn done =>
    obtain ⟨bound,shown,state,w,midround,halfway⟩ := h
    obtain ⟨state',midround',halfway'⟩ :=
      turnHalfway halfway survivors midround (ranShielded ran) bound done rfl rfl rfl
    exact ⟨survivingFrom bound midround' halfway',concertSnoc concert halfway'.running⟩
  | @network r s =>
    obtain ⟨shown,state,w,midround,halfway⟩ := h
    obtain ⟨w',abreast⟩ := networkAbreast halfway survivors rfl (consultedAt later rfl).1
      (fun i packet member => handedFresh faithful ran member) (ranStaged faithful later)
      (ranSigned faithful later)
    have all := concertSnoc (m := ⟨⟨r,.network,s⟩,.network,⟨r + 1,.control,run.advanceNetwork r s⟩⟩)
      concert (fun q member => (abreast.up q member).1)
    refine ⟨⟨w',abreast⟩,concertLater all ?_⟩
    intro late before now
    refine ⟨w.previous.row,fun q member => commitsAtSnoc ?_⟩
    exact (halfway.done q member (survivors.inside q member)).commits late (uncutSnoc before) (uncutSnoc now)

theorem ranConcert (faithful : Faithful run) (ran : Ran run.system moves pt)
    (survivors : Survivors run Q moves) :
    Surviving run Q moves pt ∧ InConcert run Q moves pt.round := by
  induction ran with
  | start h =>
    cases h
    exact ⟨initialAbreast run survivors.inside,by simp,fun r early => absurd early (by simp)⟩
  | move upTo step ih =>
    obtain ⟨surviving,concert⟩ := ih (survivorsBefore survivors)
    exact stepConcert faithful upTo step survivors surviving concert

theorem survivorsInConcert (faithful : Faithful run) (ran : Ran run.system moves pt)
    (survivors : Survivors run Q moves) : InConcert run Q moves pt.round :=
  (ranConcert faithful ran survivors).2

end Run

-- Nothing from node 2 gets through to anybody, and nothing gets through to it.
def cutOff : ClusterRun :=
  { nodeCount := 3
    rounds := 4
    timing := ⟨1,0,0,0,3,0,0,0⟩
    payloadFactory := fun _ _ => ""
    networkFaultModel := fun packet dst =>
      {deliverRound := if packet.srcId = 2 ∨ dst = 2 then none else some packet.roundId}
    nodeFaultModel := fun _ _ => true
    hash := ⟨fun _ => "",fun _ _ => ""⟩ }

theorem survivorsInConcertOnce :
    ∃ moves pt, Ran cutOff.system moves pt ∧ pt.round = 4 ∧
      (∃ m ∈ moves, (m.after.cluster.nodes 2).status = .halted) ∧
      InConcert cutOff {0,1} moves pt.round := by
  have faithful : Faithful cutOff := fun _ _ => ⟨rfl,by simp [cutOff]⟩
  have value : (cutOff.walk 4).toOption.map (fun result =>
      decide ((result.2.round = 4 ∧ ∃ m ∈ result.1, (m.after.cluster.nodes 2).status = .halted) ∧
        (∀ m ∈ result.1, ∀ q ∈ ({0,1} : Finset Nat), (m.after.cluster.nodes q).status ≠ .crashed) ∧
        (∀ m ∈ result.1, ∀ call ∈ consultedIn cutOff m, call.1.srcId ∈ ({0,1} : Finset Nat) →
          call.2 ∈ ({0,1} : Finset Nat) → call.1 ∈ deliveredTo cutOff m call.2) ∧
        ∀ m ∈ result.1, ∀ call ∈ consultedIn cutOff m, call.1.srcId ∉ ({0,1} : Finset Nat) →
          (∀ q ∈ ({0,1} : Finset Nat), call.1 ∈ deliveredTo cutOff m q) ∨
            ∀ q ∈ ({0,1} : Finset Nat), call.1 ∉ deliveredTo cutOff m q)) = some true := by
    decide +kernel
  obtain ⟨moves,pt,ran,found⟩ := walkFound value
  obtain ⟨⟨round,halted⟩,spared,arrive,alike⟩ := of_decide_eq_true found
  have survivors : Survivors cutOff {0,1} moves := ⟨by decide,by decide,spared,arrive,alike⟩
  exact ⟨moves,pt,ran,round,halted,survivorsInConcert faithful ran survivors⟩

end ClusterRun
end Syncons
