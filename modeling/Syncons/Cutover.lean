import Syncons.Mirror

/-! Reconfigurations of the cluster, round by round: when a pending config is
committed, what the nodes are pushed, and the round in which everybody switches. -/
namespace Syncons
open Outcome Runs
open OnlineRejoinControlPlane (inState Coherent Listened Called committedConfig)

def PendingConfig.installed (pending : PendingConfig) : InstalledConfig :=
  ⟨pending.membershipEpoch,pending.membersBitmap,pending.runId⟩

namespace ClusterRun

variable {run : ClusterRun} {pt pt' : Point} {s s' : Cluster} {r i k : Nat} {phase : Phase}
  {moves pre post : List (Move Point Phase)} {m x : Move Point Phase}
  {before mid after : OnlineRejoinControlPlane} {state midState shown : ControlPlaneState}
  {committed : PendingConfig} {old : InstalledConfig}

section Control

-- The advance of a control phase turns the pending config into a committed one.
def CommitsIn (run : ClusterRun) (committed : PendingConfig) (m : Move Point Phase) : Prop :=
  m.op = .control ∧ committed.status = .committed ∧
  m.before.cluster.controlPlane.pendingFuture ≠ some committed ∧
  ∃ mid, m.before.cluster.controlPlane.advanceToTime (run.repairLogSnapshots m.before.cluster)
      (run.roundStartNs m.before.round) run.nodeCount = .ok mid ∧
    mid.pendingFuture = some committed

theorem ensurePending {cp cp' : OnlineRejoinControlPlane} {count : Nat}
    (done : cp.ensureState count = .ok cp') :
    cp'.pendingFuture = cp.pendingFuture ∧ cp'.prepareAcks = cp.prepareAcks ∧
    cp'.scheduled = cp.scheduled ∧ (cp.currentState.isSome → cp' = cp) := by
  unfold OnlineRejoinControlPlane.ensureState at done
  split at done
  · cases done
    exact ⟨rfl,rfl,rfl,fun _ => rfl⟩
  · rename_i none
    obtain ⟨state,_,last⟩ := bindOk.mp done
    cases last
    exact ⟨rfl,rfl,rfl,by simp [none]⟩

theorem callCases {snapshots : List RepairSnapshot} {r : Int}
    (h : Called snapshots r mid midState after shown) :
    after.pendingFuture = mid.pendingFuture ∧ shown.installedConfig = midState.installedConfig ∧
      (∀ future ∈ mid.pendingFuture, future.status = .committed → r < future.effectiveRound) ∨
    after.pendingFuture = none ∧ ∃ future, mid.pendingFuture = some future ∧
      future.status = .committed ∧ future.effectiveRound ≤ r ∧
      shown.installedConfig = ⟨future.membershipEpoch,future.membersBitmap,future.runId⟩ := by
  cases h with
  | quiet early rebuilt => exact Or.inl ⟨rfl,rfl,early⟩
  | cutover pending committed due rebuilt =>
    exact Or.inr ⟨(OnlineRejoinControlPlane.beganPending _ _).1,_,pending,committed,due,rfl⟩

theorem callScheduled {snapshots : List RepairSnapshot} {r : Int}
    (h : Called snapshots r mid midState after shown) : ∀ item ∈ after.scheduled, item ∈ mid.scheduled := by
  intro item member
  cases h with
  | quiet early rebuilt => exact member
  | @cutover future pending committed due logs rebuilt =>
    have cleared : item ∈ (mid.afterCutover r future).scheduled := by
      rw [← OnlineRejoinControlPlane.beganScheduled]
      exact member
    simp only [OnlineRejoinControlPlane.afterCutover,OnlineRejoinControlPlane.clearEpisodeState] at cleared
    split at cleared
    · exact cleared
    · exact List.mem_of_mem_filter cleared

theorem controlCommits {r : Int} (h : Controlled run r s before state mid midState after shown)
    (called : mid.pendingFuture = some committed) (status : committed.status = .committed)
    (new : before.pendingFuture ≠ some committed) :
    ∃ prepared item, before.pendingFuture = some prepared ∧ prepared.status = .prepared ∧
      before.futureMembers prepared ⊆ before.prepareAcks ∧ item ∈ before.scheduled ∧
      item.action = .commitOnlineRejoin ∧ committed = before.committedConfig prepared item.timeNs := by
  obtain ⟨_,move,_⟩ := h.first
  cases move with
  | kept pending acks => exact absurd (pending.symm.trans called) new
  | prepared idle pending prepared acks =>
    cases Option.some.inj (pending.symm.trans called)
    simp [prepared] at status
  | committed pending prepared acked planned kind due next =>
    exact ⟨_,_,pending,prepared,acked,planned,kind,Option.some.inj (called.symm.trans next)⟩
  | aborted pending prepared next => simp [next] at called

theorem controlAwaits {r : Int} (h : Controlled run r s before state mid midState after shown)
    (held : before.pendingFuture = some committed) (status : committed.status = .committed) :
    after.pendingFuture = some committed ∧ shown.installedConfig = state.installedConfig ∧
      r < committed.effectiveRound ∨
    after.pendingFuture = none ∧ committed.effectiveRound ≤ r ∧
      shown.installedConfig = ⟨committed.membershipEpoch,committed.membersBitmap,committed.runId⟩ := by
  obtain ⟨evolved,move,_⟩ := h.first
  have kept : mid.pendingFuture = some committed := by
    cases move with
    | kept pending acks => exact pending.trans held
    | prepared idle pending prepared acks => simp [idle] at held
    | committed pending prepared acked planned kind due next =>
      cases Option.some.inj (pending.symm.trans held)
      simp [prepared] at status
    | aborted pending prepared next =>
      cases Option.some.inj (pending.symm.trans held)
      simp [prepared] at status
  rcases callCases h.second with ⟨same,installed,early⟩ | ⟨none,future,pending,_,due,installed⟩
  · exact Or.inl ⟨same.trans kept,installed.trans evolved.installed,early committed kept status⟩
  · cases Option.some.inj (pending.symm.trans kept)
    exact Or.inr ⟨none,due,installed⟩

end Control

section Punctual

def Punctual (run : ClusterRun) (pt : Point) : Prop :=
  ∀ item ∈ pt.cluster.controlPlane.scheduled, item.action = .commitOnlineRejoin →
    run.roundStartNs (if pt.phase = .control then pt.round - 1 else pt.round) ≤ item.timeNs

theorem ranPunctual (prompt : 0 ≤ run.timing.cpDecisionDelayNs) (ran : Ran run.system moves pt) :
    Punctual run pt := by
  induction ran with
  | start h =>
    cases h
    intro item member
    simp [Cluster.init] at member
  | @move moves at' op next upTo h ih =>
    have mirrored := ranMirrored upTo
    cases stepCases h with
    | control done =>
      obtain ⟨cp,state,boundary⟩ := mirrored
      obtain ⟨mid,midState,shown,controlled,_⟩ := controlMirrored boundary done
      obtain ⟨_,_,_,later⟩ := controlled.first
      intro item member kind
      have due := later item (callScheduled controlled.second item member) kind
      rw [if_neg turnFromOpen]
      exact due.le
    | @turn r k s s' done =>
      obtain ⟨bound,shown,state,midround⟩ := mirrored
      obtain ⟨_,_,_,_,listened⟩ := turnMirrored midround bound done
      intro item member kind
      rw [if_neg turnFromOpen]
      rcases listened.scheduled item member with was | ⟨event,inside,ack,time⟩
      · exact ih item was kind
      · obtain ⟨raw,_,rfl⟩ := List.mem_map.mp inside
        have now : (run.forwarded r raw).availableAtNs = run.roundStartNs r := by
          have other : raw.kind = .prepareAck := ack
          simp [forwarded,other]
        rw [midround.sound.timing,now] at time
        change run.roundStartNs r ≤ _
        omega
    | @network r s =>
      intro item member kind
      have old := ih item member kind
      simpa using old

end Punctual

section Installed

def installedAt (pt : Point) : Option InstalledConfig := pt.cluster.controlPlane.installedConfig

theorem boundaryInstalled {r : Int} (boundary : Boundary run r s before state)
    (held : s.controlPlane.installedConfig = some old) : state.installedConfig = old := by
  simp only [OnlineRejoinControlPlane.installedConfig,Option.map_eq_some_iff] at held
  obtain ⟨now,current,rfl⟩ := held
  have same := (ensurePending boundary.ready.1).2.2.2 (by simp [current])
  have shown : some now = some state := current.symm.trans (same ▸ boundary.coherent.tracked.current)
  cases shown
  rfl

theorem stepKeeps (mirrored : Mirrored run m.before) (step : run.system.step m.before m.op m.after)
    (other : m.op ≠ .control) : installedAt m.after = installedAt m.before ∧
      m.after.cluster.controlPlane.pendingFuture = m.before.cluster.controlPlane.pendingFuture := by
  obtain ⟨before,op,after⟩ := m
  cases stepCases step with
  | control done => exact absurd rfl other
  | turn done =>
    obtain ⟨bound,shown,state,midround⟩ := mirrored
    obtain ⟨_,next,_,_,listened⟩ := turnMirrored midround bound done
    exact ⟨(midroundInstalled next).trans (midroundInstalled midround).symm,listened.pending⟩
  | network => exact ⟨rfl,rfl⟩

def Onward (a b : Point) : Prop :=
  a.round ≤ b.round ∧ ∀ first ∈ installedAt a, ∃ last ∈ installedAt b, first.runId ≤ last.runId

theorem stepOnward (mirrored : Mirrored run m.before) (step : run.system.step m.before m.op m.after) :
    Onward m.before m.after := by
  by_cases control : m.op = .control
  · obtain ⟨before,op,after⟩ := m
    cases control
    cases stepCases step with
    | control done =>
      obtain ⟨cp,state,boundary⟩ := mirrored
      obtain ⟨mid,midState,shown,controlled,_,midround⟩ := controlMirrored boundary done
      refine ⟨le_rfl,?_⟩
      intro first held
      refine ⟨_,midroundInstalled midround,?_⟩
      rw [← boundaryInstalled boundary held]
      rcases controlInstalled controlled with kept | grown
      · rw [kept]
      · omega
  · obtain ⟨same,_⟩ := stepKeeps mirrored step control
    refine ⟨?_,fun first held => ⟨first,same ▸ held,le_rfl⟩⟩
    obtain ⟨before,op,after⟩ := m
    cases stepCases step with
    | control done => exact absurd rfl control
    | turn done => exact le_rfl
    | network => exact Nat.le_succ _

theorem ranOnward (ran : Ran run.system (pre ++ m :: post) pt) : Onward m.before pt := by
  have whole := @ranOnwards _ _ _ _ _ _ _ Onward (fun _ => ⟨le_rfl,fun first held => ⟨first,held,le_rfl⟩⟩)
    (fun _ _ _ h k => ⟨h.1.trans k.1,fun first held => by
      obtain ⟨next,between,up⟩ := h.2 first held
      obtain ⟨last,reached,more⟩ := k.2 next between
      exact ⟨last,reached,up.trans more⟩⟩) ran
    (fun a x b split upTo step => stepOnward (ranMirrored upTo) step)
  obtain ⟨upTo,step,_⟩ := ranAt ran
  obtain ⟨rounds,grown⟩ := stepOnward (ranMirrored upTo) step
  refine ⟨rounds.trans whole.1,?_⟩
  intro first held
  obtain ⟨next,between,up⟩ := grown first held
  obtain ⟨last,reached,more⟩ := whole.2 next between
  exact ⟨last,reached,up.trans more⟩

end Installed

section Turns

-- A node that takes its turn ends it with the installed config, and sends with its run id.
theorem turnInstalled (mirrored : Mirrored run m.before) (step : run.system.step m.before m.op m.after)
    (own : m.op = .turn i) :
    ∃ config, installedAt m.before = some config ∧
      (∀ n ∈ run.turning i m, (m.after.cluster.nodes i).config = config) ∧
      ∀ sent ∈ (run.advanced m.before.round i (m.before.cluster.nodes i)).2.outbound,
        sent.packet.runId = config.runId := by
  obtain ⟨before,op,after⟩ := m
  cases own
  cases stepCases step with
  | @turn r i s s' done =>
    obtain ⟨bound,shown,state,midround⟩ := mirrored
    obtain ⟨_,_,turned,turn,_⟩ := turnMirrored midround bound done
    refine ⟨_,midroundInstalled midround,?_⟩
    have nodeIs := turned.node
    dsimp only at turn nodeIs ⊢
    generalize run.advanced r i (s.nodes i) = out at turn nodeIs
    obtain ⟨n',result⟩ := out
    rw [nodeIs]
    cases turn with
    | down off up =>
      refine ⟨?_,by simp⟩
      intro n taking
      obtain ⟨_,shown',rfl⟩ := turningSome taking
      rcases Node.crashCases (run.params i) (s.nodes i) r with ⟨_,crashed⟩ | ⟨other,_⟩
      · refine absurd ?_ shown'
        simp [faulted,off,crashed,Node.masked]
      · exact absurd up other
    | idle spared inactive tuned => exact ⟨fun _ _ => tuned.mirrors.1,by simp⟩
    | took spared active tuned crossed =>
      refine ⟨fun _ _ => crossed.config.trans tuned.mirrors.1,?_⟩
      intro sent member
      have runId := congrArg InstalledConfig.runId tuned.mirrors.1
      have verdict := crossed.verdict
      cases verdict with
      | skip early status sound outbox =>
        cases Option.some.inj member
        exact runId
      | halt round status sound record outbox => simp at member
      | commit judged status sound outbox =>
        cases Option.some.inj member
        exact runId

def Announced (run : ClusterRun) (pt : Point) : Prop :=
  ∀ i < run.nodeCount, ∀ u ∈ pt.cluster.lastControlPlaneUpdates i,
    u.pendingConfig = pt.cluster.controlPlane.pendingFuture

theorem ranAnnounced (ran : Ran run.system moves pt) : Announced run pt := by
  induction ran with
  | start h =>
    cases h
    intro i _ u held
    simp [Cluster.init] at held
  | @move moves at' op next upTo h ih =>
    have mirrored := ranMirrored upTo
    cases stepCases h with
    | control done =>
      obtain ⟨cp,state,boundary⟩ := mirrored
      obtain ⟨mid,midState,shown,controlled,_,midround⟩ := controlMirrored boundary done
      intro i bound u held
      have latest := (midround.todo i (Nat.zero_le _) bound).latest
      cases Option.some.inj (latest.symm.trans held)
      exact controlled.called.configured.shown
    | turn done =>
      obtain ⟨bound,shown,state,midround⟩ := mirrored
      obtain ⟨_,_,turned,_,listened⟩ := turnMirrored midround bound done
      intro i inside u held
      change u ∈ _ at held
      rw [turned.last] at held
      exact (ih i inside u held).trans listened.pending.symm
    | network => exact ih

end Turns

section Switch

/- One committed reconfiguration over a run: `committed` comes into being in the move
`m`, between the moves `pre` and `post`. -/
structure SynchronousCutover (run : ClusterRun) (pre : List (Move Point Phase)) (m : Move Point Phase)
    (post : List (Move Point Phase)) (committed : PendingConfig) : Prop where
  early : m.before.round < committed.effectiveRound
  pushed : ∀ i < run.nodeCount, ∃ u ∈ (m.after.cluster.nodes i).pendingControlPlaneUpdate,
    u.pendingConfig = some committed
  switched : ∃ old : InstalledConfig, installedAt m.after = some old ∧ old.runId < committed.runId ∧
    (∀ x ∈ post, x.op = .control →
      (x.before.round < committed.effectiveRound → installedAt x.after = some old) ∧
      (x.before.round = committed.effectiveRound →
        installedAt x.before = some old ∧ installedAt x.after = some committed.installed)) ∧
    ∀ x ∈ post, ∀ i, (run.turning i x).isSome → x.before.round < committed.effectiveRound →
      (x.after.cluster.nodes i).config = old
  nodes : ∀ x ∈ pre ++ m :: post, ∀ i, (run.turning i x).isSome →
    (x.before.round < committed.effectiveRound → (x.after.cluster.nodes i).runId < committed.runId) ∧
    (x.before.round = committed.effectiveRound → (x.after.cluster.nodes i).config = committed.installed)
  packets : ∀ x ∈ pre ++ m :: post, ∀ i, x.op = .turn i →
    ∀ sent ∈ (run.advanced x.before.round i (x.before.cluster.nodes i)).2.outbound,
      (x.before.round < committed.effectiveRound → sent.packet.runId < committed.runId) ∧
      (committed.effectiveRound ≤ x.before.round → committed.runId ≤ sent.packet.runId)

def Awaiting (committed : PendingConfig) (old : InstalledConfig) (pt : Point) : Prop :=
  pt.cluster.controlPlane.pendingFuture = some committed ∧ installedAt pt = some old ∧
  if pt.phase = .control then (pt.round : Int) ≤ committed.effectiveRound
  else pt.round < committed.effectiveRound

def Switched (committed : PendingConfig) (pt : Point) : Prop :=
  (∃ config ∈ installedAt pt, committed.runId ≤ config.runId ∧
    (committed.effectiveRound = pt.round → config = committed.installed)) ∧
  if pt.phase = .control then committed.effectiveRound < pt.round else committed.effectiveRound ≤ pt.round

theorem awaitingStep (status : committed.status = .committed) (mirrored : Mirrored run m.before)
    (step : run.system.step m.before m.op m.after) (h : Awaiting committed old m.before) :
    m.before.round < committed.effectiveRound ∧ Awaiting committed old m.after ∨
    m.op = .control ∧ m.before.round = committed.effectiveRound ∧
      installedAt m.after = some committed.installed ∧ Switched committed m.after := by
  obtain ⟨held,installed,due⟩ := h
  by_cases control : m.op = .control
  · obtain ⟨before,op,after⟩ := m
    cases control
    cases stepCases step with
    | @control r s s' done =>
      obtain ⟨cp,state,boundary⟩ := mirrored
      obtain ⟨mid,midState,shown,controlled,_,midround⟩ := controlMirrored boundary done
      obtain ⟨pending,_⟩ := ensurePending boundary.ready.1
      have reached := midroundInstalled midround
      rcases controlAwaits controlled (pending.trans held) status with
        ⟨kept,unchanged,early⟩ | ⟨_,late,switched⟩
      · refine Or.inl ⟨early,kept,reached.trans ?_,by rw [if_neg turnFromOpen]; exact early⟩
        rw [unchanged,boundaryInstalled boundary installed]
      · have now : committed.effectiveRound = r := le_antisymm late due
        refine Or.inr ⟨rfl,now.symm,reached.trans (congrArg some switched),
          ⟨_,reached,by rw [switched],fun _ => switched⟩,?_⟩
        rw [if_neg turnFromOpen]
        exact late
  · obtain ⟨config,pending⟩ := stepKeeps mirrored step control
    obtain ⟨before,op,after⟩ := m
    cases stepCases step with
    | control done => exact absurd rfl control
    | @turn r k s s' done =>
      have early : r < committed.effectiveRound := due
      exact Or.inl ⟨early,pending.trans held,config.trans installed,by rw [if_neg turnFromOpen]; exact early⟩
    | @network r s =>
      have early : r < committed.effectiveRound := due
      refine Or.inl ⟨early,pending.trans held,config.trans installed,?_⟩
      change ((r + 1 : Nat) : Int) ≤ committed.effectiveRound
      omega

theorem switchedStep (mirrored : Mirrored run m.before) (step : run.system.step m.before m.op m.after)
    (h : Switched committed m.before) : Switched committed m.after := by
  obtain ⟨⟨config,installed,grown,exact'⟩,late⟩ := h
  obtain ⟨_,onward⟩ := stepOnward mirrored step
  obtain ⟨config',installed',more⟩ := onward config installed
  by_cases control : m.op = .control
  · obtain ⟨before,op,after⟩ := m
    cases control
    cases stepCases step with
    | @control r s s' done =>
      have after : committed.effectiveRound < r := late
      refine ⟨⟨config',installed',grown.trans more,fun now => absurd now ?_⟩,?_⟩
      · exact after.ne
      · rw [if_neg turnFromOpen]
        exact after.le
  · obtain ⟨same,_⟩ := stepKeeps mirrored step control
    obtain ⟨before,op,after⟩ := m
    cases stepCases step with
    | control done => exact absurd rfl control
    | turn done =>
      refine ⟨⟨config,same.trans installed,grown,exact'⟩,?_⟩
      rw [if_neg turnFromOpen]
      exact late
    | @network r s =>
      have after : committed.effectiveRound ≤ r := late
      refine ⟨⟨config,same.trans installed,grown,fun now => absurd now ?_⟩,?_⟩
      · change ¬ committed.effectiveRound = ((r + 1 : Nat) : Int)
        omega
      · change committed.effectiveRound < ((r + 1 : Nat) : Int)
        omega

theorem committedLater {cp : OnlineRejoinControlPlane} {prepared : PendingConfig} {atNs : Int} {r : Nat}
    (positive : 0 < run.timing.roundLengthNs) (timing : cp.timing = run.timing)
    (late : run.roundStartNs (r - 1) ≤ atNs) : r < (cp.committedConfig prepared atNs).effectiveRound := by
  have floor : (r : Int) - 1 ≤ atNs.fdiv run.timing.roundLengthNs := by
    rw [Int.fdiv_eq_ediv_of_nonneg _ positive.le]
    exact (Int.le_ediv_iff_mul_le positive).mpr late
  simp only [committedConfig,timing]
  omega

theorem commitAwaits (positive : 0 < run.timing.roundLengthNs) (prompt : 0 ≤ run.timing.cpDecisionDelayNs)
    (ran : Ran run.system (pre ++ m :: post) pt) (commits : CommitsIn run committed m) :
    m.before.round < committed.effectiveRound ∧
    (∀ i < run.nodeCount, ∃ u ∈ (m.after.cluster.nodes i).pendingControlPlaneUpdate,
      u.pendingConfig = some committed) ∧
    ∃ old, old.runId < committed.runId ∧ (∀ config ∈ installedAt m.before, config = old) ∧
      Awaiting committed old m.after := by
  obtain ⟨upTo,step,_⟩ := ranAt ran
  have mirrored := ranMirrored upTo
  have punctual := ranPunctual prompt upTo
  have announced := ranAnnounced upTo
  obtain ⟨control,status,new,mid,opened,called⟩ := commits
  obtain ⟨at',op,next⟩ := m
  cases control
  cases stepCases step with
  | @control r s s' done =>
    obtain ⟨cp,state,boundary⟩ := mirrored
    obtain ⟨mid',midState,shown,controlled,midround,one⟩ := controlPushed boundary done
    cases Except.ok.inj (opened.symm.trans controlled.opened)
    obtain ⟨pending,_,scheduled,_⟩ := ensurePending boundary.ready.1
    obtain ⟨prepared,item,was,prepared',_,planned,kind,made⟩ :=
      controlCommits controlled called status (pending ▸ new)
    have late := punctual item (scheduled ▸ planned) kind
    have early : r < committed.effectiveRound := by
      rw [made]
      exact committedLater positive boundary.ready.2.timing late
    have bigger := boundary.coherent.configured.next prepared was
    have grown : state.installedConfig.runId < committed.runId := by
      have same : committed.runId = prepared.runId := by
        rw [made]
        rfl
      omega
    obtain ⟨held,kept⟩ : s'.controlPlane.pendingFuture = some committed ∧
        shown.installedConfig = state.installedConfig := by
      rcases callCases controlled.second with ⟨same,installed,_⟩ | ⟨_,future,still,_,due,_⟩
      · exact ⟨same.trans called,installed.trans controlled.first.1.installed⟩
      · cases Option.some.inj (still.symm.trans called)
        exact absurd early (Int.not_lt.mpr due)
    refine ⟨early,?_,_,grown,fun config held => (boundaryInstalled boundary held).symm,held,?_,?_⟩
    · intro i bound
      have carries : (buildControlPlaneUpdate i shown).pendingConfig = some committed :=
        controlled.called.configured.shown.trans held
      have fresh : pushed shown i s := by
        intro same
        have stale := announced i bound _ same
        exact new (stale.symm.trans carries)
      refine ⟨_,?_,carries⟩
      change _ ∈ (s'.nodes i).pendingControlPlaneUpdate
      rw [(one i bound).node fresh]
      rfl
    · exact (midroundInstalled midround).trans (congrArg some kept)
    · rw [if_neg turnFromOpen]
      exact early

theorem sinceCommit (status : committed.status = .committed) (ran : Ran run.system (pre ++ m :: post) pt)
    (start : Awaiting committed old m.after) : Awaiting committed old pt ∨ Switched committed pt := by
  induction post using List.reverseRecOn generalizing pt with
  | nil =>
    obtain ⟨_,_,same⟩ := ranSnoc ran
    exact Or.inl (same ▸ start)
  | append_singleton rest last ih =>
    rw [← List.cons_append,← List.append_assoc] at ran
    obtain ⟨upTo,step,same⟩ := ranSnoc ran
    rw [← same]
    have mirrored := ranMirrored upTo
    rcases ih upTo with waiting | switched
    · rcases awaitingStep status mirrored step waiting with ⟨_,still⟩ | ⟨_,_,_,now⟩
      · exact Or.inl still
      · exact Or.inr now
    · exact Or.inr (switchedStep mirrored step switched)

theorem turnWaits {config : InstalledConfig} (status : committed.status = .committed)
    (ran : Ran run.system (pre ++ m :: post) pt) (start : Awaiting committed old m.after) (after : x ∈ post)
    (own : x.op = .turn i) (due : x.before.round < committed.effectiveRound)
    (held : installedAt x.before = some config) : config = old := by
  obtain ⟨a,b,rfl⟩ := List.append_of_mem after
  rw [← List.cons_append,← List.append_assoc] at ran
  obtain ⟨upTo,step,_⟩ := ranAt ran
  rcases sinceCommit status upTo start with ⟨_,still,_⟩ | ⟨_,late⟩
  · exact Option.some.inj (held.symm.trans still)
  · have opened : x.before.phase ≠ .control := by
      rw [step.2.1,own]
      simp
    rw [if_neg opened] at late
    omega

theorem turnAround (status : committed.status = .committed) (ran : Ran run.system (pre ++ m :: post) pt)
    (control : m.op = .control) (early : m.before.round < committed.effectiveRound)
    (behind : old.runId < committed.runId) (was : ∀ config ∈ installedAt m.before, config = old)
    (start : Awaiting committed old m.after) (inside : x ∈ pre ++ m :: post) (own : x.op = .turn i) :
    ∃ config, installedAt x.before = some config ∧
      (∀ n ∈ run.turning i x, (x.after.cluster.nodes i).config = config) ∧
      (∀ sent ∈ (run.advanced x.before.round i (x.before.cluster.nodes i)).2.outbound,
        sent.packet.runId = config.runId) ∧
      (x.before.round < committed.effectiveRound → config.runId < committed.runId) ∧
      (committed.effectiveRound ≤ x.before.round → committed.runId ≤ config.runId) ∧
      (x.before.round = committed.effectiveRound → config = committed.installed) := by
  have reached : Mirrored run x.before ∧ run.system.step x.before x.op x.after := by
    obtain ⟨a,b,split⟩ := List.append_of_mem inside
    obtain ⟨upTo,step,_⟩ := ranAt (split ▸ ran)
    exact ⟨ranMirrored upTo,step⟩
  obtain ⟨config,installed,node,sent⟩ := turnInstalled reached.1 reached.2 own
  refine ⟨config,installed,node,sent,?_⟩
  rcases List.mem_append.mp inside with earlier | later
  · obtain ⟨a,b,rfl⟩ := List.append_of_mem earlier
    obtain ⟨rounds,grown⟩ := ranOnward (ranAt ran).1
    obtain ⟨last,at',up⟩ := grown config installed
    rw [was last at'] at up
    refine ⟨fun _ => by omega,fun late => ?_,fun now => ?_⟩ <;> omega
  · rcases List.mem_cons.mp later with rfl | after
    · simp [own] at control
    · obtain ⟨a,b,rfl⟩ := List.append_of_mem after
      rw [← List.cons_append,← List.append_assoc] at ran
      have open' : x.before.phase ≠ .control := by
        rw [reached.2.2.1,own]
        simp
      rcases sinceCommit status (ranAt ran).1 start with ⟨_,at',due⟩ | ⟨⟨other,at',grown,exact'⟩,late⟩
      · rw [if_neg open'] at due
        cases Option.some.inj (installed.symm.trans at')
        refine ⟨fun _ => behind,fun late => ?_,fun now => ?_⟩ <;> omega
      · rw [if_neg open'] at late
        cases Option.some.inj (installed.symm.trans at')
        exact ⟨fun before => by omega,fun _ => grown,fun now => exact' now.symm⟩

theorem cutoversSynchronous (positive : 0 < run.timing.roundLengthNs)
    (prompt : 0 ≤ run.timing.cpDecisionDelayNs) (ran : Ran run.system (pre ++ m :: post) pt)
    (commits : CommitsIn run committed m) : SynchronousCutover run pre m post committed := by
  obtain ⟨early,pushed,old,behind,was,start⟩ := commitAwaits positive prompt ran commits
  obtain ⟨control,status,_⟩ := commits
  have around {x : Move Point Phase} {i : Nat} (inside : x ∈ pre ++ m :: post) (own : x.op = .turn i) :=
    turnAround status ran control early behind was start inside own
  refine ⟨early,pushed,⟨old,start.2.1,behind,?_,?_⟩,?_,?_⟩
  · intro x after own
    obtain ⟨a,b,rfl⟩ := List.append_of_mem after
    rw [← List.cons_append,← List.append_assoc] at ran
    obtain ⟨upTo,step,_⟩ := ranAt ran
    have closed : x.before.phase = .control := step.2.1.trans own
    rcases sinceCommit status upTo start with waiting | ⟨_,late⟩
    · rcases awaitingStep status (ranMirrored upTo) step waiting with ⟨due,still⟩ | ⟨_,now,switched,_⟩
      · exact ⟨fun _ => still.2.1,fun now => by omega⟩
      · exact ⟨fun due => by omega,fun _ => ⟨waiting.2.1,switched⟩⟩
    · rw [if_pos closed] at late
      exact ⟨fun due => by omega,fun now => by omega⟩
  · intro x after i taking due
    obtain ⟨n,taken⟩ := Option.isSome_iff_exists.mp taking
    have own := (turningSome taken).1
    obtain ⟨config,held,node,_⟩ := around (List.mem_append_right _ (List.mem_cons_of_mem _ after)) own
    exact (node n taken).trans (turnWaits status ran start after own due held)
  · intro x inside i taking
    obtain ⟨n,taken⟩ := Option.isSome_iff_exists.mp taking
    obtain ⟨config,_,node,_,due,_,now⟩ := around inside (turningSome taken).1
    have same := node n taken
    refine ⟨fun before => ?_,fun at' => same.trans (now at')⟩
    have runId : (x.after.cluster.nodes i).runId = config.runId := congrArg InstalledConfig.runId same
    rw [runId]
    exact due before
  · intro x inside i own sent member
    obtain ⟨config,_,_,carries,due,late,_⟩ := around inside own
    rw [carries sent member]
    exact ⟨due,late⟩

def commitOf (run : ClusterRun) (m : Move Point Phase) : Option PendingConfig :=
  match m.before.cluster.controlPlane.advanceToTime (run.repairLogSnapshots m.before.cluster)
      (run.roundStartNs m.before.round) run.nodeCount with
  | .error _ => none
  | .ok mid => mid.pendingFuture.filter (fun future => m.op = .control ∧ future.status = .committed ∧
      m.before.cluster.controlPlane.pendingFuture ≠ some future)

theorem commitOfIs (h : committed ∈ run.commitOf m) : CommitsIn run committed m := by
  unfold commitOf at h
  split at h
  · simp at h
  · rename_i mid opened
    obtain ⟨held,rest⟩ := Option.mem_filter_iff.mp h
    obtain ⟨control,status,new⟩ := of_decide_eq_true rest
    exact ⟨control,status,new,mid,opened,held⟩

def loneRejoin (cpDecisionDelayNs : Int) : ClusterRun :=
  { nodeCount := 1
    rounds := 14
    timing := ⟨1,0,0,cpDecisionDelayNs,0,0,0,0⟩
    payloadFactory := fun _ _ => ""
    networkFaultModel := fun packet _ => {deliverRound := some packet.roundId}
    nodeFaultModel := fun _ r => decide (r ≠ 1)
    hash := ⟨fun _ => "",fun _ _ => ""⟩ }

def commitsLate (run : ClusterRun) (m : Move Point Phase) : Prop :=
  ∃ committed ∈ run.commitOf m, committed.effectiveRound ≤ m.before.round
instance (run : ClusterRun) (m : Move Point Phase) : Decidable (commitsLate run m) := by
  unfold commitsLate; infer_instance

-- A negative decision delay dates the prepared config into the past.
theorem cutoverBeforeCommit :
    ¬ ∀ run pre m post pt committed, 0 < run.timing.roundLengthNs → Faithful run →
      Ran run.system (pre ++ m :: post) pt → CommitsIn run committed m →
        SynchronousCutover run pre m post committed := by
  intro claim
  have faithful : Faithful (loneRejoin (-100)) := fun _ _ => ⟨rfl,by simp [loneRejoin]⟩
  have value : ((loneRejoin (-100)).walk 4).toOption.map
      (fun result => result.1.any (fun m => commitsLate (loneRejoin (-100)) m)) = some true := by
    decide +kernel
  obtain ⟨moves,pt,ran,found⟩ := walkFound value
  simp only [List.any_eq_true,decide_eq_true_eq] at found
  obtain ⟨m,member,committed,held,late⟩ := found
  obtain ⟨pre,post,rfl⟩ := List.append_of_mem member
  have switch := claim (loneRejoin (-100)) pre m post pt committed (by decide) faithful ran (commitOfIs held)
  exact absurd switch.early (Int.not_lt.mpr late)

def installsCommitted (run : ClusterRun) (result : List (Move Point Phase) × Point) : Prop :=
  ∃ m ∈ result.1, ∃ committed ∈ run.commitOf m, installedAt result.2 = some committed.installed
instance (run : ClusterRun) (result) : Decidable (installsCommitted run result) := by
  unfold installsCommitted; infer_instance

theorem cutoversSynchronousOnce :
    ∃ pre m post pt committed, Ran (loneRejoin 0).system (pre ++ m :: post) pt ∧
      CommitsIn (loneRejoin 0) committed m ∧ installedAt pt = some committed.installed ∧
      SynchronousCutover (loneRejoin 0) pre m post committed := by
  have value : ((loneRejoin 0).walk 14).toOption.map
      (fun result => decide (installsCommitted (loneRejoin 0) result)) = some true := by decide +kernel
  obtain ⟨moves,pt,ran,found⟩ := walkFound value
  simp only [decide_eq_true_eq] at found
  obtain ⟨m,member,committed,held,installed⟩ := found
  obtain ⟨pre,post,rfl⟩ := List.append_of_mem member
  have commits := commitOfIs held
  exact ⟨pre,m,post,pt,committed,ran,commits,installed,
    cutoversSynchronous (by decide) (by decide) ran commits⟩

end Switch

end ClusterRun
end Syncons
