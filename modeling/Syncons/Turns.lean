import Syncons.Rounds

/-! One node's turn in a round, given the state the control plane pushed: a crash, a
round spent outside the ACTIVE members, or a crossed boundary. The node ends its turn
as a mirror of the pushed state, or down and failed in the eyes of the control plane. -/
namespace Syncons
open Dict (Map)
open OnlineRejoinControlPlane (inState interruption)

namespace ClusterRun

variable {run : ClusterRun} {r R : Int} {i : Nat} {shown : ControlPlaneState} {n c n' : Node}
  {last : Option ControlPlaneUpdate} {u : ControlPlaneUpdate} {result : NodeRoundResult} {bound : Int}

def Mirrors (n : Node) (u : ControlPlaneUpdate) : Prop :=
  n.config = u.installedConfig ∧ n.pendingConfig = u.pendingConfig ∧ n.membershipState = u.membershipState

structure Standing (i : Nat) (R bound : Int) (last : Option ControlPlaneUpdate) (n : Node) : Prop where
  wired : n.Wired
  outbox : n.controlPlaneEventOutbox = []
  synced : ∀ u, last = some u →
    n.pendingControlPlaneUpdate = none ∧ Mirrors n u ∨ n.pendingControlPlaneUpdate = some u
  behind : n.runId ≤ bound
  asleep : n.status = .crashed → ∃ h, n.haltedRound = some h ∧ h < R
  sound : n.status = .running → n.membershipState = .active → n.currentSoundSet.testBit i = true

structure Shown (r : Int) (shown : ControlPlaneState) : Prop where
  early : ∀ pending ∈ shown.pendingConfig, pending.status = .committed → r < pending.effectiveRound
  bits : ∀ i, inState shown i .active → shown.installedConfig.membersBitmap.testBit i = true

structure Pushed (r : Int) (shown : ControlPlaneState) (i : Nat) (last : Option ControlPlaneUpdate)
    (n : Node) : Prop where
  latest : last = some (buildControlPlaneUpdate i shown)
  standing : Standing i r shown.installedConfig.runId last n
  dormant : n.status ≠ .running → inState shown i .active → n.runId < shown.installedConfig.runId

theorem builtActive : (buildControlPlaneUpdate i shown).membershipState = .active ↔
    inState shown i .active := by
  simp only [buildControlPlaneUpdate,Dict.getD,inState]
  cases shown.nodeStates.lookup i with
  | none => simp
  | some s => simp

structure Tuned (p : NodeParams) (shown : ControlPlaneState) (i : Nat) (r : Int) (n c : Node) : Prop where
  mirrors : Mirrors c (buildControlPlaneUpdate i shown)
  mailbox : c.pendingControlPlaneUpdate = none
  irq : c.controlPlaneIrqPending = false
  currentRound : c.currentRound = r
  stages : Node.Restarted n c
  status : c.status = .running ∨ c.status = n.status ∧ c.haltedRound = n.haltedRound
  running : inState shown i .active → c.status = .running
  sound : inState shown i .active → c.currentSoundSet.testBit i = true
  soundSet : c.currentSoundSet = c.installedMembership ∨ c.currentSoundSet = n.currentSoundSet
  outbox : c.controlPlaneEventOutbox = Node.ackDue p n.pendingConfig shown.pendingConfig

theorem configuredTuned (p : NodeParams) (pushed : Pushed r shown i last n) (ready : Shown r shown) :
    Tuned p shown i r n (n.configured p r) := by
  obtain ⟨lastIs,standing,dormant⟩ := pushed
  have wired : Node.Wired {n with currentRound := r} := standing.wired
  rcases standing.synced _ lastIs with ⟨empty,config,pending,state⟩ | full
  · have quiet : Node.pendingDue {n with currentRound := r} r = none := by
      refine Node.pendingDueNone ?_
      intro due held committed
      have shownDue : due ∈ shown.pendingConfig := by
        rw [← show n.pendingConfig = shown.pendingConfig from pending]
        exact held
      exact ready.early due shownDue committed
    have same : n.configured p r = {n with currentRound := r} := Node.configureEmpty p empty quiet
    have up : inState shown i .active → n.status = .running := by
      intro active
      by_contra down
      have older := dormant down active
      have equal : n.runId = shown.installedConfig.runId := congrArg InstalledConfig.runId config
      omega
    rw [same]
    refine ⟨⟨config,pending,state⟩,empty,?_,rfl,Or.inr ⟨⟨rfl,rfl⟩,rfl,id⟩,Or.inr ⟨rfl,rfl⟩,up,?_,
      Or.inr rfl,?_⟩
    · change n.controlPlaneIrqPending = false
      rw [standing.wired,empty]
      rfl
    · intro active
      exact standing.sound (up active) (state.trans (builtActive.mpr active))
    · change n.controlPlaneEventOutbox = _
      rw [standing.outbox,show n.pendingConfig = shown.pendingConfig from pending]
      unfold Node.ackDue
      cases shown.pendingConfig with
      | none => rfl
      | some future => simp
  · have adopted := Node.configureFull p r wired full
    refine ⟨⟨adopted.config,adopted.pending,adopted.state⟩,adopted.mailbox,adopted.irq,
      adopted.currentRound,adopted.stages.imp id (fun kept => ⟨⟨kept.1.current,kept.1.previous⟩,kept.2⟩),
      ?_,?_,?_,Or.inl adopted.soundSet,?_⟩
    · by_cases authorized : Node.authorizes (buildControlPlaneUpdate i shown).membershipState
      · exact Or.inl (adopted.rebooted authorized)
      · exact Or.inr (adopted.asleep authorized)
    · intro active
      exact adopted.rebooted (Or.inr (Or.inr (builtActive.mpr active)))
    · intro active
      have membership : (n.configured p r).installedMembership = shown.installedConfig.membersBitmap :=
        congrArg InstalledConfig.membersBitmap adopted.config
      rw [show (n.configured p r).currentSoundSet = _ from adopted.soundSet]
      exact membership ▸ ready.bits i active
    · rw [show (n.configured p r).controlPlaneEventOutbox = _ from adopted.outbox]
      change n.controlPlaneEventOutbox ++ _ = _
      rw [standing.outbox,List.nil_append]
      rfl

def crashedNode (p : NodeParams) (r : Int) (n : Node) : Node :=
  { n with
    status := .crashed
    statusReason := some .crashFault
    haltedRound := some r
    currentRound := r
    controlPlaneEventOutbox := n.controlPlaneEventOutbox ++ [⟨.nodeCrashed,p.nodeId,none,none⟩] }

-- The fault model leaves the node to itself, or finds it down already.
def Faultless (run : ClusterRun) (r : Nat) (i : Nat) (n : Node) : Prop :=
  run.nodeFaultModel i r = true ∨ n.status ≠ .running

inductive Turn (run : ClusterRun) (r : Nat) (i : Nat) (shown : ControlPlaneState) (n : Node) :
    Node → NodeRoundResult → Prop where
  | down (off : run.nodeFaultModel i r = false) (up : n.status = .running) :
      Turn run r i shown n (crashedNode (run.params i) r n) ⟨none,[]⟩
  | idle {c : Node} (spared : Faultless run r i n) (inactive : ¬ inState shown i .active)
      (tuned : Tuned (run.params i) shown i r n c) : Turn run r i shown n c ⟨none,[]⟩
  | took {c n' : Node} {result : NodeRoundResult} (spared : Faultless run r i n)
      (active : inState shown i .active) (tuned : Tuned (run.params i) shown i r n c)
      (crossed : Node.Crossed (run.params i) c r n' result) : Turn run r i shown n n' result

theorem advancedCases (run : ClusterRun) {r i : Nat} (awake : ¬ n.masked r) :
    run.nodeFaultModel i r = false ∧ n.status = .running ∧
      run.advanced r i n = (crashedNode (run.params i) r n,⟨none,[]⟩) ∨
    Faultless run r i n ∧ ¬ (n.configured (run.params i) r).participates (run.params i) ∧
      run.advanced r i n = (n.configured (run.params i) r,⟨none,[]⟩) ∨
    Faultless run r i n ∧ (n.configured (run.params i) r).participates (run.params i) ∧
      run.advanced r i n = (n.configured (run.params i) r).crossBoundary (run.params i) r := by
  have spared : Faultless run r i n → run.faulted r i n = n →
      Faultless run r i n ∧ ¬ (n.configured (run.params i) r).participates (run.params i) ∧
        run.advanced r i n = (n.configured (run.params i) r,⟨none,[]⟩) ∨
      Faultless run r i n ∧ (n.configured (run.params i) r).participates (run.params i) ∧
        run.advanced r i n = (n.configured (run.params i) r).crossBoundary (run.params i) r := by
    intro left same
    rw [advanced,same]
    rcases Node.advanceRoundCases (run.params i) n r with
      ⟨hidden,_⟩ | ⟨_,out,done⟩ | ⟨_,joined,done⟩
    · exact absurd hidden awake
    · exact Or.inl ⟨left,out,done⟩
    · exact Or.inr ⟨left,joined,done⟩
  cases on : run.nodeFaultModel i r with
  | true => exact Or.inr (spared (Or.inl on) (by simp [faulted,on]))
  | false =>
    rcases Node.crashCases (run.params i) n r with ⟨up,crashed⟩ | ⟨down,same⟩
    · have shape : run.faulted r i n = n.crash (run.params i) r := by simp [faulted,on]
      have hidden : (n.crash (run.params i) r).masked r := by
        rw [crashed]
        exact ⟨rfl,rfl⟩
      rw [advanced,shape]
      rcases Node.advanceRoundCases (run.params i) (n.crash (run.params i) r) r with
        ⟨_,done⟩ | ⟨open',_⟩ | ⟨open',_⟩
      · rw [done,crashed]
        exact Or.inl ⟨rfl,up,rfl⟩
      · exact absurd hidden open'
      · exact absurd hidden open'
    · exact Or.inr (spared (Or.inr down) (by simp [faulted,on,same]))

theorem standingAwake {bound : Int} {r : Nat} (standing : Standing i r bound last n) :
    ¬ n.masked r := by
  rintro ⟨crashed,halted⟩
  obtain ⟨h,held,before⟩ := standing.asleep crashed
  have same := Option.some.inj (held.symm.trans halted)
  omega

theorem tunedState {p : NodeParams} {r : Int} (tuned : Tuned p shown i r n c) :
    c.membershipState = .active ↔ inState shown i .active := by
  rw [tuned.mirrors.2.2]
  exact builtActive

theorem tunedJoins {p : NodeParams} {r : Int} (own : p.nodeId = i) (tuned : Tuned p shown i r n c) :
    c.participates p ↔ inState shown i .active := by
  rw [Node.participates,own,tunedState tuned]
  exact ⟨fun joined => joined.2.1,fun active => ⟨tuned.running active,active,tuned.sound active⟩⟩

theorem faultedRunId (run : ClusterRun) (r i : Nat) (n : Node) : (run.faulted r i n).runId = n.runId := by
  unfold faulted
  split
  · rfl
  · obtain ⟨_,same⟩ | ⟨_,same⟩ := Node.crashCases (run.params i) n r <;> rw [same]

theorem turnCases (run : ClusterRun) {r : Nat} (pushed : Pushed r shown i last n) (ready : Shown r shown) :
    Turn run r i shown n (run.advanced r i n).1 (run.advanced r i n).2 := by
  have tuned := configuredTuned (run.params i) pushed ready
  have joins := tunedJoins rfl tuned
  rcases advancedCases run (standingAwake pushed.standing) with
    ⟨off,up,done⟩ | ⟨spared,out,done⟩ | ⟨spared,joined,done⟩
  · rw [done]
    exact .down off up
  · rw [done]
    exact .idle spared (fun active => out (joins.mpr active)) tuned
  · rw [done]
    exact .took spared (joins.mp joined) tuned (Node.crossBoundaryFacts _ _ _)

structure Ended (run : ClusterRun) (r : Int) (i : Nat) (shown : ControlPlaneState)
    (last : Option ControlPlaneUpdate) (n' : Node) : Prop where
  standing : Standing i (r + 1) shown.installedConfig.runId last {n' with controlPlaneEventOutbox := []}
  config : n'.status = .running → n'.membershipState = .active →
    n'.config = shown.installedConfig ∧ inState shown i .active
  dormant : n'.status ≠ .running → inState shown i .active →
    ∃ event ∈ n'.controlPlaneEventOutbox, interruption event ∧ event.nodeId = i
  own : ∀ event ∈ n'.controlPlaneEventOutbox, event.nodeId = i

theorem ackOwn {p : NodeParams} {held next : Option PendingConfig} :
    ∀ event ∈ Node.ackDue p held next, event.nodeId = p.nodeId ∧ event.kind = .prepareAck := by
  intro event member
  unfold Node.ackDue at member
  split at member
  · simp at member
  · split at member
    · rw [List.mem_singleton.mp member]
      exact ⟨rfl,rfl⟩
    · simp at member

theorem tunedEnded {p : NodeParams} (own : p.nodeId = i) (pushed : Pushed r shown i last n)
    (inactive : ¬ inState shown i .active) (tuned : Tuned p shown i r n c) : Ended run r i shown last c := by
  have passive : c.membershipState ≠ .active := by
    intro active
    exact inactive ((tunedState tuned).mp active)
  have config : c.runId = shown.installedConfig.runId := congrArg InstalledConfig.runId tuned.mirrors.1
  refine ⟨⟨?_,rfl,?_,config.le,?_,fun _ active => absurd active passive⟩,
    fun _ active => absurd active passive,fun _ active => absurd active inactive,?_⟩
  · change c.controlPlaneIrqPending = c.pendingControlPlaneUpdate.isSome
    rw [tuned.irq,tuned.mailbox]
    rfl
  · intro u same
    rw [pushed.latest] at same
    cases Option.some.inj same
    exact Or.inl ⟨tuned.mailbox,tuned.mirrors⟩
  · intro crashed
    rcases tuned.status with running | ⟨status,halted⟩
    · exact absurd (running.symm.trans crashed) (by simp)
    · obtain ⟨h,held,before⟩ := pushed.standing.asleep (status.symm.trans crashed)
      exact ⟨h,halted.trans held,by omega⟩
  · intro event member
    rw [tuned.outbox] at member
    exact (ackOwn event member).1.trans own

theorem crossedEnded {p : NodeParams} (own : p.nodeId = i) (pushed : Pushed r shown i last n)
    (active : inState shown i .active) (tuned : Tuned p shown i r n c)
    (crossed : Node.Crossed p c r n' result) : Ended run r i shown last n' := by
  have config : n'.config = shown.installedConfig := crossed.config.trans tuned.mirrors.1
  have up := tuned.running active
  have acks : ∀ event ∈ c.controlPlaneEventOutbox, event.nodeId = i := by
    intro event member
    rw [tuned.outbox] at member
    exact (ackOwn event member).1.trans own
  have verdict := crossed.verdict
  refine ⟨⟨?_,rfl,?_,(congrArg InstalledConfig.runId config).le,?_,?_⟩,fun _ _ => ⟨config,active⟩,?_,?_⟩
  · change n'.controlPlaneIrqPending = n'.pendingControlPlaneUpdate.isSome
    rw [crossed.irq,crossed.mailbox,tuned.irq,tuned.mailbox]
    rfl
  · intro u same
    rw [pushed.latest] at same
    cases Option.some.inj same
    exact Or.inl ⟨crossed.mailbox.trans tuned.mailbox,config,
      crossed.pending.trans tuned.mirrors.2.1,crossed.state.trans tuned.mirrors.2.2⟩
  · intro crashed
    have held : n'.status = .crashed := crashed
    cases verdict with
    | skip early status sound outbox => simp [status.1,up] at held
    | halt round status sound record outbox => simp [status] at held
    | commit judged status sound outbox => simp [status.1,up] at held
  · intro _ _
    change n'.currentSoundSet.testBit i = true
    cases verdict with
    | skip early status sound outbox => rw [sound]; exact tuned.sound active
    | halt round status sound record outbox => rw [sound]; exact tuned.sound active
    | commit judged status sound outbox => rw [sound,← own]; exact judged.self
  · intro stopped _
    cases verdict with
    | skip early status sound outbox => exact absurd (status.1.trans up) stopped
    | halt round status sound record outbox =>
      exact ⟨_,by rw [outbox]; exact List.mem_append_right _ (List.mem_singleton.mpr rfl),
        Or.inr rfl,own⟩
    | commit judged status sound outbox => exact absurd (status.1.trans up) stopped
  · intro event member
    cases verdict with
    | skip early status sound outbox => exact acks event (outbox ▸ member)
    | halt round status sound record outbox =>
      rw [outbox] at member
      rcases List.mem_append.mp member with old | last
      · exact acks event old
      · rw [List.mem_singleton.mp last]
        exact own
    | commit judged status sound outbox => exact acks event (outbox ▸ member)

theorem turnEnded {r : Nat} (pushed : Pushed r shown i last n) (turn : Turn run r i shown n n' result) :
    Ended run r i shown last n' := by
  cases turn with
  | down off up =>
    have standing := pushed.standing
    refine ⟨⟨standing.wired,rfl,standing.synced,standing.behind,fun _ => ⟨r,rfl,by omega⟩,?_⟩,?_,?_,?_⟩
    · intro running
      simp [crashedNode] at running
    · intro running
      simp [crashedNode] at running
    · intro _ _
      exact ⟨⟨.nodeCrashed,i,none,none⟩,List.mem_append_right _ (List.mem_singleton.mpr rfl),
        Or.inl rfl,rfl⟩
    · intro event member
      have inside : event ∈ n.controlPlaneEventOutbox ++ [⟨.nodeCrashed,i,none,none⟩] := member
      rw [standing.outbox,List.nil_append] at inside
      rw [List.mem_singleton.mp inside]
  | idle spared inactive tuned => exact tunedEnded rfl pushed inactive tuned
  | took spared active tuned crossed => exact crossedEnded rfl pushed active tuned crossed

end ClusterRun
end Syncons
