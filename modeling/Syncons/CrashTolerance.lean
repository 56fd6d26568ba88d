import Syncons.Survivors
import Syncons.Campaign

/-! Tolerance of crashes. On a network that hands over every packet in its own round, a
majority that is never crashed stays up whatever the others do, and stores the rounds from 0
on without a gap, each with the proposals of the whole majority. -/
namespace Syncons
open Dict (Map)
open Outcome Runs
open OnlineRejoinControlPlane (inState Coherent Forward)

def networkPerfect : NetworkFaultModel := fun packet _ => {deliverRound := some packet.roundId}

def allNodesActive : NodeFaultModel := fun _ _ => true

namespace ClusterRun

variable {run : ClusterRun} {pt pt' : Point} {s s' : Cluster} {i k q r R : Nat}
  {moves pre post : List (Move Point Phase)} {m : Move Point Phase} {Q : Finset Nat}
  {before mid after : OnlineRejoinControlPlane} {state midState shown : ControlPlaneState}

/- The majority `Q` is never crashed, and either it is everybody or the run ends before a
cutover could come. -/
structure CrashFaults (run : ClusterRun) (Q : Finset Nat) : Prop where
  network : run.networkFaultModel = networkPerfect
  inside : ∀ q ∈ Q, q < run.nodeCount
  majority : run.nodeCount / 2 + 1 ≤ Q.card
  spared : ∀ q ∈ Q, ∀ r, run.nodeFaultModel q r = true
  positive : 0 < run.timing.roundLengthNs
  short : (∀ i < run.nodeCount, i ∈ Q) ∨ Forward run.timing 10 ∧ (run.rounds : Int) ≤ run.cutoverFloor

section Upright

def Uncrashed (n : Node) : Prop := n.status ≠ .crashed

theorem turnUncrashed {n n' : Node} {result : NodeRoundResult} (spared : run.nodeFaultModel i r = true)
    (turn : Turn run r i shown n n' result) (h : Uncrashed n) : Uncrashed n' := by
  cases turn with
  | down off up => exact absurd (spared.symm.trans off) (by simp)
  | idle _ _ tuned =>
    rcases tuned.status with running | ⟨same,_⟩
    · simp [Uncrashed,running]
    · exact fun down => h (same.symm.trans down)
  | took _ active tuned crossed =>
    have running := tuned.running active
    have verdict := crossed.verdict
    cases verdict with
    | skip _ status => simp [Uncrashed,status.1,running]
    | halt _ status => simp [Uncrashed,status]
    | commit _ status => simp [Uncrashed,status.1,running]

theorem pushedStatus (one : PushedOne shown i s s') : (s'.nodes i).status = (s.nodes i).status ∧
    (s'.nodes i).haltedRound = (s.nodes i).haltedRound := by
  by_cases new : pushed shown i s
  · rw [one.node new]
    exact ⟨rfl,rfl⟩
  · rw [(one.quiet new).1]
    exact ⟨rfl,rfl⟩

theorem ranUncrashed (bound : i < run.nodeCount) (spared : ∀ r, run.nodeFaultModel i r = true)
    (ran : Ran run.system moves pt) : Uncrashed (pt.cluster.nodes i) := by
  induction ran with
  | start h =>
    cases h
    simp [Uncrashed,Cluster.init,Node.init]
  | move upTo h ih =>
    have mirrored := ranMirrored upTo
    cases stepCases h with
    | control done =>
      obtain ⟨cp,state,boundary⟩ := mirrored
      obtain ⟨_,_,_,_,_,one⟩ := controlPushed boundary done
      have same := (pushedStatus (one i bound)).1
      exact fun down => ih (same.symm.trans down)
    | @turn r k s s' done =>
      obtain ⟨inside,shown,state,midround⟩ := mirrored
      obtain ⟨_,_,turned,turn,_⟩ := turnMirrored midround inside done
      by_cases own : i = k
      · subst own
        have kept : Uncrashed (run.advanced r i (s.nodes i)).1 := turnUncrashed (spared r) turn ih
        dsimp only
        rw [turned.node]
        exact kept
      · dsimp only
        rw [(turned.others i own).node]
        exact ih
    | @network r s => exact fun down => ih ((networkUndelivered run r s i).status.symm.trans down)

end Upright

section Delivery

variable {call : Packet × Nat}

theorem handedNow (perfect : run.networkFaultModel = networkPerfect) (ran : Ran run.system moves pt)
    (sent : call ∈ sentDuring run moves pt.round) : call.1 ∈ run.handedTo pt.round pt.cluster call.2 := by
  obtain ⟨m,member,inside⟩ := List.mem_flatMap.mp sent
  split at inside
  · rename_i now
    obtain ⟨round,_⟩ := sentRound inside
    have copy : (⟨call.2,call.1,true⟩ : ScheduledDelivery) ∈ run.present pt.round call := by
      have kept : ¬ run.dropped call := by simp [dropped,perfect,networkPerfect]
      rw [present,if_neg kept]
      refine List.mem_map.mpr ⟨(call.1.roundId,copyOf call {}),?_,rfl⟩
      refine List.mem_filter.mpr ⟨List.mem_append_left _ ?_,?_⟩
      · simp [primary,perfect,networkPerfect]
      · simp [round,now]
    refine List.mem_map.mpr ⟨⟨call.2,call.1,true⟩,List.mem_filter.mpr ⟨?_,decide_eq_true rfl⟩,rfl⟩
    rw [(queuedNetwork (ranQueued ran)).2]
    exact List.mem_append_right _ (List.mem_flatMap.mpr ⟨call,sent,copy⟩)
  · simp at inside

theorem sentAround (ran : Ran run.system (pre ++ m :: post) pt)
    (first : ∀ config ∈ installedAt m.before, config = run.firstConfig) (sent : call ∈ sentIn run m)
    (bound : q < run.nodeCount) (other : q ≠ call.1.srcId) : (call.1,q) ∈ sentIn run m := by
  obtain ⟨upTo,step,_⟩ := ranAt ran
  obtain ⟨_,own⟩ := sentRound sent
  have mirrored := ranMirrored upTo
  obtain ⟨at',op,next⟩ := m
  generalize call.1.srcId = k at own other
  cases own
  cases stepCases step with
  | @turn r k s s' done =>
    obtain ⟨inside,shown,state,midround⟩ := mirrored
    obtain ⟨_,_,_,turn,_⟩ := turnMirrored midround inside done
    have installed := first _ (midroundInstalled midround)
    simp only [sentIn] at sent ⊢
    generalize run.advanced r k (s.nodes k) = out at turn sent ⊢
    obtain ⟨n',result⟩ := out
    dsimp only at turn sent ⊢
    cases turn with
    | down => simp at sent
    | idle => simp at sent
    | @took c _ _ _ _ tuned crossed =>
      have members : c.installedMembership.testBit q = true := by
        have same : c.installedMembership = shown.installedConfig.membersBitmap :=
          congrArg InstalledConfig.membersBitmap tuned.mirrors.1
        rw [same,installed,firstConfig,fullBitmap]
        exact decide_eq_true bound
      have verdict := crossed.verdict
      have spoken : ∀ commits, result = ⟨some (c.broadcast (run.params k) r),commits⟩ →
          (call.1,q) ∈ ((result.outbound.map addressed).getD []) := by
        rintro commits rfl
        simp only [Option.map_some,Option.getD_some,addressed,List.mem_map] at sent ⊢
        obtain ⟨dst,_,rfl⟩ := sent
        refine ⟨q,List.mem_filter.mpr ⟨?_,decide_eq_true other⟩,rfl⟩
        exact List.mem_filter.mpr ⟨List.mem_range.mpr bound,members⟩
      cases verdict with
      | skip => exact spoken _ rfl
      | halt => simp at sent
      | commit => exact spoken _ rfl

end Delivery

section Survival

theorem senderBound {call : Packet × Nat} (ran : Ran run.system (pre ++ m :: post) pt)
    (sent : call ∈ sentIn run m) : call.1.srcId < run.nodeCount := by
  obtain ⟨upTo,step,_⟩ := ranAt ran
  obtain ⟨_,own⟩ := sentRound sent
  have mirrored := ranMirrored upTo
  obtain ⟨at',op,next⟩ := m
  cases own
  cases stepCases step with
  | turn done => exact mirrored.1

theorem crashSurvivors (faults : CrashFaults run Q) (ran : Ran run.system moves pt) :
    Survivors run Q moves := by
  have asked : ∀ pre m post, moves = pre ++ m :: post → ∀ call ∈ consultedIn run m,
      call ∈ sentDuring run pre m.before.round := by
    rintro pre m post rfl call consulted
    by_cases network : m.op = .network
    · exact (consultedAt ran network).1 ▸ consulted
    · simp [consultedIn,network] at consulted
  refine ⟨faults.inside,faults.majority,?_,?_,?_⟩
  · intro m member q inside
    obtain ⟨pre,post,rfl⟩ := List.append_of_mem member
    obtain ⟨upTo,step,_⟩ := ranAt ran
    exact ranUncrashed (faults.inside q inside) (faults.spared q inside) (.move upTo step)
  · intro m member call consulted _ _
    obtain ⟨pre,post,rfl⟩ := List.append_of_mem member
    exact handedNow faults.network (ranAt ran).1 (asked pre m post rfl call consulted)
  · intro m member call consulted outside
    obtain ⟨pre,post,rfl⟩ := List.append_of_mem member
    have upTo := (ranAt ran).1
    obtain ⟨x,earlier,inside⟩ := List.mem_flatMap.mp (asked pre m post rfl call consulted)
    refine Or.inl ?_
    intro q among
    refine @handedNow _ _ _ (call.1,q) faults.network upTo ?_
    split at inside
    · rename_i now
      obtain ⟨a,b,rfl⟩ := List.append_of_mem earlier
      have start := (ranAt upTo).1
      rcases faults.short with everyone | ⟨forward,short⟩
      · exact absurd (everyone _ (senderBound upTo inside)) outside
      · refine List.mem_flatMap.mpr ⟨x,by simp,?_⟩
        rw [if_pos now]
        refine sentAround upTo (firstConfigShort forward start short) inside (faults.inside q among) ?_
        rintro rfl
        exact outside among
    · simp at inside

theorem untouchedSteady (calm : ∀ i < run.nodeCount, ¬ s.controlPlane.touched i) : Steady run r s := by
  intro before state mid midState after shown boundary controlled
  have kept : midState.installedConfig = state.installedConfig := controlled.first.1.installed
  rcases OnlineRejoinControlPlane.effectInstalled controlled.second with same | ⟨_,_,future,_,pending,_⟩
  · exact same.trans kept
  · have episodic := controlled.advance.episodic
    have active := episodic.pending (by simp [pending])
    obtain ⟨i,target⟩ := episodic.active.mp active
    have bound := controlled.advance.tracked.episodeBound i target
    rw [controlled.first.1.setup.2.1,boundary.ready.2.nodeCount] at bound
    have touched := controlled.first.1.touched i (Or.inr (Or.inl target))
    exact absurd (OnlineRejoinControlPlane.ensureTouched boundary.ready.1 touched) (calm i bound)

theorem crashFaithful (faults : CrashFaults run Q) : Faithful run := by
  intro packet dst
  rw [faults.network]
  exact ⟨rfl,by simp [networkPerfect]⟩

theorem crashConcert (faults : CrashFaults run Q) (ran : Ran run.system moves pt) :
    Surviving run Q moves pt ∧ InConcert run Q moves pt.round :=
  ranConcert (crashFaithful faults) ran (crashSurvivors faults ran)

theorem crashFirst (faults : CrashFaults run Q) (ran : Ran run.system moves pt) :
    ∀ config ∈ installedAt pt, config = run.firstConfig := by
  rcases faults.short with everyone | ⟨forward,short⟩
  · refine heldInstalled (firstConfigHeld ran ?_)
    rintro pre ⟨at',op,next⟩ post rfl control
    obtain ⟨upTo,step,_⟩ := ranAt ran
    obtain ⟨surviving,_⟩ := crashConcert faults upTo
    cases control
    cases stepCases step with
    | control done =>
      obtain ⟨w,abreast⟩ := surviving
      exact untouchedSteady (fun i bound => abreast.calm i (everyone i bound))
  · exact firstConfigShort forward ran short

theorem installedKnown (ran : Ran run.system moves pt) :
    pt.round = 0 ∧ pt.phase = .control ∨ (installedAt pt).isSome := by
  induction ran with
  | start h =>
    cases h
    exact Or.inl ⟨rfl,rfl⟩
  | move upTo h ih =>
    have mirrored := ranMirrored upTo
    refine Or.inr ?_
    cases stepCases h with
    | control done =>
      obtain ⟨cp,state,boundary⟩ := mirrored
      obtain ⟨_,_,_,_,midround,_⟩ := controlPushed boundary done
      exact Option.isSome_of_mem (midroundInstalled midround)
    | turn done =>
      obtain ⟨bound,shown,state,midround⟩ := mirrored
      obtain ⟨_,next,_⟩ := turnMirrored midround bound done
      exact Option.isSome_of_mem (midroundInstalled next)
    | @network r s =>
      obtain ⟨shown,state,midround⟩ := mirrored
      have known : (installedAt ⟨r,.network,s⟩).isSome := Option.isSome_of_mem (midroundInstalled midround)
      exact known

theorem crashUncut (faults : CrashFaults run Q) (ran : Ran run.system moves pt) (late : 0 < r) :
    uncut moves r := by
  rintro m member ⟨control,changed⟩ rfl
  obtain ⟨pre,post,rfl⟩ := List.append_of_mem member
  obtain ⟨upTo,step,next⟩ := ranAt ran
  obtain ⟨old,held⟩ := Option.isSome_iff_exists.mp ((installedKnown upTo).resolve_left (by omega))
  have onward : m.before.round = m.after.round := by
    obtain ⟨at',op,after⟩ := m
    cases control
    cases stepCases step with
    | control done => rfl
  obtain ⟨new,held'⟩ := Option.isSome_iff_exists.mp ((installedKnown next).resolve_left (by omega))
  refine changed ?_
  rw [held,held',crashFirst faults upTo old held,crashFirst faults next new held']

end Survival

section Standing

theorem activatedAwake (n : Node) (r : Int) :
    (n.activatePendingConfigIfDue r).status = n.status ∧
      (n.activatePendingConfigIfDue r).haltedRound = n.haltedRound := by
  cases due : n.pendingDue r with
  | none =>
    rw [Node.activateQuiet due]
    exact ⟨rfl,rfl⟩
  | some pending =>
    have activated := Node.activateDue due
    exact ⟨activated.status,activated.haltedRound⟩

theorem configuredAwake {n : Node} {p : NodeParams} {r : Int} (wired : n.Wired) (running : n.status = .running) :
    (n.configured p r).haltedRound = n.haltedRound := by
  obtain ⟨status,halted⟩ := activatedAwake {n with currentRound := r} r
  have wired : Node.Wired ({n with currentRound := r}.activatePendingConfigIfDue r) :=
    Node.activateWired (show Node.Wired {n with currentRound := r} from wired)
  simp only [Node.configured,Node.configure]
  generalize {n with currentRound := r}.activatePendingConfigIfDue r = c at status halted wired
  cases held : c.pendingControlPlaneUpdate with
  | none => rw [Node.pullEmpty p held,halted]
  | some u => rw [((Node.pullFull p wired held).awake (status.trans running)).2,halted]

theorem turnUnhalted {n : Node} {r : Nat} {last : Option ControlPlaneUpdate} (pushed : Pushed r shown i last n)
    (running : n.status = .running) (still : (run.advanced r i n).1.status = .running) :
    (run.advanced r i n).1.haltedRound = n.haltedRound := by
  have awake := configuredAwake (p := run.params i) (r := r) pushed.standing.wired running
  rcases advancedCases run (standingAwake pushed.standing) with ⟨_,_,done⟩ | ⟨_,_,done⟩ | ⟨_,_,done⟩
  · rw [done] at still
    cases still
  · rw [done,awake]
  · rw [done] at still ⊢
    have verdict := (Node.crossBoundaryFacts (run.params i) (n.configured (run.params i) r) r).verdict
    generalize (n.configured (run.params i) r).crossBoundary (run.params i) r = out at verdict still
    obtain ⟨n',result⟩ := out
    dsimp only at verdict still ⊢
    cases verdict with
    | skip _ status => rw [status.2,awake]
    | halt _ status => exact absurd (status.symm.trans still) (by simp)
    | commit _ status => rw [status.2,awake]

theorem ranUnhalted (bound : i < run.nodeCount) (ran : Ran run.system moves pt)
    (running : ∀ m ∈ moves, (m.after.cluster.nodes i).status = .running) :
    (pt.cluster.nodes i).status = .running ∧ (pt.cluster.nodes i).haltedRound = none := by
  induction ran with
  | start h =>
    cases h
    exact ⟨rfl,rfl⟩
  | @move moves at' op next upTo h ih =>
    have now := running ⟨at',op,next⟩ (by simp)
    obtain ⟨up,unhalted⟩ := ih (fun m member => running m (List.mem_append_left _ member))
    have mirrored := ranMirrored upTo
    refine ⟨now,?_⟩
    cases stepCases h with
    | control done =>
      obtain ⟨cp,state,boundary⟩ := mirrored
      obtain ⟨_,_,_,_,_,one⟩ := controlPushed boundary done
      exact (pushedStatus (one i bound)).2.trans unhalted
    | @turn r k s s' done =>
      obtain ⟨inside,shown,state,midround⟩ := mirrored
      have turned := turnFacts done
      by_cases own : i = k
      · subst own
        have still : (run.advanced r i (s.nodes i)).1.status = .running := by
          rw [← now]
          dsimp only
          rw [turned.node]
        have same := turnUnhalted (midround.todo i le_rfl inside) up still
        dsimp only
        rw [turned.node]
        exact same.trans unhalted
      · dsimp only
        rw [(turned.others i own).node]
        exact unhalted
    | @network r s => exact (networkUndelivered run r s i).haltedRound.trans unhalted

end Standing

section Histories

variable {w : Node.Shared} {n c : Node} {entry : CommittedRound} {rowOf : Nat → Nat} {era moment : Int}

structure Voices (run : ClusterRun) (Q : Finset Nat) (entry : CommittedRound) : Prop where
  members : ∀ q ∈ Q, entry.commitSet.testBit q = true
  proposals : ∀ q ∈ Q, entry.proposals.lookup q = some (run.payloadFactory q entry.round)

theorem sealedVoices (inside : ∀ q ∈ Q, q < run.nodeCount) (h : Sealed run rowOf era moment entry)
    (members : ∀ q ∈ Q, entry.commitSet.testBit q = true) : Voices run Q entry := by
  refine ⟨members,fun q member => ?_⟩
  rw [h.proposals,if_pos (memBitmapMembers.mpr ⟨inside q member,members q member⟩),h.round]

theorem stepsMembers (steps : Steps run Q r k shown w n c) (concerted : Node.Concerted run.nodeCount Q w) :
    ∀ entry ∈ (run.advanced r k n).2.newCommits, ∀ q ∈ Q, entry.commitSet.testBit q = true := by
  intro entry made q member
  rw [steps.advanced] at made
  have late : 0 ≤ c.previousStage.roundId := by
    have verdict := (Node.crossBoundaryFacts (run.params k) c r).verdict
    generalize c.crossBoundary (run.params k) r = out at verdict made
    obtain ⟨n',result⟩ := out
    cases verdict with
    | skip => simp at made
    | halt => simp at made
    | commit judged => exact judged.round
  obtain ⟨only,one,_,set⟩ := steps.passed.commits late
  rw [one] at made
  cases List.mem_singleton.mp made
  have stage : c.previousStage = w.previous := congrArg Node.Shared.previous steps.shared
  rw [stage] at late set
  rw [set,(steps.agreed late).2.1]
  exact concerted.named late q member

theorem turnVoices {shown state : ControlPlaneState} (faults : CrashFaults run Q)
    (midround : Midround run r k shown s state) (bound : k < run.nodeCount) (done : run.nodeTurn r s k = .ok s')
    (halfway : Halfway run Q moves r k shown s w) (shielded : Shielded run s)
    (collected : Collected run r k rowOf s) (up : Uncrashed (s'.nodes k)) (member : k ∈ Q)
    (h : ∀ entry ∈ s.commitHistoryByNode k, Voices run Q entry.toCommittedRound) :
    ∀ entry ∈ s'.commitHistoryByNode k, Voices run Q entry.toCommittedRound := by
  have turned := turnFacts done
  have spared : (run.advanced r k (s.nodes k)).1.status ≠ .crashed := by
    rw [Uncrashed,turned.node] at up
    exact up
  have steps := survivorSteps faults.inside faults.majority (midround.todo k le_rfl bound) midround.ready
    halfway.active member (shielded.guarded k bound) halfway.concerted (halfway.todo k member le_rfl) spared
  have seals := turnSeals midround bound done collected
  intro entry inside
  rcases seals entry inside with old | sealed'
  · exact h entry old
  · refine sealedVoices faults.inside sealed' ?_
    rw [turned.history] at inside
    rcases List.mem_append.mp inside with old | new
    · exact (h entry old).members
    · obtain ⟨commit,made,rfl⟩ := List.mem_map.mp new
      exact stepsMembers steps halfway.concerted commit made

-- No repair log ever overwrites the history of the majority.
theorem ranVoices (faults : CrashFaults run Q) (ran : Ran run.system moves pt) (member : q ∈ Q) :
    ∀ entry ∈ pt.cluster.commitHistoryByNode q, Voices run Q entry.toCommittedRound := by
  have inside := faults.inside q member
  induction ran with
  | start h =>
    cases h
    intro entry held
    simp [Cluster.init] at held
  | move upTo h ih =>
    have mirrored := ranMirrored upTo
    have uncrashed := ranUncrashed inside (faults.spared q member) (.move upTo h)
    obtain ⟨surviving,_⟩ := crashConcert faults upTo
    have staged := ranStaged (crashFaithful faults) upTo
    cases stepCases h with
    | @control r s s' done =>
      obtain ⟨cp,state,boundary⟩ := mirrored
      obtain ⟨w,abreast⟩ := surviving
      obtain ⟨_,_,_,controlled,_,one⟩ := controlPushed boundary done
      have stocked := boundaryStocked boundary (ranStocked upTo)
      have active := controlSpared boundary controlled inside (abreast.calm q member)
      have kept := (controlRepairs boundary stocked done).spared q inside
        (fun overwritten => repairedInactive stocked controlled (one q inside) overwritten active)
      exact fun entry held => ih entry (kept ▸ held)
    | @turn r k s s' done =>
      obtain ⟨bound,_,_,midround⟩ := mirrored
      obtain ⟨_,shown,state,w,midround,halfway⟩ := surviving
      obtain ⟨rowOf,collected⟩ := staged
      by_cases own : q = k
      · subst own
        exact turnVoices faults midround bound done halfway (ranShielded upTo) collected uncrashed member ih
      · exact fun entry held => ih entry (((turnFacts done).others q own).history ▸ held)
    | network => exact ih

theorem calmInstalled (first : ∀ config ∈ installedAt pt, config = run.firstConfig) : Calm pt := by
  intro config held
  rw [first config held]
  exact le_refl (0 : Int)

theorem spokenOwn (faults : CrashFaults run Q) (ran : Ran run.system moves ⟨R,.control,s⟩) (member : q ∈ Q) :
    roundsOf (s.commitHistoryByNode q) = (run.committedBy q moves).map (fun commit => commit.round) := by
  have inside := faults.inside q member
  have calm := calmInstalled (crashFirst faults ran)
  have kept := ranKept ran calm q inside
  cases kept with
  | own same => exact same
  | handed whole retired =>
    obtain ⟨held,current,inactive⟩ := retired.known
    obtain ⟨cp,state,boundary⟩ := ranMirrored ran
    obtain ⟨⟨w,abreast⟩,_⟩ := crashConcert faults ran
    have same : cp = s.controlPlane :=
      (ensurePending boundary.ready.1).2.2.2 (Option.isSome_of_mem current)
    subst same
    have tracked := boundary.coherent.tracked
    cases Option.some.inj (tracked.current.symm.trans current)
    have bound : q < s.controlPlane.nodeCount := by rw [boundary.ready.2.nodeCount]; exact inside
    exact absurd (OnlineRejoinControlPlane.untouchedActive tracked bound (abreast.calm q member)) inactive

theorem sameRounds {left right : List CommittedRoundRecord} (rounds : roundsOf left = roundsOf right)
    (same : ∀ e ∈ left, ∀ e' ∈ right, e.round = e'.round → e.toCommittedRound = e'.toCommittedRound) :
    left.map (fun e => e.toCommittedRound) = right.map (fun e => e.toCommittedRound) := by
  induction left generalizing right with
  | nil =>
    cases right with
    | nil => rfl
    | cons => cases rounds
  | cons e left ih =>
    cases right with
    | nil => cases rounds
    | cons e' right =>
      obtain ⟨head,tail⟩ := List.cons.inj rounds
      have rest := ih tail (fun x member y member' => same x (by simp [member]) y (by simp [member']))
      simp only [List.map_cons,same e (by simp) e' (by simp) head,rest]

end Histories

/- How the majority ends: up, and each with the same history, which holds the rounds from 0 on
with the proposals of all of them. -/
structure Outlived (run : ClusterRun) (Q : Finset Nat) (s : Cluster) : Prop where
  running : ∀ q ∈ Q, (s.nodes q).status = .running ∧ (s.nodes q).haltedRound = none
  rounds : ∀ q ∈ Q, roundsOf (s.commitHistoryByNode q) = roundsFrom 0 (run.rounds - 2)
  voices : ∀ q ∈ Q, ∀ entry ∈ s.commitHistoryByNode q, Voices run Q entry.toCommittedRound
  alike : ∀ q ∈ Q, ∀ q' ∈ Q, (s.commitHistoryByNode q').map (fun entry => entry.toCommittedRound) =
    (s.commitHistoryByNode q).map (fun entry => entry.toCommittedRound)

theorem crashRounds (faults : CrashFaults run Q) (ran : Ran run.system moves ⟨R,.control,s⟩) (member : q ∈ Q) :
    roundsOf (s.commitHistoryByNode q) = roundsFrom 0 (R - 2) := by
  have inside := faults.inside q member
  obtain ⟨count,rounds⟩ := calmCommits ran (calmInstalled (crashFirst faults ran)) inside
  have own := (spokenOwn faults ran member).trans rounds
  have least : R - 2 ≤ count := by
    by_contra few
    obtain ⟨_,concert⟩ := crashConcert faults ran
    obtain ⟨set,all⟩ := concert.commits count (by dsimp only; omega) (crashUncut faults ran (by omega))
      (crashUncut faults ran (by omega))
    obtain ⟨m,moved,_,_,entry,one,named,_⟩ := all q member
    have committed : (count : Int) ∈ (run.committedBy q moves).map (fun commit => commit.round) :=
      List.mem_map.mpr ⟨entry,List.mem_flatMap.mpr ⟨m,moved,by simp [one]⟩,named⟩
    rw [rounds] at committed
    obtain ⟨j,low,same⟩ := List.mem_map.mp committed
    have := List.mem_range.mp low
    omega
  have most : count ≤ R - 2 := by
    by_contra many
    have stored : ((count - 1 : Nat) : Int) ∈ roundsOf (s.commitHistoryByNode q) := by
      rw [own]
      exact List.mem_map.mpr ⟨count - 1,List.mem_range.mpr (by omega),by omega⟩
    obtain ⟨entry,held,round⟩ := List.mem_map.mp stored
    have early := (ranAgreeing (crashFaithful faults) ran).2.2 q inside entry held
    dsimp only at early
    omega
  rw [own,show count = R - 2 by omega]

theorem ranOutlived (faults : CrashFaults run Q) (ran : Ran run.system moves ⟨run.rounds,.control,s⟩) :
    Outlived run Q s := by
  have rounds : ∀ q ∈ Q, roundsOf (s.commitHistoryByNode q) = roundsFrom 0 (run.rounds - 2) :=
    fun q member => crashRounds faults ran member
  refine ⟨?_,rounds,fun q member => ranVoices faults ran member,?_⟩
  · intro q member
    have concert := (crashConcert faults ran).2
    have survivors := crashSurvivors faults ran
    refine ranUnhalted (faults.inside q member) ran ?_
    intro m moved
    cases state : (m.after.cluster.nodes q).status with
    | running => rfl
    | halted => exact absurd state (concert.running m moved q member)
    | crashed => exact absurd state (survivors.spared m moved q member)
  · intro q member q' member'
    refine sameRounds ((rounds q' member').trans (rounds q member).symm) ?_
    intro e held e' held' round
    obtain ⟨consistent,_⟩ := ranAgreeing (crashFaithful faults) ran
    obtain ⟨epoch,set,proposals⟩ :=
      consistent q' (faults.inside q' member') q (faults.inside q member) e held e' held' round
    calc e.toCommittedRound = ⟨e.round,e.membershipEpoch,e.commitSet,e.proposals⟩ := rfl
      _ = ⟨e'.round,e'.membershipEpoch,e'.commitSet,e'.proposals⟩ := by rw [round,epoch,set,proposals]

theorem crashesTolerated (faults : CrashFaults run Q) : ∃ s, run.simulate = .ok s ∧ Outlived run Q s := by
  obtain ⟨s,_,done,ran⟩ := simulationCompletes faults.positive
  exact ⟨s,done,ranOutlived faults ran⟩

def node2CrashesAfterRound0 : NodeFaultModel := fun i r => !(i == 2 && decide (1 ≤ r))

def node2Crash : ClusterRun :=
  { nodeCount := 3
    rounds := 5
    timing := {}
    payloadFactory := fun _ _ => ""
    networkFaultModel := networkPerfect
    nodeFaultModel := node2CrashesAfterRound0
    hash := ⟨fun _ => "",fun _ _ => ""⟩ }

theorem crashesToleratedOnce : ∃ s, node2Crash.simulate = .ok s ∧ Outlived node2Crash {0,1} s := by
  refine crashesTolerated ⟨rfl,by decide,by decide,?_,by decide,Or.inr ⟨defaultForward,by decide⟩⟩
  intro q member r
  have low : q < 2 := by
    simp only [Finset.mem_insert,Finset.mem_singleton] at member
    omega
  have other : (q == 2) = false := beq_eq_false_iff_ne.mpr (by omega)
  simp [node2Crash,node2CrashesAfterRound0,other]

end ClusterRun

section Expectation

structure ScenarioExpectation where
  statuses : List NodeStatus
  committedRounds : List (List Int)
  haltedRounds : List (Option Int)

inductive ExpectationFailure where
  | status (expected actual : List NodeStatus)
  | commits (expected actual : List (List Int))
  | haltedRound (expected actual : List (Option Int))

def ScenarioExpectation.check (e : ScenarioExpectation) (nodes : List NodeResult) : List ExpectationFailure :=
  let actualStatuses := nodes.map (fun node => node.status)
  let actualCommits := nodes.map (fun node => node.committedRounds.map (fun entry => entry.round))
  let actualHalts := nodes.map (fun node => node.haltedRound)
  (if actualStatuses ≠ e.statuses then [.status e.statuses actualStatuses] else []) ++
    (if actualCommits ≠ e.committedRounds then [.commits e.committedRounds actualCommits] else []) ++
    (if actualHalts ≠ e.haltedRounds then [.haltedRound e.haltedRounds actualHalts] else [])

def perfectExpectation (nodeCount rounds : Nat) : ScenarioExpectation where
  statuses := List.replicate nodeCount .running
  committedRounds := List.replicate nodeCount (ClusterRun.roundsFrom 0 (rounds - 2))
  haltedRounds := List.replicate nodeCount none

theorem perfectPasses {run : ClusterRun} (network : run.networkFaultModel = networkPerfect)
    (active : run.nodeFaultModel = allNodesActive) (positive : 0 < run.timing.roundLengthNs)
    (populated : 0 < run.nodeCount) :
    ∃ s, run.simulate = .ok s ∧ (perfectExpectation run.nodeCount run.rounds).check (run.result s) = [] := by
  have everyone : ClusterRun.CrashFaults run (Finset.range run.nodeCount) := by
    refine ⟨network,fun q member => Finset.mem_range.mp member,?_,?_,positive,
      Or.inl (fun i bound => Finset.mem_range.mpr bound)⟩
    · rw [Finset.card_range]
      omega
    · intro q _ r
      rw [active]
      rfl
  obtain ⟨s,_,done,ran⟩ := ClusterRun.simulationCompletes everyone.positive
  have outlived := ClusterRun.ranOutlived everyone ran
  refine ⟨s,done,?_⟩
  have inside {i : Nat} (member : i ∈ List.range run.nodeCount) : i ∈ Finset.range run.nodeCount :=
    Finset.mem_range.mpr (List.mem_range.mp member)
  have whole {α : Type} (f : NodeResult → α) (a : α) (all : ∀ node ∈ run.result s, f node = a) :
      (run.result s).map f = List.replicate run.nodeCount a := by
    rw [List.map_congr_left all,List.map_const',ClusterRun.result,List.length_map,List.length_range]
  have statuses := whole (fun node => node.status) .running (by
    intro node member
    obtain ⟨i,bound,rfl⟩ := List.mem_map.mp member
    exact (outlived.running i (inside bound)).1)
  have commits := whole (fun node => node.committedRounds.map (fun entry => entry.round))
      (ClusterRun.roundsFrom 0 (run.rounds - 2)) (by
    intro node member
    obtain ⟨i,bound,rfl⟩ := List.mem_map.mp member
    exact outlived.rounds i (inside bound))
  have halts := whole (fun node => node.haltedRound) none (by
    intro node member
    obtain ⟨i,bound,rfl⟩ := List.mem_map.mp member
    exact (outlived.running i (inside bound)).2)
  simp only [ScenarioExpectation.check,perfectExpectation,statuses,commits,halts]
  simp

end Expectation

end Syncons
