import Syncons.Mirror

/-! The sound set of a node between two reconfigurations. The boundary only shrinks
it; a control-plane update that resets nothing writes the installed membership over
it, and so lets it regrow unless no peer had been dropped. -/
namespace Syncons
open Outcome Runs

def subset (a b : Nat) : Prop := a &&& b = a
instance (a b : Nat) : Decidable (subset a b) := by unfold subset; infer_instance

theorem subsetBits {a b : Nat} : subset a b ↔ ∀ i, a.testBit i = true → b.testBit i = true := landEqLeft

theorem subsetRefl (a : Nat) : subset a a := Nat.and_self a

namespace Node

def reconfigures (n : Node) (r : Int) : Prop :=
  (n.pendingDue r).isSome ∨ ∃ u ∈ n.pendingControlPlaneUpdate, n.updateResets u = true
instance (n : Node) (r : Int) : Decidable (n.reconfigures r) := by unfold reconfigures; infer_instance

def Deaf (j : Nat) (n : Node) : Prop :=
  ∀ n', Undelivered n n' → ∀ packet, packet.srcId = j → n'.receive packet = n'

theorem droppedDeaf {n : Node} {j : Nat} (dropped : n.currentSoundSet.testBit j = false) : Deaf j n := by
  intro n' same packet source
  rcases receiveCases n' packet with ⟨accepts,_⟩ | ⟨_,kept⟩
  · obtain ⟨_,_,heard,_⟩ := accepts
    rw [same.sound,source,dropped] at heard
    simp at heard
  · exact kept

theorem crossedShrinks {p : NodeParams} {n n' : Node} {r : Int} {result : NodeRoundResult}
    (crossed : Crossed p n r n' result) : subset n'.currentSoundSet n.currentSoundSet := by
  have verdict := crossed.verdict
  cases verdict with
  | skip early status sound outbox => rw [sound]; exact subsetRefl _
  | halt round status sound record outbox => rw [sound]; exact subsetRefl _
  | commit judged status sound outbox => rw [sound]; exact judged.shrinks

theorem crashSound (p : NodeParams) (n : Node) (r : Int) :
    (n.crash p r).currentSoundSet = n.currentSoundSet ∧
    (n.crash p r).pendingControlPlaneUpdate = n.pendingControlPlaneUpdate ∧
    (n.crash p r).controlPlaneIrqPending = n.controlPlaneIrqPending := by
  rcases crashCases p n r with ⟨_,same⟩ | ⟨_,same⟩ <;> rw [same] <;> exact ⟨rfl,rfl,rfl⟩

theorem configuredSound {p : NodeParams} {n : Node} {r : Int} (wired : Wired n)
    (same : ¬ n.reconfigures r) :
    (n.configured p r).currentSoundSet =
      (n.pendingControlPlaneUpdate.map (fun u => u.installedConfig.membersBitmap)).getD n.currentSoundSet := by
  cases held : n.pendingControlPlaneUpdate with
  | none =>
    have quiet : n.pendingDue r = none := by
      cases due : n.pendingDue r with
      | none => rfl
      | some pending => exact absurd (Or.inl (by simp [due])) same
    have idle : Node.configure p {n with currentRound := r} r = {n with currentRound := r} :=
      configureEmpty p held quiet
    simp [configured,idle]
  | some u =>
    have adopted := configureFull p r (show Wired {n with currentRound := r} from wired) held
    have config := congrArg InstalledConfig.membersBitmap adopted.config
    exact adopted.soundSet.trans config

end Node

namespace ClusterRun

variable {run : ClusterRun} {pt : Point} {moves : List (Move Point Phase)} {m : Move Point Phase} {i j : Nat}

def reconfiguredIn (run : ClusterRun) (i : Nat) (m : Move Point Phase) : Prop :=
  ∃ n ∈ run.turning i m, n.reconfigures m.before.round

structure SoundSets where
  before : Nat
  configured : Nat
  after : Nat

def soundSetsIn (run : ClusterRun) (i : Nat) (m : Move Point Phase) : SoundSets :=
  { before := (m.before.cluster.nodes i).currentSoundSet
    configured :=
      ((run.turning i m).map (fun n => (n.configured (run.params i) m.before.round).currentSoundSet)).getD
        (m.before.cluster.nodes i).currentSoundSet
    after := (m.after.cluster.nodes i).currentSoundSet }

/- Within a configuration every new value is a subset of the one before it, and a
peer that is out of the sound set stays unheard. -/
structure NeverRegrows (run : ClusterRun) (moves : List (Move Point Phase)) : Prop where
  shrinks : ∀ m ∈ moves, ∀ i < run.nodeCount, ¬ reconfiguredIn run i m →
    subset (run.soundSetsIn i m).configured (run.soundSetsIn i m).before ∧
    subset (run.soundSetsIn i m).after (run.soundSetsIn i m).configured
  unheard : ∀ pre m mid later post, moves = pre ++ m :: (mid ++ later :: post) →
    ∀ i < run.nodeCount, (∀ x ∈ mid, ¬ reconfiguredIn run i x) →
      ∀ j, (m.after.cluster.nodes i).currentSoundSet.testBit j = false →
        (later.before.cluster.nodes i).Deaf j

/- Every update pulled without a reconfiguration names a membership that lies within
the sound set held so far. -/
def PullsWithin (run : ClusterRun) (moves : List (Move Point Phase)) : Prop :=
  ∀ m ∈ moves, ∀ i < run.nodeCount, ∀ n ∈ run.turning i m, ¬ n.reconfigures m.before.round →
    ∀ u ∈ n.pendingControlPlaneUpdate, subset u.installedConfig.membersBitmap n.currentSoundSet

theorem faultedSame (run : ClusterRun) (r : Int) (i : Nat) (n : Node) :
    (run.faulted r i n).currentSoundSet = n.currentSoundSet ∧
    (run.faulted r i n).pendingControlPlaneUpdate = n.pendingControlPlaneUpdate ∧
    (run.faulted r i n).controlPlaneIrqPending = n.controlPlaneIrqPending := by
  unfold faulted
  split
  · exact ⟨rfl,rfl,rfl⟩
  · exact Node.crashSound _ n r

theorem controlSound {r : Int} {s s' : Cluster} (done : run.controlPhase r s = .ok s')
    (bound : i < run.nodeCount) : (s'.nodes i).currentSoundSet = (s.nodes i).currentSoundSet := by
  obtain ⟨_,_,rest⟩ := bindOk.mp done
  obtain ⟨after,_,rest⟩ := bindOk.mp rest
  obtain ⟨state,_,last⟩ := bindOk.mp rest
  cases last
  have one : PushedOne state i {s with controlPlane := after}
      (run.pushControlPlaneUpdates state {s with controlPlane := after}) :=
    (pushAll state _ run.nodeCount).1 i bound
  by_cases new : pushed state i {s with controlPlane := after}
  · rw [one.node new]
    rfl
  · rw [(one.quiet new).1]

theorem idleSound (step : run.system.step m.before m.op m.after) (bound : i < run.nodeCount)
    (idle : run.turning i m = none) :
    (m.after.cluster.nodes i).currentSoundSet = (m.before.cluster.nodes i).currentSoundSet := by
  obtain ⟨before,op,after⟩ := m
  cases stepCases step with
  | control done => exact controlSound done bound
  | network => exact (networkUndelivered run _ _ i).sound
  | @turn r k s s' done =>
    have turned := turnFacts done
    by_cases own : i = k
    · subst i
      have hidden : (run.faulted r k (s.nodes k)).masked r := by
        by_contra shown
        simp [turning,shown] at idle
      rcases Node.advanceRoundCases (run.params k) (run.faulted r k (s.nodes k)) r with
        ⟨_,same⟩ | ⟨shown,_⟩ | ⟨shown,_⟩
      · simp only [turned.node,advanced,same]
        exact (faultedSame run r k (s.nodes k)).1
      · exact absurd hidden shown
      · exact absurd hidden shown
    · exact congrArg Node.currentSoundSet (turned.others i own).node

theorem turnShrinks {n : Node} (step : run.system.step m.before m.op m.after) (own : n ∈ run.turning i m) :
    subset (m.after.cluster.nodes i).currentSoundSet
      (n.configured (run.params i) m.before.round).currentSoundSet := by
  obtain ⟨before,op,after⟩ := m
  obtain ⟨mine,shown,shape⟩ := turningSome own
  cases stepCases step with
  | control done => simp at mine
  | network => simp at mine
  | @turn r k s s' done =>
    cases mine
    have turned := turnFacts done
    rcases Node.advanceRoundCases (run.params i) n r with ⟨hidden,_⟩ | ⟨_,_,same⟩ | ⟨_,_,same⟩
    · exact absurd hidden shown
    · simp only [turned.node,advanced,← shape,same]
      exact subsetRefl _
    · simp only [turned.node,advanced,← shape,same]
      exact Node.crossedShrinks (Node.crossBoundaryFacts _ _ _)

theorem stepShrinks (step : run.system.step m.before m.op m.after) (bound : i < run.nodeCount) :
    subset (run.soundSetsIn i m).after (run.soundSetsIn i m).configured := by
  cases own : run.turning i m with
  | none =>
    simp only [soundSetsIn,own,Option.map_none,Option.getD_none,idleSound step bound own]
    exact subsetRefl _
  | some n =>
    simp only [soundSetsIn,own,Option.map_some,Option.getD_some]
    exact turnShrinks step own

theorem mirroredWired (h : Mirrored run pt) (bound : i < run.nodeCount) : (pt.cluster.nodes i).Wired := by
  obtain ⟨r,phase,s⟩ := pt
  cases phase with
  | control =>
    obtain ⟨_,_,boundary⟩ := h
    exact (boundary.nodes i bound).standing.wired
  | turn k =>
    obtain ⟨_,_,_,midround⟩ := h
    by_cases done : i < k
    · exact (midround.done i done).standing.wired
    · exact (midround.todo i (by omega) bound).standing.wired
  | network =>
    obtain ⟨_,_,midround⟩ := h
    exact (midround.done i bound).standing.wired

theorem turningWired {n : Node} (mirrored : Mirrored run m.before) (bound : i < run.nodeCount)
    (own : n ∈ run.turning i m) :
    n.Wired ∧ n.currentSoundSet = (m.before.cluster.nodes i).currentSoundSet := by
  obtain ⟨_,_,rfl⟩ := turningSome own
  obtain ⟨sound,mailbox,irq⟩ := faultedSame run m.before.round i (m.before.cluster.nodes i)
  refine ⟨?_,sound⟩
  rw [Node.Wired,irq,mailbox]
  exact mirroredWired mirrored bound

theorem stepWithin (mirrored : Mirrored run m.before) (bound : i < run.nodeCount)
    (same : ¬ reconfiguredIn run i m) :
    subset (run.soundSetsIn i m).configured (run.soundSetsIn i m).before ↔
    ∀ n ∈ run.turning i m, ∀ u ∈ n.pendingControlPlaneUpdate,
      subset u.installedConfig.membersBitmap n.currentSoundSet := by
  cases own : run.turning i m with
  | none => simp [soundSetsIn,own,subsetRefl]
  | some n =>
    obtain ⟨wired,sound⟩ := turningWired mirrored bound own
    have kept : ¬ n.reconfigures m.before.round := fun changes => same ⟨n,own,changes⟩
    have value := @Node.configuredSound (run.params i) _ _ wired kept
    simp only [soundSetsIn,own,Option.map_some,Option.getD_some,value,← sound,Option.mem_some_iff,
      forall_eq']
    cases n.pendingControlPlaneUpdate with
    | none => simp [subsetRefl]
    | some u => simp

theorem droppedKept {pre mid post : List (Move Point Phase)} {later : Move Point Phase}
    (ran : Ran run.system (pre ++ m :: (mid ++ later :: post)) pt)
    (shrinks : ∀ x ∈ mid, subset (run.soundSetsIn i x).configured (run.soundSetsIn i x).before ∧
      subset (run.soundSetsIn i x).after (run.soundSetsIn i x).configured)
    (dropped : (m.after.cluster.nodes i).currentSoundSet.testBit j = false) :
    (later.before.cluster.nodes i).currentSoundSet.testBit j = false := by
  have whole : Ran run.system ((pre ++ m :: mid) ++ later :: post) pt := by simpa using ran
  obtain ⟨upTo,_⟩ := ranAt whole
  have onwards := @ranOnwards _ _ _ _ _ _ _
    (fun (a b : Point) => (b.cluster.nodes i).currentSoundSet.testBit j = true →
      (a.cluster.nodes i).currentSoundSet.testBit j = true)
    (fun _ h => h) (fun _ _ _ h k last => h (k last)) upTo ?_
  · cases heard : (later.before.cluster.nodes i).currentSoundSet.testBit j with
    | false => rfl
    | true => exact absurd (onwards heard) (by simp [dropped])
  · intro a x b split _ _ heard
    obtain ⟨first,second⟩ := shrinks x (by simp [split])
    exact subsetBits.mp first j (subsetBits.mp second j heard)

theorem soundSetsShrink (ran : Ran run.system moves pt) :
    NeverRegrows run moves ↔ PullsWithin run moves := by
  have reached : ∀ m ∈ moves, Mirrored run m.before ∧ run.system.step m.before m.op m.after := by
    intro m member
    obtain ⟨pre,post,rfl⟩ := List.append_of_mem member
    obtain ⟨upTo,step,_⟩ := ranAt ran
    exact ⟨ranMirrored upTo,step⟩
  constructor
  · intro never m member i bound n own kept
    have same : ¬ reconfiguredIn run i m := by
      rintro ⟨other,inside,changes⟩
      cases Option.some.inj (inside.symm.trans own)
      exact kept changes
    exact (stepWithin (reached m member).1 bound same).mp (never.shrinks m member i bound same).1 n own
  · intro within
    have shrinks : ∀ m ∈ moves, ∀ i < run.nodeCount, ¬ reconfiguredIn run i m →
        subset (run.soundSetsIn i m).configured (run.soundSetsIn i m).before ∧
        subset (run.soundSetsIn i m).after (run.soundSetsIn i m).configured := by
      intro m member i bound same
      obtain ⟨mirrored,step⟩ := reached m member
      refine ⟨(stepWithin mirrored bound same).mpr ?_,stepShrinks step bound⟩
      intro n own
      exact within m member i bound n own (fun changes => same ⟨n,own,changes⟩)
    refine ⟨shrinks,?_⟩
    intro pre m mid later post split i bound kept j dropped
    refine Node.droppedDeaf (droppedKept (split ▸ ran) ?_ dropped)
    intro x inside
    exact shrinks x (by simp [split,inside]) i bound (kept x inside)

-- Node 2 is down from round 1 on; every packet arrives in its own round.
def crashedPeer : ClusterRun :=
  { nodeCount := 3
    rounds := 5
    timing := ⟨1,0,0,0,3,0,0,0⟩
    payloadFactory := fun _ _ => ""
    networkFaultModel := fun packet _ => {deliverRound := some packet.roundId}
    nodeFaultModel := fun i r => decide (i ≠ 2 ∨ r < 1)
    hash := ⟨fun _ => "",fun _ _ => ""⟩ }

def regrownIn (run : ClusterRun) (i : Nat) (m : Move Point Phase) : Prop :=
  ¬ reconfiguredIn run i m ∧ ¬ subset (run.soundSetsIn i m).configured (run.soundSetsIn i m).before
instance (run : ClusterRun) (i : Nat) (m : Move Point Phase) : Decidable (regrownIn run i m) := by
  unfold regrownIn reconfiguredIn; infer_instance

-- The update that only shows the prepared config puts node 2 back into the set of node 0.
theorem soundSetRegrows :
    ¬ ∀ run moves pt, 0 < run.timing.roundLengthNs → Ran run.system moves pt → NeverRegrows run moves := by
  intro claim
  have value : (crashedPeer.walk 5).toOption.map
      (fun result => result.1.any (fun m => regrownIn crashedPeer 0 m)) = some true := by decide +kernel
  obtain ⟨moves,pt,ran,found⟩ := walkFound value
  have never := claim crashedPeer moves pt (by decide) ran
  simp only [List.any_eq_true,decide_eq_true_eq] at found
  obtain ⟨m,member,same,grown⟩ := found
  exact grown (never.shrinks m member 0 (by decide) same).1

-- With the default delays node 2 still waits for its repair, and stays out of the other sets.
def lostPeer : ClusterRun := {crashedPeer with timing := {}}

theorem soundSetsShrinkOnce : ∃ moves pt, Ran lostPeer.system moves pt ∧
    (pt.cluster.nodes 0).currentSoundSet = 3 ∧ NeverRegrows lostPeer moves ∧
    (NeverRegrows lostPeer moves ↔ PullsWithin lostPeer moves) := by
  have value : (lostPeer.walk 5).toOption.map (fun result =>
      decide ((result.2.cluster.nodes 0).currentSoundSet = 3) &&
      result.1.all (fun m => (List.range 3).all (fun i => (lostPeer.turning i m).all (fun n =>
        n.pendingControlPlaneUpdate.all (fun u => decide (n.reconfigures m.before.round ∨
          subset u.installedConfig.membersBitmap n.currentSoundSet)))))) = some true := by
    decide +kernel
  obtain ⟨moves,pt,ran,found⟩ := walkFound value
  obtain ⟨narrow,all⟩ := (Bool.and_eq_true _ _).mp found
  have within : PullsWithin lostPeer moves := by
    intro m member i inside n taken same u posted
    have each := List.all_eq_true.mp (List.all_eq_true.mp all m member) i (List.mem_range.mpr inside)
    rw [Option.mem_def.mp taken,Option.all_some,Option.mem_def.mp posted,Option.all_some] at each
    exact (of_decide_eq_true each).resolve_left same
  exact ⟨moves,pt,ran,of_decide_eq_true narrow,(soundSetsShrink ran).mpr within,soundSetsShrink ran⟩

end ClusterRun
end Syncons
