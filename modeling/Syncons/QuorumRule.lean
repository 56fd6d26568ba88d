import Syncons.NodeSteps

/-! The quorum rule. What a boundary decides about a stage, as a condition on the rows
and proposals of the stage and on the sound set in force, against the five ordered
checks that the node makes of it. -/
namespace Syncons
open Dict (Map)

namespace Node

variable {p : NodeParams} {n : Node} {stage : RoundStage}

def observed (p : NodeParams) (stage : RoundStage) (i : Nat) : Prop :=
  i < p.nodeCount ∧ stage.installedMembership.testBit i = true
instance (p : NodeParams) (stage : RoundStage) (i : Nat) : Decidable (observed p stage i) := by
  unfold observed; infer_instance

def memberRow (stage : RoundStage) (i : Nat) : Nat := Dict.getD stage.rows i 0

-- A node that is not installed has no row of its own among those it observes.
def localRow (p : NodeParams) (stage : RoundStage) : Nat :=
  if observed p stage p.nodeId then memberRow stage p.nodeId else 0

def matching (p : NodeParams) (stage : RoundStage) : Finset Nat :=
  (Finset.range p.nodeCount).filter
    (fun i => stage.installedMembership.testBit i = true ∧ memberRow stage i = localRow p stage)

structure Agreed (p : NodeParams) (stage : RoundStage) : Prop where
  valid : ∀ i, observed p stage i → memberRow stage i = 0 ∨ (memberRow stage i).testBit i = true
  spoken : localRow p stage ≠ 0
  quorum : p.nodeCount / 2 + 1 ≤ (matching p stage).card

def Proposed (p : NodeParams) (stage : RoundStage) : Prop :=
  ∀ i < p.nodeCount, (localRow p stage).testBit i = true → (stage.proposals.lookup i).isSome

def Sounded (p : NodeParams) (n : Node) (stage : RoundStage) : Prop :=
  ∀ i ∈ matching p stage, n.currentSoundSet.testBit i = true

structure QuorumRule (p : NodeParams) (n : Node) (stage : RoundStage) : Prop where
  agreed : Agreed p stage
  proposed : Proposed p stage
  sounded : Sounded p n stage

inductive Commits (p : NodeParams) (n : Node) (stage : RoundStage) : Evaluation → Prop where
  | entry {core : Nat} {entry : CommittedRound}
      (sound : ∀ i, core.testBit i = true ↔ i ∈ matching p stage)
      (self : core.testBit p.nodeId = true)
      (round : entry.round = stage.roundId)
      (epoch : entry.membershipEpoch = stage.membershipEpoch)
      (commitSet : entry.commitSet = localRow p stage)
      (proposals : ∀ i, entry.proposals.lookup i =
        if i < p.nodeCount ∧ (localRow p stage).testBit i = true then stage.proposals.lookup i else none) :
      Commits p n stage
        ⟨{ n with
            committedFrontier := entry.round
            lastCommittedSoundSet := some core
            commitDigest := extendLogDigest p.hash n.commitDigest entry },
          .continue,some core,[entry]⟩

-- The first check that fails names the halt.
inductive Refused (p : NodeParams) (n : Node) (stage : RoundStage) : HaltReason → Prop where
  | rows (split : ¬ Agreed p stage) : Refused p n stage .noAgreedRow
  | proposals (agreed : Agreed p stage) (missing : ¬ Proposed p stage) :
      Refused p n stage .commitSetNotValid
  | sound (agreed : Agreed p stage) (proposed : Proposed p stage) (outside : ¬ Sounded p n stage) :
      Refused p n stage .soundSetNotSubsetOfPreviousSet

structure Describes (p : NodeParams) (n : Node) (stage : RoundStage) (record : HaltRecord) : Prop where
  round : record.failedRound = stage.roundId
  epoch : record.membershipEpoch = stage.membershipEpoch
  installed : record.installedMembershipEpoch = stage.membershipEpoch
  run : record.runId = n.runId
  members : record.installedMembership = stage.installedMembership
  quorum : record.quorum = p.nodeCount / 2 + 1
  rows : ∀ i, record.observationRows.lookup i =
    if observed p stage i then some (memberRow stage i) else none
  selfRow : record.selfRow = memberRow stage p.nodeId
  frontier : record.committedFrontier = n.committedFrontier?
  lineage : record.soundSetLineage = n.lastCommittedSoundSet
  digest : record.logDigest = n.commitDigest
  reason : Refused p n stage record.haltReason

-- Every field that the update does not name is left as it was.
inductive Halts (p : NodeParams) (n : Node) (stage : RoundStage) : Evaluation → Prop where
  | entry {record : HaltRecord} (describes : Describes p n stage record) :
      Halts p n stage
        ⟨{ n with
            status := .halted
            haltedRound := some n.currentRound
            statusReason := some (.halt record.haltReason)
            haltDetails := some record
            controlPlaneEventOutbox :=
              n.controlPlaneEventOutbox ++ [⟨.nodeHalted,p.nodeId,none,some record⟩] },
          .halt,none,[]⟩

section Rows

theorem lookupRows (l : List Nat) (f : Nat → Nat) (i : Nat) :
    (l.map (fun j => (j,f j))).lookup i = if i ∈ l then some (f i) else none := by
  induction l with
  | nil => rfl
  | cons head tail ih =>
    rw [List.map_cons,List.lookup_cons,ih]
    cases same : i == head with
    | true => simp [eq_of_beq same]
    | false =>
      have other : i ≠ head := by simpa using same
      simp [other]

theorem foldBits (l : List (Nat × Nat)) (agreed i core : Nat) :
    (l.foldl (fun core entry => if entry.2 = agreed then core ||| bit entry.1 else core)
        core).testBit i = true ↔
      core.testBit i = true ∨ ∃ entry ∈ l, entry.2 = agreed ∧ entry.1 = i := by
  induction l generalizing core with
  | nil => simp
  | cons head tail ih =>
    rw [List.foldl_cons,ih]
    by_cases row : head.2 = agreed
    · simp only [row,if_true,Nat.testBit_or,testBitBit,Bool.or_eq_true,decide_eq_true_eq,
        List.mem_cons,exists_eq_or_imp,true_and,or_assoc]
    · simp [row]

theorem memObserved {i : Nat} :
    i ∈ bitmapMembers stage.installedMembership p.nodeCount ↔ observed p stage i := memBitmapMembers

theorem rowLookup (p : NodeParams) (stage : RoundStage) (i : Nat) :
    (observationRows p stage).lookup i = if observed p stage i then some (memberRow stage i) else none := by
  rw [observationRows,lookupRows]
  simp only [memObserved,memberRow]

theorem localLookup (p : NodeParams) (stage : RoundStage) :
    ((observationRows p stage).lookup p.nodeId).getD 0 = localRow p stage := by
  rw [rowLookup,localRow]
  split
  · rfl
  · rfl

theorem rowsValid :
    (observationRows p stage).all (fun entry => rowIsValid entry.1 entry.2) = true ↔
      ∀ i, observed p stage i → memberRow stage i = 0 ∨ (memberRow stage i).testBit i = true := by
  simp only [observationRows,List.all_eq_true,List.mem_map,forall_exists_index,and_imp,
    forall_apply_eq_imp_iff₂,memObserved,rowIsValid,Bool.or_eq_true,beq_iff_eq,memberRow]

theorem matchingCount (p : NodeParams) (stage : RoundStage) :
    ((observationRows p stage).filter (fun entry => entry.2 == localRow p stage)).length =
      (matching p stage).card := by
  have distinct : ((bitmapMembers stage.installedMembership p.nodeCount).filter
      (fun i => memberRow stage i == localRow p stage)).Nodup :=
    (List.nodup_range.filter _).filter _
  have length : ((observationRows p stage).filter (fun entry => entry.2 == localRow p stage)).length =
      ((bitmapMembers stage.installedMembership p.nodeCount).filter
        (fun i => memberRow stage i == localRow p stage)).length := by
    simp [observationRows,memberRow,List.filter_map,Function.comp_def]
  rw [length,← List.toFinset_card_of_nodup distinct]
  congr 1
  ext i
  simp only [List.mem_toFinset,List.mem_filter,memBitmapMembers,matching,Finset.mem_filter,
    Finset.mem_range,beq_iff_eq]
  exact and_assoc

theorem agreedRowIff {row : Nat} :
    agreedRow p stage = some row ↔ Agreed p stage ∧ row = localRow p stage := by
  have least : quorum p = p.nodeCount / 2 + 1 := by
    unfold quorum
    omega
  simp only [agreedRow,localLookup,matchingCount,least]
  constructor
  · intro found
    split at found
    · rename_i valid
      split at found
      · cases found
      · rename_i spoken
        split at found
        · cases found
        · rename_i enough
          cases found
          exact ⟨⟨rowsValid.mp valid,spoken,by omega⟩,rfl⟩
    · cases found
  · intro both
    obtain ⟨agreed,same⟩ := both
    have enough : ¬ (matching p stage).card < p.nodeCount / 2 + 1 := by
      have := agreed.quorum
      omega
    rw [if_pos (rowsValid.mpr agreed.valid),if_neg agreed.spoken,if_neg enough,same]

theorem agreedRowNone : agreedRow p stage = none ↔ ¬ Agreed p stage := by
  cases found : agreedRow p stage with
  | none =>
    refine ⟨fun _ agreed => ?_,fun _ => rfl⟩
    rw [agreedRowIff.mpr ⟨agreed,rfl⟩] at found
    cases found
  | some row => simp [(agreedRowIff.mp found).1]

theorem selfMatches (agreed : Agreed p stage) : p.nodeId ∈ matching p stage := by
  have installed : observed p stage p.nodeId := by
    by_contra absent
    exact agreed.spoken (if_neg absent)
  rw [matching,Finset.mem_filter,Finset.mem_range]
  exact ⟨installed.1,installed.2,(if_pos installed).symm⟩

theorem soundSetMembers (agreed : Agreed p stage) :
    ∃ core, soundSet p stage = some core ∧ ∀ i, core.testBit i = true ↔ i ∈ matching p stage := by
  simp only [soundSet,agreedRowIff.mpr ⟨agreed,rfl⟩,bind,Option.bind]
  refine ⟨_,rfl,?_⟩
  intro i
  rw [foldBits]
  simp only [Nat.zero_testBit,Bool.false_eq_true,false_or,observationRows,List.mem_map,matching,
    Finset.mem_filter,Finset.mem_range]
  constructor
  · intro scanned
    obtain ⟨entry,⟨j,member,same⟩,row,own⟩ := scanned
    subst same
    cases own
    obtain ⟨inside,installed⟩ := memBitmapMembers.mp member
    exact ⟨inside,installed,row⟩
  · intro scanned
    obtain ⟨inside,installed,row⟩ := scanned
    exact ⟨_,⟨i,memBitmapMembers.mpr ⟨inside,installed⟩,rfl⟩,row,rfl⟩

theorem commitSetIs (agreed : Agreed p stage) :
    Proposed p stage ∧ commitSet p stage = some (localRow p stage) ∨
      ¬ Proposed p stage ∧ commitSet p stage = none := by
  have missing : (bitmapMembers (localRow p stage) p.nodeCount).any
      (fun member => (stage.proposals.lookup member).isNone) = true ↔ ¬ Proposed p stage := by
    simp only [List.any_eq_true,memBitmapMembers,Proposed,not_forall,Option.isSome_iff_ne_none,
      not_not,Option.isNone_iff_eq_none,exists_prop]
    constructor
    · intro found
      obtain ⟨i,⟨inside,named⟩,absent⟩ := found
      exact ⟨i,inside,named,absent⟩
    · intro found
      obtain ⟨i,inside,named,absent⟩ := found
      exact ⟨i,⟨inside,named⟩,absent⟩
  simp only [commitSet,agreedRowIff.mpr ⟨agreed,rfl⟩,bind,Option.bind]
  by_cases proposed : Proposed p stage
  · exact Or.inl ⟨proposed,if_neg (fun bad => missing.mp bad proposed)⟩
  · exact Or.inr ⟨proposed,if_pos (missing.mpr proposed)⟩

end Rows

section Decision

theorem haltDescribes {reason : HaltReason} (refused : Refused p n stage reason) :
    Halts p n stage (n.enterHaltState p stage (observationRows p stage) (memberRow stage p.nodeId) reason) := by
  have least : quorum p = p.nodeCount / 2 + 1 := by
    unfold quorum
    omega
  have describes : Describes p n stage
      (n.buildHaltRecord p stage (observationRows p stage) (memberRow stage p.nodeId) reason) :=
    ⟨rfl,rfl,rfl,rfl,rfl,least,rowLookup p stage,rfl,rfl,rfl,rfl,refused⟩
  exact .entry describes

theorem commitDescribes {core : Nat} (agreed : Agreed p stage)
    (sound : ∀ i, core.testBit i = true ↔ i ∈ matching p stage) :
    Commits p n stage
      ⟨{ n with
          committedFrontier := (committedRound p stage (localRow p stage)).round
          lastCommittedSoundSet := some core
          commitDigest :=
            extendLogDigest p.hash n.commitDigest (committedRound p stage (localRow p stage)) },
        .continue,some core,[committedRound p stage (localRow p stage)]⟩ := by
  refine .entry sound ((sound _).mpr (selfMatches agreed)) rfl rfl rfl ?_
  intro i
  rw [committedRound,Dict.lookupRestrict]
  simp only [memBitmapMembers]

theorem soundedIff {core : Nat} (sound : ∀ i, core.testBit i = true ↔ i ∈ matching p stage) :
    core &&& n.currentSoundSet = core ↔ Sounded p n stage := by
  rw [landEqLeft]
  constructor
  · intro subset i member
    exact subset i ((sound i).mpr member)
  · intro sounded i held
    exact sounded i ((sound i).mp held)

theorem boundaryCases (p : NodeParams) (n : Node) (late : 0 ≤ stage.roundId) :
    QuorumRule p n stage ∧ Commits p n stage (n.evaluateRoundBoundary p (some stage)) ∨
    ¬ QuorumRule p n stage ∧ Halts p n stage (n.evaluateRoundBoundary p (some stage)) := by
  simp only [evaluateRoundBoundary,Option.getD_some,if_neg (show ¬ stage.roundId < 0 by omega)]
  by_cases agreed : Agreed p stage
  · have row := agreedRowIff.mpr (And.intro agreed rfl)
    obtain ⟨core,coreIs,sound⟩ := soundSetMembers agreed
    rcases commitSetIs agreed with ⟨proposed,commits⟩ | ⟨missing,commits⟩
    · have self : ¬ core.testBit p.nodeId = false := by
        rw [(sound _).mpr (selfMatches agreed)]
        simp
      simp only [row,commits,coreIs,if_neg self]
      by_cases sounded : Sounded p n stage
      · rw [if_neg (not_not.mpr ((soundedIff sound).mpr sounded))]
        exact Or.inl ⟨⟨agreed,proposed,sounded⟩,commitDescribes agreed sound⟩
      · rw [if_pos (fun same => sounded ((soundedIff sound).mp same))]
        exact Or.inr ⟨fun rule => sounded rule.sounded,haltDescribes (.sound agreed proposed sounded)⟩
    · simp only [row,commits]
      exact Or.inr ⟨fun rule => missing rule.proposed,haltDescribes (.proposals agreed missing)⟩
  · simp only [agreedRowNone.mpr agreed]
    exact Or.inr ⟨fun rule => agreed rule.agreed,haltDescribes (.rows agreed)⟩

/- The decision of a boundary, for the stage it is given or else for the commit stage. -/
structure Decides (p : NodeParams) (n : Node) (stage : RoundStage) (e : Evaluation) : Prop where
  exactly : e.decision = .continue ↔ QuorumRule p n stage
  commits : QuorumRule p n stage → Commits p n stage e
  halts : ¬ QuorumRule p n stage → Halts p n stage e

theorem boundaryDecidesByQuorum (p : NodeParams) (n : Node) (stage? : Option RoundStage)
    (late : 0 ≤ (stage?.getD n.commitStage).roundId) :
    Decides p n (stage?.getD n.commitStage) (n.evaluateRoundBoundary p stage?) := by
  have same : n.evaluateRoundBoundary p stage? =
      n.evaluateRoundBoundary p (some (stage?.getD n.commitStage)) := rfl
  rw [same]
  rcases boundaryCases p n late with ⟨rule,commits⟩ | ⟨broken,halts⟩
  · refine ⟨?_,fun _ => commits,fun broken => absurd rule broken⟩
    generalize n.evaluateRoundBoundary p (some (stage?.getD n.commitStage)) = e at commits
    cases commits
    simp [rule]
  · refine ⟨?_,fun rule => absurd rule broken,fun _ => halts⟩
    generalize n.evaluateRoundBoundary p (some (stage?.getD n.commitStage)) = e at halts
    cases halts
    simp [broken]

-- Nodes 0 and 1 of three have told the same row and are heard by node 0.
def judgingParams : NodeParams := ⟨0,3,fun _ _ => "",⟨fun _ => "",fun _ _ => ""⟩⟩

def judgedStage : RoundStage :=
  { roundId := 4
    installedMembership := 7
    proposals := Dict.tabulate [0,1] (fun _ => "")
    rows := Dict.tabulate [0,1] (fun _ => 3) }

theorem boundaryDecidesOnce :
    ((Node.init judgingParams).evaluateRoundBoundary judgingParams (some judgedStage)).decision = .continue ∧
    Decides judgingParams (Node.init judgingParams) judgedStage
      ((Node.init judgingParams).evaluateRoundBoundary judgingParams (some judgedStage)) := by
  refine ⟨by decide +kernel,?_⟩
  exact boundaryDecidesByQuorum judgingParams (Node.init judgingParams) (some judgedStage) (by decide)

end Decision

end Node
end Syncons
