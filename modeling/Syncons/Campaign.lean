import Syncons.UnbrokenLogs
import Mathlib.Algebra.Order.Field.Rat

/-! The randomized fault campaign. Each trial simulates a cluster under random loss, delay,
duplication and crashes, and audits the stored histories afterwards: the audit reports
rounds that form no prefix and rounds committed with two values. -/
namespace Syncons
open Dict (Map)
open Outcome Runs
open OnlineRejoinControlPlane (Forward)

structure NodeResult where
  nodeId : Nat
  status : NodeStatus
  haltedRound : Option Int
  committedRounds : List CommittedRoundRecord

def ClusterRun.result (run : ClusterRun) (s : Cluster) : List NodeResult :=
  (List.range run.nodeCount).map
    (fun i => ⟨i,(s.nodes i).status,(s.nodes i).haltedRound,s.commitHistoryByNode i⟩)

section Audit

structure CommittedValue where
  membershipEpoch : Int
  commitSet : Nat
  proposals : List (Nat × String)
  deriving DecidableEq

def committedValue (entry : CommittedRoundRecord) : CommittedValue :=
  ⟨entry.membershipEpoch,entry.commitSet,Dict.sortedItems entry.proposals⟩

-- The two messages of the audit, with what they interpolate.
inductive SafetyViolation where
  | nonPrefix (nodeId : Nat) (rounds : List Int)
  | conflictingCommit (round : Int) (nodeId : Nat) (value previous : CommittedValue)
  deriving DecidableEq

structure Audit where
  violations : List SafetyViolation := []
  committedByRound : Map Int CommittedValue := ∅

def Audit.entry (nodeId : Nat) (a : Audit) (entry : CommittedRoundRecord) : Audit :=
  let value := committedValue entry
  let previous := Dict.getD a.committedByRound entry.round value
  { committedByRound := Dict.setdefault a.committedByRound entry.round value
    violations :=
      if value ≠ previous then
        a.violations ++ [.conflictingCommit entry.round nodeId value previous]
      else a.violations }

def Audit.node (a : Audit) (node : NodeResult) : Audit :=
  let rounds := node.committedRounds.map (fun entry => entry.round)
  let a :=
    if rounds ≠ (List.range rounds.length).map (fun j : Nat => (j : Int)) then
      {a with violations := a.violations ++ [.nonPrefix node.nodeId rounds]}
    else a
  node.committedRounds.foldl (Audit.entry node.nodeId) a

def safetyViolations (nodes : List NodeResult) : List SafetyViolation :=
  (nodes.foldl Audit.node {}).violations

variable {nodes : List NodeResult} {entries seen : List CommittedRoundRecord} {a : Audit} {nodeId : Nat}

def SingleValued (entries : List CommittedRoundRecord) : Prop :=
  ∀ e ∈ entries, ∀ e' ∈ entries, e.round = e'.round → committedValue e = committedValue e'

def NodeResult.prefixed (node : NodeResult) : Prop := ClusterRun.unbroken node.committedRounds
instance (node : NodeResult) : Decidable node.prefixed := by unfold NodeResult.prefixed; infer_instance

def nonPrefixReport (node : NodeResult) : Option SafetyViolation :=
  if node.prefixed then none else some (.nonPrefix node.nodeId (ClusterRun.roundsOf node.committedRounds))

def Audit.Recorded (seen : List CommittedRoundRecord) (a : Audit) : Prop :=
  ∀ r v, a.committedByRound.lookup r = some v → ∃ e ∈ seen, e.round = r ∧ committedValue e = v

theorem prefixedIff (node : NodeResult) : node.prefixed ↔
    node.committedRounds.map (fun entry => entry.round) = (List.range
      (node.committedRounds.map (fun entry => entry.round)).length).map (fun j : Nat => (j : Int)) := by
  simp [NodeResult.prefixed,ClusterRun.unbroken,ClusterRun.roundsOf,ClusterRun.roundsFrom]

theorem nodeAudit (a : Audit) (node : NodeResult) : a.node node =
    node.committedRounds.foldl (Audit.entry node.nodeId)
      {a with violations := a.violations ++ (nonPrefixReport node).toList} := by
  unfold Audit.node nonPrefixReport
  dsimp only
  by_cases whole : node.prefixed
  · rw [if_neg (not_not.mpr ((prefixedIff node).mp whole)),if_pos whole]
    simp
  · rw [if_pos (fun same => whole ((prefixedIff node).mpr same)),if_neg whole]
    rfl

theorem entryRecorded (recorded : a.Recorded seen) (entry : CommittedRoundRecord) :
    (a.entry nodeId entry).Recorded (seen ++ [entry]) := by
  intro r v held
  simp only [Audit.entry,Dict.lookupSetdefault] at held
  split at held
  · rename_i own
    subst own
    cases first : a.committedByRound.lookup entry.round with
    | none =>
      simp only [first,Option.getD_none,Option.some.injEq] at held
      exact ⟨entry,by simp,rfl,held⟩
    | some w =>
      simp only [first,Option.getD_some,Option.some.injEq] at held
      obtain ⟨e,member,round,value⟩ := recorded entry.round w first
      exact ⟨e,by simp [member],round,value.trans held⟩
  · obtain ⟨e,member,rest⟩ := recorded r v held
    exact ⟨e,by simp [member],rest⟩

theorem entriesQuiet (recorded : a.Recorded seen) (single : SingleValued (seen ++ entries)) :
    (entries.foldl (Audit.entry nodeId) a).violations = a.violations ∧
      (entries.foldl (Audit.entry nodeId) a).Recorded (seen ++ entries) := by
  induction entries generalizing a seen with
  | nil => exact ⟨rfl,by simpa using recorded⟩
  | cons entry rest ih =>
    have split : seen ++ entry :: rest = (seen ++ [entry]) ++ rest := by simp
    rw [split] at single ⊢
    obtain ⟨quiet,later⟩ := ih (entryRecorded recorded entry) single
    refine ⟨quiet.trans ?_,later⟩
    have previous : committedValue entry =
        Dict.getD a.committedByRound entry.round (committedValue entry) := by
      cases first : a.committedByRound.lookup entry.round with
      | none => simp [Dict.getD,first]
      | some v =>
        obtain ⟨e,member,round,value⟩ := recorded entry.round v first
        have same := single e (by simp [member]) entry (by simp) round
        simp [Dict.getD,first,← value,same]
    simp [Audit.entry,← previous]

-- What an entry adds to the reports, and that nothing is ever taken back.
theorem entriesGrow : ∃ more, (entries.foldl (Audit.entry nodeId) a).violations = a.violations ++ more := by
  induction entries generalizing a with
  | nil => exact ⟨[],by simp⟩
  | cons entry rest ih =>
    obtain ⟨more,later⟩ := @ih (a.entry nodeId entry)
    rw [List.foldl_cons,later]
    unfold Audit.entry
    dsimp only
    split
    · exact ⟨_,List.append_assoc _ _ _⟩
    · exact ⟨more,rfl⟩

def Audit.Settled (seen : List CommittedRoundRecord) (a : Audit) : Prop :=
  ∀ e ∈ seen, a.committedByRound.lookup e.round = some (committedValue e)

theorem entrySettled (settled : a.Settled seen) (entry : CommittedRoundRecord)
    (silent : (a.entry nodeId entry).violations = a.violations) :
    (a.entry nodeId entry).Settled (seen ++ [entry]) := by
  have previous : committedValue entry =
      Dict.getD a.committedByRound entry.round (committedValue entry) := by
    by_contra differs
    simp [Audit.entry,differs] at silent
  intro e member
  simp only [Audit.entry,Dict.lookupSetdefault]
  rcases List.mem_append.mp member with old | new
  · split
    · rename_i own
      rw [← own,settled e old]
      rfl
    · exact settled e old
  · cases List.mem_singleton.mp new
    rw [if_pos rfl]
    exact congrArg some previous.symm

theorem entriesSettled (settled : a.Settled seen)
    (silent : (entries.foldl (Audit.entry nodeId) a).violations = a.violations) :
    (entries.foldl (Audit.entry nodeId) a).Settled (seen ++ entries) := by
  induction entries generalizing a seen with
  | nil => simpa using settled
  | cons entry rest ih =>
    obtain ⟨first,begun⟩ := @entriesGrow [entry] a nodeId
    obtain ⟨more,later⟩ := @entriesGrow rest (a.entry nodeId entry) nodeId
    have begun : (a.entry nodeId entry).violations = a.violations ++ first := begun
    rw [List.foldl_cons,later,begun,List.append_assoc] at silent
    have empty := List.append_right_eq_self.mp silent
    obtain ⟨none,rest'⟩ := List.append_eq_nil_iff.mp empty
    have now := entrySettled settled entry (by rw [begun,none,List.append_nil])
    have split : seen ++ entry :: rest = (seen ++ [entry]) ++ rest := by simp
    rw [split,List.foldl_cons]
    exact ih now (by rw [later,rest',List.append_nil])

def storedEntries (nodes : List NodeResult) : List CommittedRoundRecord :=
  nodes.flatMap NodeResult.committedRounds

theorem nodesQuiet (recorded : a.Recorded seen) (single : SingleValued (seen ++ storedEntries nodes)) :
    (nodes.foldl Audit.node a).violations = a.violations ++ nodes.filterMap nonPrefixReport := by
  induction nodes generalizing a seen with
  | nil => simp
  | cons node rest ih =>
    have split : seen ++ storedEntries (node :: rest) =
        (seen ++ node.committedRounds) ++ storedEntries rest := by simp [storedEntries]
    rw [split] at single
    have noted : Audit.Recorded seen {a with violations := a.violations ++ (nonPrefixReport node).toList} :=
      recorded
    obtain ⟨quiet,later⟩ := @entriesQuiet _ seen _ node.nodeId noted
      (fun e member e' member' => single e (List.mem_append_left _ member) e' (List.mem_append_left _ member'))
    rw [← nodeAudit] at quiet later
    rw [List.foldl_cons,ih later single,quiet]
    cases report : nonPrefixReport node <;> simp [report]

theorem nodeGrows (node : NodeResult) : ∃ more, (a.node node).violations = a.violations ++ more := by
  rw [nodeAudit]
  obtain ⟨more,later⟩ := @entriesGrow node.committedRounds
    {a with violations := a.violations ++ (nonPrefixReport node).toList} node.nodeId
  exact ⟨_,by rw [later,List.append_assoc]⟩

theorem nodesGrow : ∃ more, (nodes.foldl Audit.node a).violations = a.violations ++ more := by
  induction nodes generalizing a with
  | nil => exact ⟨[],by simp⟩
  | cons node rest ih =>
    obtain ⟨first,begun⟩ := @nodeGrows a node
    obtain ⟨more,later⟩ := @ih (a.node node)
    exact ⟨first ++ more,by rw [List.foldl_cons,later,begun,List.append_assoc]⟩

theorem nodesSettled (settled : a.Settled seen) (silent : (nodes.foldl Audit.node a).violations = a.violations) :
    (nodes.foldl Audit.node a).Settled (seen ++ storedEntries nodes) := by
  induction nodes generalizing a seen with
  | nil => simpa [storedEntries] using settled
  | cons node rest ih =>
    obtain ⟨more,later⟩ := @nodesGrow rest (a.node node)
    obtain ⟨own,entries⟩ := @entriesGrow node.committedRounds
      {a with violations := a.violations ++ (nonPrefixReport node).toList} node.nodeId
    rw [← nodeAudit] at entries
    rw [List.foldl_cons,later,entries,List.append_assoc,List.append_assoc] at silent
    obtain ⟨report,silent⟩ := List.append_eq_nil_iff.mp (List.append_right_eq_self.mp silent)
    obtain ⟨own',rest'⟩ := List.append_eq_nil_iff.mp silent
    have held : Audit.Settled seen {a with violations := a.violations ++ (nonPrefixReport node).toList} :=
      settled
    have now := @entriesSettled _ seen _ node.nodeId held (by rw [← nodeAudit,entries,own',List.append_nil])
    rw [← nodeAudit] at now
    have split : seen ++ storedEntries (node :: rest) =
        (seen ++ node.committedRounds) ++ storedEntries rest := by simp [storedEntries]
    rw [split,List.foldl_cons]
    exact ih now (by rw [later,rest',List.append_nil])

theorem settledSingle (settled : a.Settled entries) : SingleValued entries := by
  intro e member e' member' round
  have first := settled e member
  rw [round,settled e' member'] at first
  exact (Option.some.inj first).symm

/- The audit is silent exactly when every node stores the rounds from 0 on without a gap and
no round is stored with two values, wherever its entries are. -/
theorem auditExact (nodes : List NodeResult) : safetyViolations nodes = [] ↔
    (∀ node ∈ nodes, node.prefixed) ∧ SingleValued (storedEntries nodes) := by
  have empty : Audit.Recorded [] {} := by
    intro r v held
    simp at held
  constructor
  · intro silent
    have settled : Audit.Settled [] {} := by
      intro e member
      cases member
    have single := settledSingle (nodesSettled settled silent)
    rw [List.nil_append] at single
    refine ⟨?_,single⟩
    have reports := nodesQuiet empty (by rwa [List.nil_append])
    rw [show (nodes.foldl Audit.node {}).violations = [] from silent] at reports
    intro node member
    by_contra broken
    have none := List.filterMap_eq_nil_iff.mp reports.symm node member
    simp [nonPrefixReport,broken] at none
  · rintro ⟨prefixes,single⟩
    have reports := nodesQuiet empty (by rwa [List.nil_append])
    refine reports.trans ?_
    rw [List.nil_append,List.filterMap_eq_nil_iff]
    intro node member
    exact if_pos (prefixes node member)

end Audit

section Trial

structure RandomFaultConfig where
  nodeCount : Nat := 3
  rounds : Nat := 8
  trials : Nat := 100
  packetLoss : ℚ := 0
  packetDelay : ℚ := 0
  ackCorruption : ℚ := 0
  duplicate : ℚ := 0
  nodeCrash : ℚ := 0

-- A value of `rng.random()`.
def Uniform := {x : ℚ // 0 ≤ x ∧ x < 1}

def Uniform.below (x : Uniform) (p : ℚ) : Bool := decide (x.1 < p)

structure PacketDraw where
  roll : Uniform
  ack : Uniform
  row : Nat
  duplicate : Uniform

/- The draws of a trial. A network model is consulted once for each packet and destination,
so a function of the two stands for the part of the random stream it is given. -/
structure TrialDraws where
  packet : Packet → Nat → PacketDraw
  crash : Nat → Nat → Uniform

def randomNetworkFaultModel (config : RandomFaultConfig) (draw : Packet → Nat → PacketDraw) :
    NetworkFaultModel := fun packet dst =>
  let drawn := draw packet dst
  if drawn.roll.below config.packetLoss then {deliverRound := none}
  else if drawn.roll.1 - config.packetLoss < config.packetDelay then
    {deliverRound := some (packet.roundId + 1)}
  else
    { deliverRound := some packet.roundId
      rowOverride := if drawn.ack.below config.ackCorruption then some drawn.row else none
      extraDeliverRounds := if drawn.duplicate.below config.duplicate then [packet.roundId] else [] }

def crashRound (config : RandomFaultConfig) (draw : Nat → Nat → Uniform) (nodeId : Nat) : Option Nat :=
  if nodeId < config.nodeCount then
    (List.range' 1 (config.rounds - 1)).find? (fun r => (draw nodeId r).below config.nodeCrash)
  else none

def randomNodeFaultModel (config : RandomFaultConfig) (draw : Nat → Nat → Uniform) : NodeFaultModel :=
  fun nodeId roundId =>
    match crashRound config draw nodeId with
    | none => true
    | some crash => decide (roundId < crash)

def defaultPayload (nodeId : Nat) (roundId : Int) : String := toString nodeId ++ "_" ++ toString roundId

def randomTrial (config : RandomFaultConfig) (hash : LogHash) (draws : TrialDraws) : ClusterRun :=
  { nodeCount := config.nodeCount
    rounds := config.rounds
    payloadFactory := defaultPayload
    networkFaultModel := randomNetworkFaultModel config draws.packet
    nodeFaultModel := randomNodeFaultModel config draws.crash
    hash := hash }

def runRandomTrial (config : RandomFaultConfig) (hash : LogHash) (draws : TrialDraws) :
    Py (List NodeResult) := do
  let s ← (randomTrial config hash draws).simulate
  .ok ((randomTrial config hash draws).result s)

structure TrialSummary where
  statuses : List NodeStatus
  committedCounts : List Nat
  maxCommitted : Nat
  haltedNodes : Nat
  crashedNodes : Nat
  firstHaltRound : Option Int
  firstCrashRound : Option Int
  safetyViolations : List SafetyViolation

def roundsDown (status : NodeStatus) (nodes : List NodeResult) : List Int :=
  (nodes.filter (fun node => node.status = status)).filterMap NodeResult.haltedRound

def summarizeTrial (nodes : List NodeResult) : TrialSummary :=
  let statuses := nodes.map NodeResult.status
  let committedCounts := nodes.map (fun node => node.committedRounds.length)
  { statuses := statuses
    committedCounts := committedCounts
    maxCommitted := committedCounts.foldl max 0
    haltedNodes := statuses.count .halted
    crashedNodes := statuses.count .crashed
    firstHaltRound := (roundsDown .halted nodes).min?
    firstCrashRound := (roundsDown .crashed nodes).min?
    safetyViolations := safetyViolations nodes }

structure CampaignSummary where
  trials : Nat
  safetyViolationRuns : Nat
  haltedRuns : Nat
  crashedRuns : Nat
  allRunningRuns : Nat
  avgCommittedRoundsPerNode : ℚ

structure CampaignReport where
  summary : CampaignSummary
  trials : List TrialSummary

def summarizeCampaign (config : RandomFaultConfig) (trials : List TrialSummary) : CampaignSummary :=
  let committed := (trials.map (fun trial => trial.committedCounts.sum)).sum
  let nodeRuns := config.trials * config.nodeCount
  { trials := config.trials
    safetyViolationRuns := trials.countP (fun trial => !trial.safetyViolations.isEmpty)
    haltedRuns := trials.countP (fun trial => 0 < trial.haltedNodes)
    crashedRuns := trials.countP (fun trial => 0 < trial.crashedNodes)
    allRunningRuns := trials.countP (fun trial => trial.haltedNodes = 0 ∧ trial.crashedNodes = 0)
    avgCommittedRoundsPerNode := if nodeRuns = 0 then 0 else committed / nodeRuns }

def runCampaign (config : RandomFaultConfig) (hash : LogHash) (draws : Nat → TrialDraws) :
    Py CampaignReport := do
  let trials ← (List.range config.trials).mapM (fun trial => do
    let result ← runRandomTrial config hash (draws trial)
    .ok (summarizeTrial result))
  .ok ⟨summarizeCampaign config trials,trials⟩

-- The exit status of the command line.
def campaignExit (report : CampaignReport) : Nat := if report.summary.safetyViolationRuns = 0 then 0 else 1

end Trial

section Verdict

variable {config : RandomFaultConfig} {hash : LogHash} {draws : TrialDraws}

theorem trialFaithful (honest : config.ackCorruption ≤ 0) :
    ClusterRun.Faithful (randomTrial config hash draws) := by
  intro packet dst
  have spared : (draws.packet packet dst).ack.below config.ackCorruption = false :=
    decide_eq_false (not_lt.mpr (honest.trans (draws.packet packet dst).ack.2.1))
  change (randomNetworkFaultModel config draws.packet packet dst).toPacketOverrides = {} ∧
    ∀ extra ∈ (randomNetworkFaultModel config draws.packet packet dst).extraCopies, _
  unfold randomNetworkFaultModel
  dsimp only
  rw [spared]
  split
  · exact ⟨rfl,by simp⟩
  · split
    · exact ⟨rfl,by simp⟩
    · exact ⟨rfl,by simp⟩

theorem defaultForward : Forward ({} : SimulationTiming) 10 := by
  constructor <;> decide

theorem defaultFloor : OnlineRejoinControlPlane.firstPrepareRound {}
    ({} : SimulationTiming).haltReportDelayNs + 10 = 34 := by decide

theorem resultSingle {run : ClusterRun} {s : Cluster} (consistent : ClusterRun.Consistent run s) :
    SingleValued (storedEntries (run.result s)) := by
  have inside : ∀ e ∈ storedEntries (run.result s), ∃ i < run.nodeCount, e ∈ s.commitHistoryByNode i := by
    intro e member
    simpa [storedEntries,ClusterRun.result] using member
  intro e member e' member' round
  obtain ⟨i,left,held⟩ := inside e member
  obtain ⟨j,right,held'⟩ := inside e' member'
  obtain ⟨epoch,commitSet,proposals⟩ := consistent i left j right e held e' held' round
  simp [committedValue,epoch,commitSet,proposals]

theorem shortCalm {run : ClusterRun} {moves : List (Move Point Phase)} {pt : Point}
    (forward : Forward run.timing 10) (ran : Ran run.system moves pt) (short : run.rounds ≤ run.cutoverFloor) :
    ClusterRun.Calm pt := by
  intro config held
  rw [ClusterRun.firstConfigShort forward ran short config held]
  exact le_refl (0 : Int)

theorem trialAudited (honest : config.ackCorruption ≤ 0) :
    ∃ nodes, runRandomTrial config hash draws = .ok nodes ∧
      safetyViolations nodes = nodes.filterMap nonPrefixReport ∧
      (config.rounds ≤ 34 → safetyViolations nodes = []) := by
  obtain ⟨s,moves,done,ran⟩ := @ClusterRun.simulationCompletes (randomTrial config hash draws) defaultForward.length
  have single := resultSingle (ClusterRun.ranAgreeing (trialFaithful honest) ran).1
  have empty : Audit.Recorded [] {} := by
    intro r v held
    simp at held
  refine ⟨_,by rw [runRandomTrial,done,okBind],nodesQuiet empty (by rwa [List.nil_append]),?_⟩
  intro short
  refine (auditExact _).mpr ⟨?_,single⟩
  have floor : (randomTrial config hash draws).cutoverFloor = 34 := defaultFloor
  have calm := @shortCalm (randomTrial config hash draws) moves _ defaultForward ran (by rw [floor]; exact_mod_cast short)
  intro node member
  obtain ⟨i,bound,rfl⟩ := List.mem_map.mp member
  exact ClusterRun.ranUnbroken ran calm i (List.mem_range.mp bound)

/- A campaign without row corruption completes whatever it draws. No trial reports two values
of a round, and with at most 34 rounds a trial none of them reports anything at all. -/
structure CampaignSound (config : RandomFaultConfig) (report : CampaignReport) : Prop where
  counted : report.trials.length = config.trials
  agreed : ∀ trial ∈ report.trials, ∀ violation ∈ trial.safetyViolations,
    ∃ nodeId rounds, violation = .nonPrefix nodeId rounds
  clean : config.rounds ≤ 34 → campaignExit report = 0

theorem campaignSound (honest : config.ackCorruption ≤ 0) (hash : LogHash) (draws : Nat → TrialDraws) :
    ∃ report, runCampaign config hash draws = .ok report ∧ CampaignSound config report := by
  have each : ∀ trial ∈ List.range config.trials, ∃ summary,
      (do let result ← runRandomTrial config hash (draws trial); .ok (summarizeTrial result)) =
        (.ok summary : Py TrialSummary) ∧
      (∀ violation ∈ summary.safetyViolations, ∃ nodeId rounds, violation = .nonPrefix nodeId rounds) ∧
      (config.rounds ≤ 34 → summary.safetyViolations = []) := by
    intro trial _
    obtain ⟨nodes,done,reports,short⟩ := @trialAudited config hash (draws trial) honest
    refine ⟨summarizeTrial nodes,by rw [done,okBind],?_,short⟩
    intro violation member
    have member : violation ∈ safetyViolations nodes := member
    rw [reports] at member
    obtain ⟨node,_,made⟩ := List.mem_filterMap.mp member
    unfold nonPrefixReport at made
    split at made
    · cases made
    · exact ⟨_,_,(Option.some.inj made).symm⟩
  obtain ⟨trials,done,counted,all⟩ := mapTotal each
  refine ⟨⟨summarizeCampaign config trials,trials⟩,by rw [runCampaign,done,okBind],
    counted.trans List.length_range,fun trial member => (all trial member).1,?_⟩
  intro short
  have none : trials.countP (fun trial => !trial.safetyViolations.isEmpty) = 0 := by
    rw [List.countP_eq_zero]
    intro trial member
    simp [(all trial member).2 short]
  exact if_pos none

/- Every second packet is lost: between the nodes of different parity in the second trial,
where node 2 crashes in round 4, and between the others in the first. -/
def harsh : RandomFaultConfig := {trials := 2, packetLoss := 1 / 2, nodeCrash := 1 / 2}

theorem halfUniform : (0 : ℚ) ≤ 1 / 2 ∧ (1 / 2 : ℚ) < 1 := by decide +kernel

theorem zeroUniform : (0 : ℚ) ≤ 0 ∧ (0 : ℚ) < 1 := ⟨le_rfl,zero_lt_one⟩

def harshDraws (trial : Nat) : TrialDraws where
  packet packet dst :=
    { roll := if (packet.srcId + dst + trial) % 2 = 0 then ⟨0,zeroUniform⟩ else ⟨1 / 2,halfUniform⟩
      ack := ⟨0,zeroUniform⟩
      row := 0
      duplicate := ⟨0,zeroUniform⟩ }
  crash nodeId roundId :=
    if trial = 1 ∧ nodeId = 2 ∧ roundId = 4 then ⟨0,zeroUniform⟩ else ⟨1 / 2,halfUniform⟩

theorem campaignSoundOnce : ∃ report,
    runCampaign harsh ⟨fun _ => "",fun _ _ => ""⟩ harshDraws = .ok report ∧
      report.trials.map TrialSummary.committedCounts = [[0,0,0],[3,0,2]] ∧
      report.summary.haltedRuns = 2 ∧ report.summary.crashedRuns = 1 ∧ CampaignSound harsh report := by
  obtain ⟨report,done,sound⟩ := @campaignSound harsh le_rfl ⟨fun _ => "",fun _ _ => ""⟩ harshDraws
  have value : (runCampaign harsh ⟨fun _ => "",fun _ _ => ""⟩ harshDraws).toOption.map (fun report =>
      (report.trials.map TrialSummary.committedCounts,report.summary.haltedRuns,
        report.summary.crashedRuns)) = some ([[0,0,0],[3,0,2]],2,1) := by decide +kernel
  rw [done] at value
  simp only [Except.toOption,Option.map_some,Option.some.injEq,Prod.mk.injEq] at value
  exact ⟨report,done,value.1,value.2.1,value.2.2,sound⟩

end Verdict

end Syncons
