import Syncons.CoreSteps

/-! The commit stream of a core over a run under fault-free time. While its 64-bit round
counter does not wrap the committed rounds ascend, each two boundaries behind the one it
leaves on, and from an install on they follow one another without a gap. -/
namespace Syncons.ConsensusCore
open Runs (System Move Ran)

-- `o_commit_valid` with the round it is about, on the cycle after a move.
def committed (m : Move Bench Inputs) : Option (BitVec 64) :=
  if m.after.core.protocol.commitValid then some m.after.core.protocol.commitRoundId else none

def committedRounds (moves : List (Move Bench Inputs)) : List (BitVec 64) :=
  moves.filterMap committed

def onBoundary (m : Move Bench Inputs) : Bool := m.before.core.timing.roundStartPulse

-- An activation that takes effect, not one that a stop on the same cycle undoes.
def installs (p : Parameters) (m : Move Bench Inputs) : Bool :=
  onBoundary m && m.before.core.activationFires p && m.after.core.protocol.state = .run

def installedRounds (p : Parameters) (moves : List (Move Bench Inputs)) : List (BitVec 64) :=
  (moves.filter (installs p)).map (fun m => m.before.core.timing.roundId)

def carriesOn (p : Parameters) (m : Move Bench Inputs) : Prop :=
  m.after.core.protocol.state = .run ∧ installs p m = false

def boundaries (moves : List (Move Bench Inputs)) : Nat := moves.countP onBoundary

def roundsFrom (first : BitVec 64) (count : Nat) : List (BitVec 64) :=
  (List.range count).map (fun k => first + BitVec.ofNat 64 k)

-- All cycles of the run lie in the same stretch of 2^64 rounds.
def Unwrapped (p : Parameters) (epoch : Nat) (moves : List (Move Bench Inputs)) : Prop :=
  ∀ m ∈ moves, p.roundAt m.op.instant / 2 ^ 64 = epoch

variable {p : Parameters} {b b' : Bench} {s : Core} {x : Inputs} {q : Protocol} {t : Nat}
  {moves : List (Move Bench Inputs)}

structure Committing (p : Parameters) (s : Core) (x : Inputs) : Prop where
  pulse : s.timing.roundStartPulse = true
  running : s.protocol.state = .run
  undue : s.activationDue = false
  commits : s.protocol.evalCommits p = true
  next : s.protocolNext p x = s.passed p (s.arrival p x)

theorem committing (timed : Timed p b) (free : FaultFree p b.now x)
    (valid : (b.core.protocolNext p x).commitValid = true) : Committing p b.core x := by
  have step := tickOf timed free
  generalize same : b.core.protocolNext p x = q at step valid
  cases step with
  | stopped down idle quiet current previous => simp [quiet] at valid
  | listened up alive quiet => simp at valid
  | installed up alive pulse fires =>
    exact Bool.noConfusion (arrivalSilent.symm.trans valid)
  | excluded up alive pulse due without => simp at valid
  | waited up alive pulse idle pending => simp at valid
  | stayed up alive pulse undue still => simp at valid
  | halted up alive pulse undue running halts =>
    exact Bool.noConfusion (arrivalSilent.symm.trans valid)
  | shifted up alive pulse undue running passes =>
    have facts := @passedFacts p b.core (b.core.arrival p x)
    rw [facts.commitValid,arrivalSilent,Bool.or_false] at valid
    exact ⟨pulse,running,undue,valid,same⟩

theorem committingFacts (how : Committing p s x) :
    s.protocol.previousStageValid = true ∧
      (s.protocolNext p x).commitRoundId = s.protocol.previousStageRoundId ∧
      (s.protocolNext p x).commitSet = s.protocol.evalLocalRow p ∧
      (s.protocolNext p x).state = .run ∧
      (s.protocolNext p x).currentRunId = s.protocol.currentRunId := by
  have facts := @passedFacts p s (s.arrival p x)
  have held := how.commits
  simp only [Protocol.evalCommits,Bool.and_eq_true] at held
  rw [how.next,facts.state,facts.runId,arrivalState,arrivalRunId]
  exact ⟨held.1,(facts.committed how.commits).1,(facts.committed how.commits).2,how.running,rfl⟩

theorem ranPiped (ran : Ran (system p) moves b) :
    b.core.protocol.state = .run → Piped p b.core := by
  induction ran with
  | start start =>
    cases start
    exact nofun
  | move before step ih =>
    obtain ⟨free,rfl⟩ := step
    exact pipedStep (ranTimed before) free ih

theorem committedIs (m : Move Bench Inputs) (r : BitVec 64) : committed m = some r ↔
    m.after.core.protocol.commitValid = true ∧ m.after.core.protocol.commitRoundId = r := by
  cases valid : m.after.core.protocol.commitValid <;> simp [committed,valid]

theorem commitsTwoBehind {m : Move Bench Inputs} {r : BitVec 64} (timed : Timed p m.before)
    (piped : m.before.core.protocol.state = .run → Piped p m.before.core)
    (step : (system p).step m.before m.op m.after) (held : committed m = some r) :
    onBoundary m = true ∧ m.before.core.timing.roundId = r + 2 := by
  obtain ⟨free,after⟩ := step
  obtain ⟨valid,round⟩ := (committedIs _ r).mp held
  rw [after] at valid round
  have how := committing timed free valid
  obtain ⟨ready,emitted,_⟩ := committingFacts how
  refine ⟨how.pulse,?_⟩
  have behind := (piped how.running).previous ready
  have same : m.before.core.protocol.previousStageRoundId = r := emitted.symm.trans round
  rw [same] at behind
  have entering : m.before.core.lastEntered + 1 = m.before.core.timing.roundId := lastEnteredPulse how.pulse
  rw [← entering,← behind,BitVec.add_assoc]
  rfl

theorem installsFacts {m : Move Bench Inputs} (timed : Timed p m.before)
    (step : (system p).step m.before m.op m.after) (held : installs p m = true) :
    onBoundary m = true ∧ m.before.core.protocol.state.engaged ∧
      m.after.core.protocol = m.before.core.install p (m.before.core.arrival p m.op) := by
  obtain ⟨free,after⟩ := step
  simp only [installs,Bool.and_eq_true,decide_eq_true_eq] at held
  obtain ⟨⟨pulse,fires⟩,running⟩ := held
  rw [after] at running ⊢
  have step := tickOf timed free
  obtain ⟨up,alive,engaged⟩ := runningBefore step running
  refine ⟨pulse,engaged,?_⟩
  have due : m.before.core.activationDue = true := by
    simp only [Core.activationFires,Bool.and_eq_true] at fires
    exact fires.1
  show m.before.core.protocolNext p m.op = _
  have running : (m.before.core.protocolNext p m.op).state = .run := running
  generalize m.before.core.protocolNext p m.op = q at step running
  cases step with
  | stopped down idle silent current previous => simp [idle] at running
  | listened up alive quiet => exact Bool.noConfusion (quiet.symm.trans pulse)
  | installed up alive pulse fires => rfl
  | excluded up alive pulse due without => cases running
  | waited up alive pulse idle pending => cases running
  | stayed up alive pulse undue still => exact Bool.noConfusion (undue.symm.trans due)
  | halted up alive pulse undue running' halts => exact Bool.noConfusion (undue.symm.trans due)
  | shifted up alive pulse undue running' passes => exact Bool.noConfusion (undue.symm.trans due)

def number (epoch : Nat) (r : BitVec 64) : Nat := epoch * 2 ^ 64 + r.toNat

theorem numberOf {epoch n : Nat} (inside : n / 2 ^ 64 = epoch) :
    number epoch (BitVec.ofNat 64 n) = n := by
  simp only [number,BitVec.toNat_ofNat]
  omega

/- What the emitted and the installed rounds of a run so far say about the last round the
core has entered. -/
structure Streamed (p : Parameters) (epoch : Nat) (moves : List (Move Bench Inputs)) (b : Bench) :
    Prop where
  near : ∀ t ∈ b.now, p.roundAt t / 2 ^ 64 = epoch
  placed : b.core.protocol.state = .run →
    b.core.protocol.previousStageValid = true → 1 ≤ entered p b ∧ (entered p b - 1) / 2 ^ 64 = epoch
  inside : b.core.protocol.state = .run → entered p b / 2 ^ 64 = epoch
  ascending : (committedRounds moves).Pairwise (· < ·)
  past : ∀ r ∈ committedRounds moves, number epoch r + 2 ≤ entered p b
  begun : ∀ r ∈ installedRounds p moves, number epoch r ≤ entered p b
  apart : ∀ i ∈ installedRounds p moves, ∀ r ∈ committedRounds moves,
    number epoch r + 2 < number epoch i ∨ number epoch i ≤ number epoch r
  staged : b.core.protocol.state = .run → b.core.protocol.previousStageValid = true →
    ∀ i ∈ installedRounds p moves, number epoch i + 1 ≤ entered p b

theorem committedSnoc (m : Move Bench Inputs) :
    committedRounds (moves ++ [m]) = committedRounds moves ++ (committed m).toList := by
  cases held : committed m <;> simp [committedRounds,held]

theorem installedSnoc (m : Move Bench Inputs) :
    installedRounds p (moves ++ [m]) = installedRounds p moves ++
      if installs p m then [m.before.core.timing.roundId] else [] := by
  cases held : installs p m <;> simp [installedRounds,List.filter_append,held]

inductive Through (p : Parameters) (s : Core) (x : Inputs) : Prop where
  | listened (quiet : s.timing.roundStartPulse = false) (running : s.protocol.state = .run)
      (next : s.protocolNext p x = s.arrival p x)
  | installed (pulse : s.timing.roundStartPulse = true) (fires : s.activationFires p = true)
      (next : s.protocolNext p x = s.install p (s.arrival p x))
  | shifted (pulse : s.timing.roundStartPulse = true) (running : s.protocol.state = .run)
      (undue : s.activationDue = false)
      (passes : s.protocol.evalHalts p = false)
      (next : s.protocolNext p x = s.passed p (s.arrival p x))

theorem through (step : Tick p s x (s.protocolNext p x))
    (running : (s.protocolNext p x).state = .run) : Through p s x := by
  generalize same : s.protocolNext p x = q at step running
  cases step with
  | stopped down idle silent current previous => simp [idle] at running
  | listened up alive quiet =>
    exact .listened quiet (by simpa using running) same
  | installed up alive pulse fires => exact .installed pulse fires same
  | excluded up alive pulse due without => cases running
  | waited up alive pulse idle pending => cases running
  | stayed up alive pulse undue still => exact absurd (by simpa using running) still
  | halted up alive pulse undue running' halts => cases running
  | shifted up alive pulse undue running' passes => exact .shifted pulse running' undue passes same

theorem listenedValid (next : s.protocolNext p x = s.arrival p x) :
    (s.protocolNext p x).previousStageValid = s.protocol.previousStageValid := by
  rw [next,arrivalKeeps]

theorem installedValid (next : s.protocolNext p x = s.install p (s.arrival p x)) :
    (s.protocolNext p x).previousStageValid = false := by
  rw [next]
  rfl

theorem installsDue {m : Move Bench Inputs} (held : installs p m = true) :
    onBoundary m = true ∧ m.before.core.activationDue = true := by
  simp only [installs,Core.activationFires,Bool.and_eq_true] at held
  exact ⟨held.1.1,held.1.2.1⟩

theorem enteredOn (now : b.now = some t) (pulse : b.core.timing.roundStartPulse = true) :
    entered p b = p.roundAt t - 1 := by simp [entered,now,pulse]

theorem enteredOff (now : b.now = some t) (quiet : b.core.timing.roundStartPulse = false) :
    entered p b = p.roundAt t := by simp [entered,now,quiet]

theorem pulseNow (timed : Timed p b) (pulse : b.core.timing.roundStartPulse = true) :
    ∃ t, b.now = some t ∧ b.core.timing.roundId = BitVec.ofNat 64 (p.roundAt t) ∧
      0 < p.roundAt t := by
  cases seen : b.core.timing.secondValid with
  | false => exact Bool.noConfusion ((timed.dark seen).2.2.1.symm.trans pulse)
  | true =>
    obtain ⟨t,now,_⟩ := timed.second seen
    obtain ⟨round,_,later⟩ := timed.pulsed pulse t now
    exact ⟨t,now,round,later⟩

structure Crossing (p : Parameters) (m : Move Bench Inputs) (n : Nat) : Prop where
  positive : 0 < n
  before : entered p m.before = n - 1
  after : n ≤ entered p m.after

theorem crossing {m : Move Bench Inputs} (timed : Timed p m.before)
    (step : (system p).step m.before m.op m.after) (pulse : onBoundary m = true) :
    ∃ n, Crossing p m n ∧ m.before.core.timing.roundId = BitVec.ofNat 64 n ∧
      ∀ t ∈ m.before.now, n = p.roundAt t := by
  obtain ⟨t,now,round,positive⟩ := pulseNow timed pulse
  obtain ⟨free,after⟩ := step
  refine ⟨p.roundAt t,⟨positive,enteredOn now pulse,?_⟩,round,?_⟩
  · rw [after]
    exact enteredMono timed free now
  · intro t' now'
    cases now.symm.trans now'
    rfl

theorem commitNumber {epoch : Nat} {m : Move Bench Inputs} {r : BitVec 64}
    (ran : Ran (system p) moves m.before) (step : (system p).step m.before m.op m.after)
    (streamed : Streamed p epoch moves m.before) (held : committed m = some r) :
    Crossing p m (number epoch r + 2) ∧ m.before.core.protocol.state = .run ∧
      m.before.core.protocol.previousStageValid = true ∧ m.before.core.activationDue = false := by
  have timed := ranTimed ran
  obtain ⟨pulse,behind⟩ := commitsTwoBehind timed (ranPiped ran) step held
  obtain ⟨n,cross,round,_⟩ := crossing timed step pulse
  obtain ⟨free,after⟩ := step
  have valid := ((committedIs _ r).mp held).1
  rw [after] at valid
  have how := committing timed free valid
  have ready := (committingFacts how).1
  obtain ⟨positive,inside⟩ := streamed.placed how.running ready
  rw [cross.before] at positive inside
  have same : r = BitVec.ofNat 64 (n - 2) := by
    have sum : r + 2 = BitVec.ofNat 64 (n - 2) + 2 := by
      rw [← behind,round,show n = n - 2 + 2 by omega,BitVec.ofNat_add]
      rfl
    simpa using sum
  have value : number epoch (BitVec.ofNat 64 (n - 2)) = n - 2 :=
    numberOf (by rw [show n - 2 = n - 1 - 1 by omega]; exact inside)
  rw [same,value,show n - 2 + 2 = n by omega]
  exact ⟨cross,how.running,ready,how.undue⟩

theorem installNumber {epoch : Nat} {m : Move Bench Inputs}
    (timed : Timed p m.before) (step : (system p).step m.before m.op m.after)
    (streamed : Streamed p epoch moves m.before) (held : installs p m = true) :
    Crossing p m (number epoch m.before.core.timing.roundId) ∧
      m.before.core.activationDue = true := by
  obtain ⟨pulse,due⟩ := installsDue held
  obtain ⟨n,cross,round,place⟩ := crossing timed step pulse
  obtain ⟨t,now,_⟩ := pulseNow timed pulse
  have value : number epoch (BitVec.ofNat 64 n) = n :=
    numberOf (by rw [place t now]; exact streamed.near t now)
  rw [round,value]
  exact ⟨cross,due⟩

theorem enteredGrows (timed : Timed p b) (step : (system p).step b x b') :
    entered p b ≤ entered p b' := by
  obtain ⟨free,rfl⟩ := step
  cases now : b.now with
  | none => simp [entered,now]
  | some t => exact le_trans (enteredLe now) (enteredMono timed free now)

/- In a cycle after which the core runs, the round of the cycle is the one entered; the
boundary, if there is one, is the one into it. -/
theorem enteredRunning (timed : Timed p b) (step : (system p).step b x b')
    (running : b'.core.protocol.state = .run) : ∃ t, b.now = some t ∧
      entered p b' = p.roundAt t ∧ Through p b.core x := by
  obtain ⟨free,rfl⟩ := step
  obtain ⟨t,count⟩ := counted timed free running
  exact ⟨t,count.now,count.entered,through (tickOf timed free) running⟩

section Streaming
variable {epoch : Nat} {i r : BitVec 64}

theorem placedNext (timed : Timed p b) (streamed : Streamed p epoch moves b)
    (step : (system p).step b x b') (running : b'.core.protocol.state = .run)
    (ready : b'.core.protocol.previousStageValid = true) :
    1 ≤ entered p b' ∧ (entered p b' - 1) / 2 ^ 64 = epoch := by
  obtain ⟨t,now,entry,how⟩ := enteredRunning timed step running
  rw [entry]
  rw [step.2] at ready
  cases how with
  | listened quiet before next =>
    rw [← enteredOff now quiet]
    exact streamed.placed before ((listenedValid next).symm.trans ready)
  | installed pulse fires next => exact Bool.noConfusion ((installedValid next).symm.trans ready)
  | shifted pulse before undue passes next =>
    obtain ⟨n,cross,_,place⟩ := @crossing p ⟨b,x,b'⟩ timed step pulse
    rw [← place t now,← cross.before]
    exact ⟨cross.positive,streamed.inside before⟩

theorem stagedNext (timed : Timed p b) (streamed : Streamed p epoch moves b)
    (step : (system p).step b x b') (running : b'.core.protocol.state = .run)
    (ready : b'.core.protocol.previousStageValid = true)
    (installed : i ∈ installedRounds p (moves ++ [⟨b,x,b'⟩])) : number epoch i + 1 ≤ entered p b' := by
  obtain ⟨t,now,entry,how⟩ := enteredRunning timed step running
  rw [installedSnoc,List.mem_append] at installed
  rw [step.2] at ready
  cases how with
  | listened quiet before next =>
    have none : installs p ⟨b,x,b'⟩ = false := by simp [installs,onBoundary,quiet]
    have old : i ∈ installedRounds p moves := by simpa [none] using installed
    have staged := streamed.staged before ((listenedValid next).symm.trans ready) i old
    rw [entry]
    rwa [enteredOff now quiet] at staged
  | installed pulse fires next => exact Bool.noConfusion ((installedValid next).symm.trans ready)
  | shifted pulse before undue passes next =>
    have none : installs p ⟨b,x,b'⟩ = false := by simp [installs,Core.activationFires,undue]
    have old : i ∈ installedRounds p moves := by simpa [none] using installed
    obtain ⟨n,cross,_,place⟩ := @crossing p ⟨b,x,b'⟩ timed step pulse
    have begun := streamed.begun i old
    have place' : entered p b = n - 1 := cross.before
    have positive := cross.positive
    rw [entry,← place t now]
    omega

theorem apartNext (ran : Ran (system p) moves b) (streamed : Streamed p epoch moves b)
    (step : (system p).step b x b') (installed : i ∈ installedRounds p (moves ++ [⟨b,x,b'⟩]))
    (member : r ∈ committedRounds (moves ++ [⟨b,x,b'⟩])) :
    number epoch r + 2 < number epoch i ∨ number epoch i ≤ number epoch r := by
  have emission (held : committed ⟨b,x,b'⟩ = some r) :=
    @commitNumber p moves epoch ⟨b,x,b'⟩ r ran step streamed held
  rw [installedSnoc,List.mem_append] at installed
  rw [committedSnoc,List.mem_append,Option.mem_toList] at member
  cases held : installs p ⟨b,x,b'⟩ with
  | false =>
    have old : i ∈ installedRounds p moves := by simpa [held] using installed
    rcases member with before | new
    · exact streamed.apart i old r before
    · obtain ⟨cross,running,ready,_⟩ := emission new
      have staged := streamed.staged running ready i old
      have before : entered p b = number epoch r + 2 - 1 := cross.before
      omega
  | true =>
    obtain ⟨cross,due⟩ := @installNumber p moves epoch ⟨b,x,b'⟩ (ranTimed ran) step streamed held
    have before : entered p b = number epoch b.core.timing.roundId - 1 := cross.before
    have positive : 0 < number epoch b.core.timing.roundId := cross.positive
    rcases member with earlier | new
    · rcases installed with old | fresh
      · exact streamed.apart i old r earlier
      · have same : i = b.core.timing.roundId := by simpa [held] using fresh
        have past := streamed.past r earlier
        rw [same]
        omega
    · exact Bool.noConfusion ((emission new).2.2.2.symm.trans due)

end Streaming

theorem streamedStep {epoch : Nat} (ran : Ran (system p) moves b)
    (streamed : Streamed p epoch moves b) (step : (system p).step b x b')
    (inside : p.roundAt x.instant / 2 ^ 64 = epoch) :
    Streamed p epoch (moves ++ [⟨b,x,b'⟩]) b' := by
  have timed := ranTimed ran
  have grows := enteredGrows timed step
  have emission (r : BitVec 64) (held : committed ⟨b,x,b'⟩ = some r) :=
    @commitNumber p moves epoch ⟨b,x,b'⟩ r ran step streamed held
  have start (held : installs p ⟨b,x,b'⟩ = true) :=
    @installNumber p moves epoch ⟨b,x,b'⟩ timed step streamed held
  constructor
  case near =>
    intro t now
    rw [step.2] at now
    cases now
    exact inside
  case inside =>
    intro running
    obtain ⟨t,now,entry,_⟩ := enteredRunning timed step running
    rw [entry]
    exact streamed.near t now
  case placed =>
    intro running ready
    exact placedNext timed streamed step running ready
  case ascending =>
    rw [committedSnoc,List.pairwise_append]
    refine ⟨streamed.ascending,by cases committed ⟨b,x,b'⟩ <;> simp,?_⟩
    intro r old r' new
    rw [Option.mem_toList] at new
    have cross := (emission r' new).1
    have past := streamed.past r old
    have before : entered p b = number epoch r' + 2 - 1 := cross.before
    rw [BitVec.lt_def]
    simp only [number] at *
    omega
  case past =>
    intro r member
    rw [committedSnoc,List.mem_append,Option.mem_toList] at member
    rcases member with old | new
    · exact le_trans (streamed.past r old) grows
    · exact (emission r new).1.after
  case begun =>
    intro i member
    rw [installedSnoc,List.mem_append] at member
    rcases member with old | new
    · exact le_trans (streamed.begun i old) grows
    · cases held : installs p ⟨b,x,b'⟩ with
      | false => simp [held] at new
      | true =>
        have same : i = b.core.timing.roundId := by simpa [held] using new
        rw [same]
        exact (start held).1.after
  case apart =>
    intro i installed r member
    exact apartNext ran streamed step installed member
  case staged =>
    intro running ready i installed
    exact stagedNext timed streamed step running ready installed

theorem ranStreamed {epoch : Nat} (ran : Ran (system p) moves b)
    (unwrapped : Unwrapped p epoch moves) : Streamed p epoch moves b := by
  induction ran with
  | start start =>
    cases start
    constructor <;> simp [powerUp,committedRounds,installedRounds]
  | @move moves s x s' before step ih =>
    have streamed := ih (fun m member => unwrapped m (by simp [member]))
    exact streamedStep before streamed step (unwrapped ⟨s,x,s'⟩ (by simp))

/- A core that has carried on since an install at `first`: it has entered one round for
each boundary since, and committed all of them but the last two. -/
structure Following (first : BitVec 64) (mid : List (Move Bench Inputs)) (b : Bench) : Prop where
  running : b.core.protocol.state = .run
  entered : b.core.lastEntered = first + BitVec.ofNat 64 (boundaries mid)
  ready : b.core.protocol.previousStageValid = decide (boundaries mid ≠ 0)
  emitted : committedRounds mid = roundsFrom first (boundaries mid - 1)

theorem followingStart {m : Move Bench Inputs} (timed : Timed p m.before)
    (step : (system p).step m.before m.op m.after) (held : installs p m = true) :
    Following m.before.core.timing.roundId [] m.after := by
  obtain ⟨_,_,how⟩ := installsFacts timed step held
  obtain ⟨free,after⟩ := step
  have running : m.after.core.protocol.state = .run := by
    rw [how]
    rfl
  constructor
  · exact running
  · rw [after] at running ⊢
    obtain ⟨t,count⟩ := counted timed free running
    simpa [boundaries] using count.last
  · rw [how]
    rfl
  · rfl

theorem roundsFromSucc (first : BitVec 64) (k : Nat) :
    roundsFrom first (k + 1) = roundsFrom first k ++ [first + BitVec.ofNat 64 k] := by
  simp [roundsFrom,List.range_succ]

theorem quietEmits {m : Move Bench Inputs} (timed : Timed p m.before)
    (piped : m.before.core.protocol.state = .run → Piped p m.before.core)
    (step : (system p).step m.before m.op m.after) (off : onBoundary m = false) : committed m = none := by
  by_contra held
  obtain ⟨r,held⟩ := Option.ne_none_iff_exists'.mp held
  exact Bool.noConfusion (off.symm.trans (commitsTwoBehind timed piped step held).1)

theorem shiftEmits (after : b'.core = b.core.next p x) (passes : b.core.protocol.evalHalts p = false)
    (next : b.core.protocolNext p x = b.core.passed p (b.core.arrival p x)) :
    committed ⟨b,x,b'⟩ =
      if b.core.protocol.previousStageValid then some b.core.protocol.previousStageRoundId else none := by
  have facts := @passedFacts p b.core (b.core.arrival p x)
  rw [← next] at facts
  cases ready : b.core.protocol.previousStageValid with
  | false =>
    have silent : (b.core.protocolNext p x).commitValid = false := by
      rw [facts.commitValid,arrivalSilent]
      simp [Protocol.evalCommits,ready]
    simp only [committed,after]
    exact if_neg (by simp [Core.next,silent])
  | true =>
    have commits : b.core.protocol.evalCommits p = true := by
      simp only [Protocol.evalHalts,ready,Bool.true_and,decide_eq_false_iff_not,not_not] at passes
      simp [Protocol.evalCommits,ready,passes]
    have valid : (b.core.protocolNext p x).commitValid = true := by
      rw [facts.commitValid,commits]
      rfl
    rw [if_pos rfl,committedIs,after]
    exact ⟨valid,(facts.committed commits).1⟩

theorem followingStep {first : BitVec 64} {mid : List (Move Bench Inputs)} (timed : Timed p b)
    (piped : b.core.protocol.state = .run → Piped p b.core) (following : Following first mid b)
    (step : (system p).step b x b') (on : carriesOn p ⟨b,x,b'⟩) :
    Following first (mid ++ [⟨b,x,b'⟩]) b' := by
  obtain ⟨running,anew⟩ := on
  have piped := piped following.running
  obtain ⟨free,after⟩ := step
  have after' : b'.core = b.core.next p x := by rw [after]
  simp only [after'] at running
  obtain ⟨t,count⟩ := counted timed free running
  have last := count.last
  rw [← after'] at last
  cases through (tickOf timed free) running with
  | listened quiet _ next =>
    have off : onBoundary ⟨b,x,b'⟩ = false := quiet
    have none : committed ⟨b,x,b'⟩ = none := quietEmits timed (fun _ => piped) ⟨free,after⟩ off
    have settled : b.core.lastEntered = b.core.timing.roundId := lastEnteredQuiet quiet
    have count : boundaries (mid ++ [⟨b,x,b'⟩]) = boundaries mid := by simp [boundaries,off]
    constructor
    · rw [after']
      exact running
    · rw [last,← settled,count]
      exact following.entered
    · rw [after',count]
      exact (listenedValid next).trans following.ready
    · rw [committedSnoc,none,count]
      simpa using following.emitted
  | installed pulse fires _ =>
    have fresh : installs p ⟨b,x,b'⟩ = true := by
      simp only [installs,onBoundary,pulse,fires,after',running]
      rfl
    exact Bool.noConfusion (anew.symm.trans fresh)
  | shifted pulse _ undue passes next =>
    have on : onBoundary ⟨b,x,b'⟩ = true := pulse
    have facts := @passedFacts p b.core (b.core.arrival p x)
    rw [← next] at facts
    have settled : b.core.lastEntered + 1 = b.core.timing.roundId := lastEnteredPulse pulse
    have count : boundaries (mid ++ [⟨b,x,b'⟩]) = boundaries mid + 1 := by simp [boundaries,on]
    constructor
    · rw [after']
      exact running
    · rw [last,← settled,following.entered,count,BitVec.ofNat_add,BitVec.add_assoc]
      rfl
    · rw [after',count]
      have ready : (b.core.protocolNext p x).previousStageValid = true :=
        facts.valid.trans piped.opened
      show (b.core.protocolNext p x).previousStageValid = _
      simp [ready]
    · rw [committedSnoc,count,following.emitted,shiftEmits after' passes next]
      have held := following.ready
      cases ready : b.core.protocol.previousStageValid with
      | false =>
        rw [ready] at held
        have first' : boundaries mid = 0 := by simpa using held.symm
        simp [first',roundsFrom]
      | true =>
        rw [ready] at held
        have later : boundaries mid ≠ 0 := by simpa using held.symm
        obtain ⟨k,size⟩ := Nat.exists_eq_succ_of_ne_zero later
        have round : b.core.protocol.previousStageRoundId = first + BitVec.ofNat 64 k := by
          have behind := piped.previous ready
          rw [following.entered,size,Nat.succ_eq_add_one,BitVec.ofNat_add,← BitVec.add_assoc] at behind
          simpa using behind
        rw [round,size,Nat.succ_eq_add_one,Nat.add_sub_cancel,Nat.add_sub_cancel]
        exact (roundsFromSucc first k).symm

theorem followed {pre mid : List (Move Bench Inputs)} {m : Move Bench Inputs}
    (ran : Ran (system p) (pre ++ m :: mid) b) (held : installs p m = true)
    (on : ∀ m' ∈ mid, carriesOn p m') : Following m.before.core.timing.roundId mid b := by
  induction mid using List.reverseRecOn generalizing b with
  | nil =>
    obtain ⟨before,step,same⟩ := Runs.ranSnoc ran
    rw [← same]
    exact followingStart (ranTimed before) step held
  | append_singleton mid last ih =>
    rw [← List.cons_append,← List.append_assoc] at ran
    obtain ⟨before,step,same⟩ := Runs.ranSnoc ran
    have following := ih before (fun m' member => on m' (by simp [member]))
    rw [← same]
    exact followingStep (ranTimed before) (ranPiped before) following step (on last (by simp))

theorem commitStream (p : Parameters) {moves : List (Move Bench Inputs)} {b : Bench}
    (ran : Ran (system p) moves b) :
    (∀ m ∈ moves, ∀ r, committed m = some r →
      onBoundary m = true ∧ m.before.core.timing.roundId = r + 2) ∧
    (∀ pre m mid post, moves = pre ++ m :: (mid ++ post) → installs p m = true →
      (∀ m' ∈ mid, carriesOn p m') →
        committedRounds mid = roundsFrom m.before.core.timing.roundId (boundaries mid - 1)) ∧
    (∀ epoch, Unwrapped p epoch moves →
      (committedRounds moves).Pairwise (· < ·) ∧
      ∀ i ∈ installedRounds p moves, ∀ r ∈ committedRounds moves,
        r.toNat + 1 ≠ i.toNat ∧ r.toNat + 2 ≠ i.toNat) := by
  refine ⟨?_,?_,?_⟩
  · intro m member r held
    obtain ⟨pre,post,rfl⟩ := List.append_of_mem member
    obtain ⟨before,step,_⟩ := Runs.ranAt ran
    exact commitsTwoBehind (ranTimed before) (ranPiped before) step held
  · rintro pre m mid post rfl held on
    rw [← List.cons_append,← List.append_assoc] at ran
    obtain ⟨last,before⟩ := Runs.ranPrefix ran
    exact (followed before held on).emitted
  · intro epoch unwrapped
    have streamed := ranStreamed ran unwrapped
    refine ⟨streamed.ascending,?_⟩
    intro i installed r emitted
    have apart := streamed.apart i installed r emitted
    simp only [number] at apart
    omega

theorem twoNarrow : 2 ≤ 8 := by decide

-- A single core that is enabled and armed at once, on a clock of two cycles a round.
def alone : Parameters :=
  { nodeCount := 1, nodeId := 0, divides := by decide, fits := by decide, admits := by decide,
    named := by decide, narrow := by decide }

def aloneAt (sec ns : Nat) (regWr : Option RegWrite) : Inputs :=
  {ptpTodSec := BitVec.ofNat 48 sec, ptpTodNs := BitVec.ofNat 32 ns, regWr := regWr}

def aloneInputs (sec ns cycles : Nat) : List Inputs :=
  aloneAt sec ns (some ⟨0x003104,1⟩) :: aloneAt sec ns none :: aloneAt sec ns (some ⟨0x00300C,3⟩) ::
    (List.range cycles).map (fun k => aloneAt sec (ns + 2000 * k) none)

theorem commitStreamOnce : ∃ moves b, play alone (aloneInputs 1 0 14) = .ok (moves,b) ∧
    committedRounds moves = [250002,250003,250004] ∧ installedRounds alone moves = [250002] ∧
    (∀ m ∈ moves, ∀ r, committed m = some r →
      onBoundary m = true ∧ m.before.core.timing.roundId = r + 2) ∧
    (∀ pre m mid post, moves = pre ++ m :: (mid ++ post) → installs alone m = true →
      (∀ m' ∈ mid, carriesOn alone m') →
        committedRounds mid = roundsFrom m.before.core.timing.roundId (boundaries mid - 1)) ∧
    (∀ epoch, Unwrapped alone epoch moves →
      (committedRounds moves).Pairwise (· < ·) ∧
      ∀ i ∈ installedRounds alone moves, ∀ r ∈ committedRounds moves,
        r.toNat + 1 ≠ i.toNat ∧ r.toNat + 2 ≠ i.toNat) := by
  have value : (play alone (aloneInputs 1 0 14)).toOption.map (fun result =>
      (committedRounds result.1,installedRounds alone result.1)) =
        some ([250002,250003,250004],[250002]) := by decide +kernel
  obtain ⟨⟨moves,b⟩,done,found⟩ := Runs.okFound value
  exact ⟨moves,b,done,congrArg Prod.fst found,congrArg Prod.snd found,commitStream alone (playRan done)⟩

/- Seconds times rounds per second reach 2^64 well inside the 48 bits of the seconds; there
the round counter and the committed rounds start again at zero. -/
theorem commitStreamWraps :
    ∃ moves b, play alone (aloneInputs 73786976294838 206448000 14) = .ok (moves,b) ∧
      Ran (system alone) moves b ∧ ¬ (committedRounds moves).Pairwise (· < ·) := by
  have value : (play alone (aloneInputs 73786976294838 206448000 14)).toOption.map
      (fun result => committedRounds result.1) = some [0xFFFFFFFFFFFFFFFE,0xFFFFFFFFFFFFFFFF,0] := by
    decide +kernel
  obtain ⟨⟨moves,b⟩,done,rounds⟩ := Runs.okFound value
  refine ⟨moves,b,done,playRan done,?_⟩
  rw [rounds]
  decide

end Syncons.ConsensusCore
