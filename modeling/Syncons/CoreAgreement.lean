import Syncons.BoundaryEvaluation
import Syncons.CommitStream
import Syncons.Bitmap

/-! Agreement of the cores of a deployment, each with its own clock and configuration,
over a network that hands on frames that were sent, late, repeatedly or never. A core
speaks for a round with one run id and one row, and two quorums share a speaker. -/
namespace Syncons.ConsensusCore
open Runs (System Move Ran)

structure Deployment where
  nodeCount : Nat
  core : Nat → Parameters
  counted : ∀ i, (core i).nodeCount = nodeCount
  identified : ∀ i, i < nodeCount → (core i).nodeId = i

structure Fabric where
  benches : Nat → Bench
  sent : List RxRow := []

-- The frame of core `i`, sampled at `o_tx_start_pulse`.
def frame (i : Nat) (s : Core) : RxRow :=
  ⟨BitVec.ofNat 8 i,s.protocol.txRow,s.protocol.txRunId,s.protocol.txRoundId⟩

def emitted (i : Nat) (s : Core) : List RxRow := if s.oTxStartPulse then [frame i s] else []

def deployed (d : Deployment) : System Fabric (Nat × Inputs) where
  start f := f = ⟨fun i => ⟨powerUp (d.core i),none⟩,[]⟩
  step f op f' :=
    op.1 < d.nodeCount ∧ FaultFree (d.core op.1) (f.benches op.1).now op.2 ∧
      (∀ r, op.2.rx = some r → r ∈ f.sent) ∧
      f' =
        ⟨Function.update f.benches op.1
            ⟨(f.benches op.1).core.next (d.core op.1) op.2,some op.2.instant⟩,
          f.sent ++ emitted op.1 (f.benches op.1).core⟩

def part (i : Nat) (m : Move Fabric (Nat × Inputs)) : Option (Move Bench Inputs) :=
  if m.op.1 = i then some ⟨m.before.benches i,m.op.2,m.after.benches i⟩ else none

def parts (i : Nat) (moves : List (Move Fabric (Nat × Inputs))) : List (Move Bench Inputs) :=
  moves.filterMap (part i)

variable {d : Deployment} {p : Parameters} {b b' : Bench} {s : Core} {x : Inputs} {f f' : Fabric}
  {moves : List (Move Fabric (Nat × Inputs))} {own : List (Move Bench Inputs)} {i j : Nat}

theorem partsSnoc (m : Move Fabric (Nat × Inputs)) :
    parts i (moves ++ [m]) = parts i moves ++ (part i m).toList := by
  cases held : part i m <;> simp [parts,held]

theorem partsRan (i : Nat) (ran : Ran (deployed d) moves f) :
    Ran (system (d.core i)) (parts i moves) (f.benches i) := by
  induction ran with
  | start start =>
    cases start
    exact Ran.start rfl
  | @move moves f op f' before step ih =>
    obtain ⟨_,free,_,after⟩ := step
    rw [partsSnoc]
    by_cases mine : op.1 = i
    · have one : part i ⟨f,op,f'⟩ = some ⟨f.benches i,op.2,f'.benches i⟩ := if_pos mine
      rw [one]
      subst mine
      exact Ran.move ih ⟨free,by simp [after]⟩
    · have none : part i ⟨f,op,f'⟩ = none := if_neg mine
      have same : f'.benches i = f.benches i := by
        rw [after]
        exact Function.update_of_ne (Ne.symm mine) _ _
      rw [none,same]
      simpa using ih

def speaks (s : Core) (round : BitVec 64) (runId : BitVec 32) (row : BitVec 8) : Prop :=
  s.protocol.state = .run ∧ s.protocol.txRoundId = round ∧ s.protocol.txRunId = runId ∧
    s.protocol.txRow = row

def spoke (own : List (Move Bench Inputs)) (round : BitVec 64) (runId : BitVec 32)
    (row : BitVec 8) : Prop :=
  ∃ m ∈ own, speaks m.after.core round runId row

/- The boundaries a core has entered bound the rounds it has spoken for, and it has spoken
for each with one run id and one row. -/
structure Voiced (p : Parameters) (epoch : Nat) (own : List (Move Bench Inputs)) (b : Bench) :
    Prop where
  behind : ∀ round runId row, spoke own round runId row → number epoch round ≤ entered p b
  current : ∀ round runId row, spoke own round runId row → b.core.protocol.state = .run →
    number epoch round = entered p b → speaks b.core round runId row
  once : ∀ round runId row runId' row', spoke own round runId row → spoke own round runId' row' →
    runId = runId' ∧ row = row'

theorem spokeSnoc {round : BitVec 64} {runId : BitVec 32} {row : BitVec 8} (m : Move Bench Inputs) :
    spoke (own ++ [m]) round runId row ↔
      spoke own round runId row ∨ speaks m.after.core round runId row := by
  simp [spoke,or_and_right,exists_or]

theorem speaksOnce {round : BitVec 64} {runId runId' : BitVec 32} {row row' : BitVec 8}
    (left : speaks s round runId row) (right : speaks s round runId' row') :
    runId = runId' ∧ row = row' :=
  ⟨left.2.2.1.symm.trans right.2.2.1,left.2.2.2.symm.trans right.2.2.2⟩

theorem spokenNumber {epoch : Nat} {round : BitVec 64} {runId : BitVec 32} {row : BitVec 8}
    (ran : Ran (system p) own b) (streamed : Streamed p epoch own b)
    (voice : speaks b.core round runId row) : number epoch round = entered p b := by
  have timed := ranTimed ran
  have running := voice.1
  have spoken := (ranPiped ran running).spoken
  have inside := streamed.inside running
  have live := (timed.live (Or.inr running)).2
  cases now : b.now with
  | none =>
    cases seen : b.core.timing.secondValid with
    | false => simp [(timed.dark seen).2.2.2] at running
    | true =>
      obtain ⟨t,some',_⟩ := timed.second seen
      cases now.symm.trans some'
  | some t =>
    have round' := live t now
    have last : b.core.lastEntered = BitVec.ofNat 64 (entered p b) := by
      cases pulse : b.core.timing.roundStartPulse with
      | false => simp [Core.lastEntered,pulse,round',enteredOff now pulse]
      | true =>
        have positive := (timed.pulsed pulse t now).2.2
        rw [enteredOn now pulse]
        simp only [Core.lastEntered,pulse,round',if_true]
        conv_lhs => rw [show p.roundAt t = p.roundAt t - 1 + 1 by omega,BitVec.ofNat_add]
        exact BitVec.add_sub_cancel _ _
    rw [← voice.2.1,spoken,last]
    exact numberOf inside

theorem voicedStep {epoch : Nat} (ran : Ran (system p) own b) (streamed : Streamed p epoch own b)
    (voiced : Voiced p epoch own b) (step : (system p).step b x b')
    (inside : p.roundAt x.instant / 2 ^ 64 = epoch) :
    Voiced p epoch (own ++ [⟨b,x,b'⟩]) b' := by
  have timed := ranTimed ran
  have grows := enteredGrows timed step
  have ran' := Ran.move ran step
  have streamed' := streamedStep ran streamed step inside
  have settled (round runId row) (voice : speaks b'.core round runId row) :=
    spokenNumber ran' streamed' voice
  -- An old voice for the round spoken for now means that no boundary came in between.
  have same (round runId row) (old : spoke own round runId row) (running : b'.core.protocol.state = .run)
      (level : number epoch round = entered p b') : speaks b'.core round runId row := by
    obtain ⟨t,now,entry,how⟩ := enteredRunning timed step running
    have below := voiced.behind round runId row old
    have after : b'.core.protocol = b.core.protocolNext p x := by rw [step.2]; rfl
    cases how with
    | listened quiet before next =>
      have level' : number epoch round = entered p b := by rw [level,entry,enteredOff now quiet]
      obtain ⟨_,voice⟩ := voiced.current round runId row old before level'
      refine ⟨running,?_⟩
      rw [after,next,arrivalKeeps]
      exact voice
    | installed pulse fires next =>
      obtain ⟨n,cross,_,place⟩ := @crossing p ⟨b,x,b'⟩ timed step pulse
      have before : entered p b = n - 1 := cross.before
      have positive := cross.positive
      have here := place t now
      omega
    | shifted pulse before undue passes next =>
      obtain ⟨n,cross,_,place⟩ := @crossing p ⟨b,x,b'⟩ timed step pulse
      have before : entered p b = n - 1 := cross.before
      have positive := cross.positive
      have here := place t now
      omega
  constructor
  case behind =>
    intro round runId row held
    rcases (spokeSnoc _).mp held with old | new
    · exact le_trans (voiced.behind round runId row old) grows
    · exact (settled round runId row new).le
  case current =>
    intro round runId row held running level
    rcases (spokeSnoc _).mp held with old | new
    · exact same round runId row old running level
    · exact new
  case once =>
    intro round runId row runId' row' left right
    rcases (spokeSnoc _).mp left with old | new <;> rcases (spokeSnoc _).mp right with old' | new'
    · exact voiced.once round runId row runId' row' old old'
    · exact speaksOnce (same round runId row old new'.1 (settled _ _ _ new')) new'
    · exact speaksOnce new (same round runId' row' old' new.1 (settled _ _ _ new))
    · exact speaksOnce new new'

theorem ranVoiced {epoch : Nat} (ran : Ran (system p) own b) (unwrapped : Unwrapped p epoch own) :
    Voiced p epoch own b := by
  induction ran with
  | start start =>
    cases start
    constructor <;> simp [spoke]
  | @move own s x s' before step ih =>
    have earlier : Unwrapped p epoch own := fun m member => unwrapped m (by simp [member])
    exact voicedStep before (ranStreamed before earlier) (ih earlier) step
      (unwrapped ⟨s,x,s'⟩ (by simp))

theorem speaksSpoke {round : BitVec 64} {runId : BitVec 32} {row : BitVec 8}
    (ran : Ran (system p) own b) (voice : speaks b.core round runId row) :
    spoke own round runId row := by
  cases ran with
  | start start =>
    cases start
    cases voice.1
  | @move own s x s' before step => exact ⟨⟨s,x,b⟩,by simp,voice⟩

structure Bounded (p : Parameters) (s : Core) : Prop where
  proposals : ∀ i, s.protocol.currentStageProposals.getLsbD i = true → i < p.nodeCount
  row : ∀ i, s.protocol.txRow.getLsbD i = true → i < p.nodeCount

theorem selfBounded (i : Nat) (held : p.selfBit.getLsbD i = true) : i < p.nodeCount := by
  rw [Parameters.selfBit,bitGet (selfSmall p),decide_eq_true_eq] at held
  exact held ▸ p.named

theorem arrivalBounded (bounded : Bounded p s) (i : Nat)
    (held : (s.arrival p x).currentStageProposals.getLsbD i = true) : i < p.nodeCount := by
  cases accepted : s.rxAccepted p x with
  | none =>
    simp only [Core.arrival,Core.packetArrival,accepted] at held
    exact bounded.proposals i held
  | some r =>
    have taken : s.rxAccept p r = true := (Option.filter_eq_some_iff.mp accepted).2
    obtain ⟨index,inside,_⟩ := rxIndex taken
    have narrow := p.narrow
    simp only [Core.arrival,Core.packetArrival,accepted,index,BitVec.getLsbD_or,
      bitGet (show r.nodeId.toNat < 8 by omega),Bool.or_eq_true,decide_eq_true_eq] at held
    rcases held with old | rfl
    · exact bounded.proposals i old
    · exact inside

theorem boundedStep (timed : Timed p b) (free : FaultFree p b.now x)
    (bounded : b.core.protocol.state = .run → Bounded p b.core)
    (running : (b.core.next p x).protocol.state = .run) : Bounded p (b.core.next p x) := by
  have next : (b.core.next p x).protocol = b.core.protocolNext p x := rfl
  cases through (tickOf timed free) running with
  | listened quiet before same =>
    constructor
    · intro i
      rw [next,same]
      exact arrivalBounded (bounded before) i
    · intro i
      rw [next,same,arrivalKeeps]
      exact (bounded before).row i
  | installed pulse fires same =>
    constructor <;>
    · intro i
      rw [next,same]
      exact selfBounded i
  | shifted pulse before undue passes same =>
    constructor
    · intro i
      rw [next,same,passedFacts.proposals]
      exact selfBounded i
    · intro i
      rw [next,same,passedFacts.row]
      exact (bounded before).proposals i

theorem ranBounded (ran : Ran (system p) own b) :
    b.core.protocol.state = .run → Bounded p b.core := by
  induction ran with
  | start start =>
    cases start
    exact nofun
  | move before step ih =>
    obtain ⟨free,rfl⟩ := step
    exact boundedStep (ranTimed before) free ih

/- Every row that is not the core's own comes from a frame of the row's node, sent in the
core's run for the round it entered last. -/
def Heard (p : Parameters) (sent : List RxRow) (s : Core) : Prop :=
  ∀ j, j ≠ p.nodeId → s.protocol.previousStageRows j ≠ 0 →
    ∃ r ∈ sent, r.nodeId.toNat = j ∧ r.runId = s.protocol.currentRunId ∧
      r.roundId = s.lastEntered ∧ r.row &&& p.memberMask = s.protocol.previousStageRows j

theorem heardMore {sent more : List RxRow} (heard : Heard p sent s) : Heard p (sent ++ more) s := by
  intro j other row
  obtain ⟨r,member,rest⟩ := heard j other row
  exact ⟨r,by simp [member],rest⟩

theorem heardStep {sent : List RxRow} (timed : Timed p b) (free : FaultFree p b.now x)
    (heard : b.core.protocol.state = .run → Heard p sent b.core)
    (given : ∀ r, x.rx = some r → r ∈ sent)
    (running : (b.core.next p x).protocol.state = .run) : Heard p sent (b.core.next p x) := by
  have next : (b.core.next p x).protocol = b.core.protocolNext p x := rfl
  obtain ⟨t,count⟩ := counted timed free running
  have last := count.last
  intro j other row
  cases through (tickOf timed free) running with
  | listened quiet before same =>
    have settled : b.core.lastEntered = b.core.timing.roundId := lastEnteredQuiet quiet
    rw [last,next,same,arrivalRunId]
    rw [next,same] at row
    cases accepted : b.core.rxAccepted p x with
    | none =>
      have rows : (b.core.arrival p x).previousStageRows = b.core.protocol.previousStageRows := by
        simp [Core.arrival,Core.packetArrival,accepted]
      rw [rows] at row ⊢
      rw [← settled]
      exact heard before j other row
    | some r =>
      have taken : b.core.rxAccept p r = true := (Option.filter_eq_some_iff.mp accepted).2
      have from' : x.rx = some r := (Option.filter_eq_some_iff.mp accepted).1
      obtain ⟨index,_⟩ := rxIndex taken
      have rows : (b.core.arrival p x).previousStageRows =
          Function.update b.core.protocol.previousStageRows r.nodeId.toNat
            (r.row &&& p.memberMask) := by
        simp [Core.arrival,Core.packetArrival,accepted,index]
      rw [rows] at row ⊢
      by_cases sender : j = r.nodeId.toNat
      · subst sender
        simp only [Core.rxAccept,Bool.and_eq_true,decide_eq_true_eq] at taken
        exact ⟨r,given r from',rfl,taken.1.2,taken.2,by simp⟩
      · rw [Function.update_of_ne sender] at row ⊢
        rw [← settled]
        exact heard before j other row
  | installed pulse fires same =>
    rw [next,same] at row
    exact absurd rfl row
  | shifted pulse before undue passes same =>
    rw [next,same,passedFacts.rows,Function.update_of_ne other] at row
    exact absurd rfl row

structure Carried (d : Deployment) (moves : List (Move Fabric (Nat × Inputs))) (f : Fabric) : Prop where
  spoken : ∀ r ∈ f.sent, ∃ j, r.nodeId = BitVec.ofNat 8 j ∧ j < d.nodeCount ∧
    spoke (parts j moves) r.roundId r.runId r.row
  heard : ∀ i, (f.benches i).core.protocol.state = .run →
    Heard (d.core i) f.sent (f.benches i).core

theorem spokeMore {round : BitVec 64} {runId : BitVec 32} {row : BitVec 8}
    {more : List (Move Fabric (Nat × Inputs))} (voice : spoke (parts i moves) round runId row) :
    spoke (parts i (moves ++ more)) round runId row := by
  obtain ⟨m,member,rest⟩ := voice
  exact ⟨m,by simp [parts,List.filterMap_append] at member ⊢; exact Or.inl member,rest⟩

theorem carriedStep (ran : Ran (deployed d) moves f) (carried : Carried d moves f) {op : Nat × Inputs}
    (step : (deployed d).step f op f') : Carried d (moves ++ [⟨f,op,f'⟩]) f' := by
  obtain ⟨named,free,given,after⟩ := step
  have own := partsRan op.1 ran
  constructor
  · intro r member
    rw [after,List.mem_append] at member
    rcases member with old | new
    · obtain ⟨j,sender,lt,voice⟩ := carried.spoken r old
      exact ⟨j,sender,lt,spokeMore voice⟩
    · simp only [emitted] at new
      split at new
      · rename_i pulse
        rw [List.mem_singleton] at new
        simp only [Core.oTxStartPulse,Core.protocolActive,Bool.and_eq_true,decide_eq_true_eq] at pulse
        rw [new]
        exact ⟨op.1,rfl,named,spokeMore (speaksSpoke own ⟨pulse.2,rfl,rfl,rfl⟩)⟩
      · cases new
  · intro i running
    rw [after] at running ⊢
    by_cases mine : i = op.1
    · subst mine
      simp only [Function.update_self] at running ⊢
      exact heardMore (heardStep (ranTimed own) free (carried.heard op.1) given running)
    · simp only [Function.update_of_ne mine] at running ⊢
      exact heardMore (carried.heard i running)

theorem ranCarried (ran : Ran (deployed d) moves f) : Carried d moves f := by
  induction ran with
  | start start =>
    cases start
    exact ⟨by simp,fun i running => by cases running⟩
  | move before step ih => exact carriedStep before ih step

theorem memParts {m : Move Bench Inputs} (member : m ∈ parts i moves) :
    ∃ pre whole post, moves = pre ++ whole :: post ∧ part i whole = some m := by
  obtain ⟨whole,inside,held⟩ := List.mem_filterMap.mp member
  obtain ⟨pre,post,split⟩ := List.append_of_mem inside
  exact ⟨pre,whole,post,split,held⟩

structure Backing (d : Deployment) (mask : BitVec 8) (moves : List (Move Fabric (Nat × Inputs)))
    (round : BitVec 64) (runId : BitVec 32) (set : BitVec 8) (members : Finset Nat) : Prop where
  inside : members ⊆ Finset.range d.nodeCount
  quorum : d.nodeCount / 2 + 1 ≤ members.card
  spoken : ∀ j ∈ members, ∃ row, spoke (parts j moves) round runId row ∧ row &&& mask = set

theorem partStep {whole : Move Fabric (Nat × Inputs)} {m : Move Bench Inputs}
    (step : (deployed d).step whole.before whole.op whole.after) (held : part i whole = some m) :
    i < d.nodeCount ∧ m.before = whole.before.benches i ∧
      (system (d.core i)).step m.before m.op m.after := by
  simp only [part] at held
  split at held
  · rename_i mine
    cases Option.some.inj held
    obtain ⟨named,free,_,after⟩ := step
    subst mine
    exact ⟨named,rfl,free,by simp [after]⟩
  · cases held

theorem commitBacked {m : Move Bench Inputs} {r : BitVec 64} (ran : Ran (deployed d) moves f)
    (member : m ∈ parts i moves) (held : committed m = some r) :
    ∃ members, Backing d (d.core i).memberMask moves (r + 1) m.after.core.protocol.currentRunId
      m.after.core.protocol.commitSet members := by
  obtain ⟨pre,whole,post,rfl,same⟩ := memParts member
  obtain ⟨before,step,_⟩ := Runs.ranAt ran
  obtain ⟨named,origin,free,after⟩ := partStep step same
  have own := partsRan i before
  have carried := ranCarried before
  rw [← origin] at own
  obtain ⟨valid,emits⟩ := (committedIs m r).mp held
  rw [after] at valid emits
  have how := committing (ranTimed own) free valid
  obtain ⟨ready,round,set,_,runId⟩ := committingFacts how
  have piped := ranPiped own how.running
  have bounded := ranBounded own how.running
  have heard : Heard (d.core i) whole.before.sent m.before.core := by
    rw [origin]
    exact carried.heard i (by rw [← origin]; exact how.running)
  have entering : m.before.core.lastEntered = r + 1 := by
    rw [← piped.previous ready,← round]
    exact congrArg (· + 1) emits
  obtain ⟨_,agreed⟩ := commitsAgreed how.commits
  obtain ⟨_,local'⟩ := localRowOwn agreed.nonempty
  have set' : m.after.core.protocol.commitSet = m.before.core.protocol.evalLocalRow (d.core i) := by
    rw [after]
    exact set
  have runId' : m.after.core.protocol.currentRunId = m.before.core.protocol.currentRunId := by
    rw [after]
    exact runId
  refine ⟨m.before.core.protocol.witnesses (d.core i),?_,?_,?_⟩
  · intro k witness
    have inside := (Finset.mem_filter.mp witness).1
    rwa [d.counted] at inside
  · have quorum := agreed.quorum
    rwa [Parameters.quorum,d.counted] at quorum
  · intro k witness
    simp only [Protocol.witnesses,Finset.mem_filter,Finset.mem_range,Protocol.witness,
      Bool.and_eq_true,decide_eq_true_eq] at witness
    obtain ⟨inside,_,row⟩ := witness
    rw [set',runId',← row]
    by_cases self : k = (d.core i).nodeId
    · have same : (d.core i).nodeId = i := d.identified i named
      have voice := speaksSpoke own ⟨how.running,piped.spoken,piped.own,rfl⟩
      rw [entering] at voice
      refine ⟨m.before.core.protocol.txRow,?_,?_⟩
      · rw [self,same]
        exact spokeMore voice
      · rw [self,piped.filed ready]
        exact maskedSame bounded.row
    · have nonempty : m.before.core.protocol.previousStageRows k ≠ 0 := by
        rw [row]
        exact agreed.nonempty
      obtain ⟨frame,member,sender,run,place,masked⟩ := heard k self nonempty
      obtain ⟨j,named',lt,voice⟩ := carried.spoken frame member
      have narrow := (d.core i).narrow
      have size := d.counted i
      have same : j = k := by
        rw [← sender,named',BitVec.toNat_ofNat]
        omega
      rw [same,run,place,entering] at voice
      exact ⟨_,spokeMore voice,masked⟩

theorem coresAgree (d : Deployment) {moves : List (Move Fabric (Nat × Inputs))} {f : Fabric}
    (ran : Ran (deployed d) moves f)
    (unwrapped : ∀ i, ∃ epoch, Unwrapped (d.core i) epoch (parts i moves)) :
    ∀ i j m m' r, m ∈ parts i moves → m' ∈ parts j moves →
      committed m = some r → committed m' = some r →
        m.after.core.protocol.commitSet = m'.after.core.protocol.commitSet ∧
          m.after.core.protocol.currentRunId = m'.after.core.protocol.currentRunId := by
  intro i j m m' r member member' held held'
  obtain ⟨left,backed⟩ := commitBacked ran member held
  obtain ⟨right,backed'⟩ := commitBacked ran member' held'
  obtain ⟨k,inLeft,inRight⟩ := quorumsMeet (by omega) backed.inside backed'.inside backed.quorum
    backed'.quorum
  obtain ⟨row,voice,set⟩ := backed.spoken k inLeft
  obtain ⟨row',voice',set'⟩ := backed'.spoken k inRight
  obtain ⟨epoch,straight⟩ := unwrapped k
  obtain ⟨run,same⟩ := (ranVoiced (partsRan k ran) straight).once _ _ _ _ _ voice voice'
  have mask : (d.core i).memberMask = (d.core j).memberMask := by
    simp only [Parameters.memberMask,d.counted]
  refine ⟨?_,run⟩
  rw [← set,← set',same,mask]

instance (s : Option RxRow) (sent : List RxRow) : Decidable (∀ r, s = some r → r ∈ sent) :=
  match s with
  | none => isTrue (by simp)
  | some r => decidable_of_iff (r ∈ sent) (by simp)

def fabricCycle (d : Deployment) (f : Fabric) (op : Nat × Inputs) : Except Unit Fabric :=
  if op.1 < d.nodeCount ∧ FaultFree (d.core op.1) (f.benches op.1).now op.2 ∧
      (∀ r, op.2.rx = some r → r ∈ f.sent) then
    .ok
      ⟨Function.update f.benches op.1
          ⟨(f.benches op.1).core.next (d.core op.1) op.2,some op.2.instant⟩,
        f.sent ++ emitted op.1 (f.benches op.1).core⟩
  else .error ()

theorem fabricCycleStep {op : Nat × Inputs} (done : fabricCycle d f op = .ok f') :
    (deployed d).step f op f' := by
  simp only [fabricCycle] at done
  split at done
  · rename_i legal
    cases done
    exact ⟨legal.1,legal.2.1,legal.2.2,rfl⟩
  · cases done

def idleAt (t : Nat) : Inputs :=
  {ptpTodSec := BitVec.ofNat 48 (t / nsPerSecond), ptpTodNs := BitVec.ofNat 32 (t % nsPerSecond)}

def parked (p : Parameters) (s : Core) (t : Nat) : Core :=
  { csr := {s.csr with wrAck := false}
    timing := s.timingDown p (idleAt t)
    windows := {}
    protocol :=
      { s.protocol with
        state := .idle
        currentStageValid := false
        previousStageValid := false
        txRow := 0
        commitValid := false } }

structure Off (s : Core) : Prop where
  disabled : s.csr.controlEnable = false
  quiet : s.timing.roundStartPulse = false
  silent : s.oTxStartPulse = false

instance (s : Core) : Decidable (Off s) :=
  decidable_of_iff (s.csr.controlEnable = false ∧ s.timing.roundStartPulse = false ∧
    s.oTxStartPulse = false) ⟨fun h => ⟨h.1,h.2.1,h.2.2⟩,fun h => ⟨h.1,h.2,h.3⟩⟩

theorem idleInstant (t : Nat) (small : t / nsPerSecond < 2 ^ 48) : (idleAt t).instant = t := by
  simp only [idleAt,Inputs.instant,BitVec.toNat_ofNat,nsPerSecond] at *
  omega

theorem offParks (off : Off s) (t : Nat) : s.next p (idleAt t) = parked p s t := by
  have running : s.timingRunning (idleAt t) = false := by simp [Core.timingRunning,off.disabled]
  have write : s.regWrite p (idleAt t) = none := by
    simp only [Core.regWrite,idleAt]
    split <;> rfl
  have fault : s.timeFault (idleAt t) = false := by simp [Core.timeFault,running]
  have alive : (idleAt t).rst = false := rfl
  have reboot : s.controlRebootPulse p (idleAt t) = false := by
    simp [Core.controlRebootPulse,Core.controlWrite,write]
  have stop : s.protocolStop p (idleAt t) = true := by simp [Core.protocolStop,off.disabled]
  have lost : s.timingLost (idleAt t) = false := by simp only [Core.timingLost,fault]; rfl
  have deaf : s.rxAccepted p (idleAt t) = none := rfl
  have csr : s.csrNext p (idleAt t) = {s.csr with wrAck := false} := by
    simp only [Core.csrNext,alive,write,Core.protocolActivateConsumed,off.quiet]
    simp
  have timing : s.timingNext p (idleAt t) = s.timingDown p (idleAt t) := by
    simp [Core.timingNext,alive,running]
  have windows : s.windowsNext p (idleAt t) = {} := by simp [Core.windowsNext,running]
  have protocol : s.protocolNext p (idleAt t) = (parked p s t).protocol := by
    simp [Core.protocolNext,Core.packetArrival,deaf,Core.roundBoundary,off.quiet,Core.haltOnTiming,
      lost,Core.stop,stop,Core.reboot,reboot,Core.reset,alive,parked]
  simp only [Core.next,csr,timing,windows,protocol]
  rfl

theorem parkedOff (off : Off s) (t : Nat) : Off (parked p s t) :=
  ⟨off.disabled,rfl,rfl⟩

theorem offFault (off : Off s) (t : Nat) : s.timeFault (idleAt t) = false := by
  simp [Core.timeFault,Core.timingRunning,off.disabled]

theorem parkedAgain (off : Off s) (t t' : Nat) : parked p (parked p s t) t' = parked p s t' := by
  have before := offFault off t'
  have after := offFault (@parkedOff p s off t) t'
  simp only [parked,Core.timingDown,Core.timingLatch] at after ⊢
  rw [before,after]

theorem idleStep (named : i < d.nodeCount) {t t' : Nat} (off : Off (f.benches i).core)
    (now : (f.benches i).now = some t) (later : t ≤ t' ∧ t' < t + (d.core i).roundLengthNs)
    (small : t' / nsPerSecond < 2 ^ 48) :
    (deployed d).step f (i,idleAt t')
      ⟨Function.update f.benches i ⟨parked (d.core i) (f.benches i).core t',some t'⟩,f.sent⟩ := by
  have instant := idleInstant t' small
  refine ⟨named,⟨rfl,rfl,?_,?_⟩,nofun,?_⟩
  · simp only [idleAt,BitVec.toNat_ofNat,nsPerSecond]
    omega
  · intro t'' now'
    cases now.symm.trans now'
    rwa [instant]
  · simp only [offParks off,instant,emitted,off.silent]
    simp

-- A disabled core sits through any number of cycles, and with them of rounds.
theorem idles (ran : Ran (deployed d) moves f) (named : i < d.nodeCount) {t : Nat}
    (off : Off (f.benches i).core) (now : (f.benches i).now = some t)
    (long : 2000 < (d.core i).roundLengthNs) (n : Nat)
    (small : (t + 2000 * (n + 1)) / nsPerSecond < 2 ^ 48) :
    ∃ more, Ran (deployed d) (moves ++ more)
      ⟨Function.update f.benches i
        ⟨parked (d.core i) (f.benches i).core (t + 2000 * (n + 1)),some (t + 2000 * (n + 1))⟩,
        f.sent⟩ := by
  induction n with
  | zero => exact ⟨_,Ran.move ran (idleStep named off now (by omega) small)⟩
  | succ n ih =>
    have order : (t + 2000 * (n + 1)) / nsPerSecond ≤ (t + 2000 * (n + 1 + 1)) / nsPerSecond :=
      Nat.div_le_div_right (by omega)
    obtain ⟨more,before⟩ := ih (lt_of_le_of_lt order small)
    have off' : Off (parked (d.core i) (f.benches i).core (t + 2000 * (n + 1))) := parkedOff off _
    have step := @idleStep d
      ⟨Function.update f.benches i
        ⟨parked (d.core i) (f.benches i).core (t + 2000 * (n + 1)),some (t + 2000 * (n + 1))⟩,f.sent⟩
      i named (t + 2000 * (n + 1)) (t + 2000 * (n + 1 + 1)) (by simpa using off') (by simp)
      (by omega) small
    have whole := Ran.move before step
    simp only [Function.update_self,Function.update_idem,parkedAgain off] at whole
    rw [List.append_assoc] at whole
    exact ⟨_,whole⟩

def pairCore (i : Nat) : Parameters :=
  { nodeCount := 2, nodeId := i % 2, txSubslotNs := 1000, divides := alone.divides, fits := by decide,
    admits := by decide, named := Nat.mod_lt _ (by decide), narrow := twoNarrow }

def pair : Deployment :=
  ⟨2,pairCore,fun _ => rfl,fun _ lt => Nat.mod_eq_of_lt lt⟩

def pairAt (t : Nat) (regWr : Option RegWrite) (rx : Option RxRow) : Inputs :=
  {idleAt t with regWr := regWr, rx := rx}

def pairHears (runId : BitVec 32) (j : Nat) : Nat → Option RxRow
  | 11 => some ⟨BitVec.ofNat 8 j,1#8 <<< j,runId,2⟩
  | 15 => some ⟨BitVec.ofNat 8 j,3,runId,3⟩
  | _ => none

/- Both cores from `start` on, a cycle every 1000 ns: configured and enabled for `runId`,
they commit round 2 and are then disabled. -/
def pairSession (start : Nat) (runId : BitVec 32) : List (Nat × Inputs) :=
  [some ⟨0x003100,runId⟩,none,some ⟨0x003104,3⟩,none,some ⟨0x00300C,3⟩].flatMap
      (fun regWr => [(1,pairAt start regWr none),(0,pairAt start regWr none)]) ++
    (List.range 21).flatMap (fun k =>
      let regWr := if k = 18 then some ⟨0x00300C,0⟩ else none
      [(1,pairAt (start + 1000 * k) regWr (pairHears runId 0 k)),
        (0,pairAt (start + 1000 * k) regWr (pairHears runId 1 k))])

def pairRecord (ops : List (Nat × Inputs)) (f : Fabric) :
    Except Unit (List (Move Fabric (Nat × Inputs)) × Fabric) :=
  Runs.record (fabricCycle pair) ops f

def pairPowerUp : Fabric := ⟨fun i => ⟨powerUp (pairCore i),none⟩,[]⟩

def wrapped : Nat := 73786976294838206464000

def parkPair (f : Fabric) : Fabric :=
  ⟨Function.update
      (Function.update f.benches 0 ⟨parked (pairCore 0) (f.benches 0).core wrapped,some wrapped⟩) 1
      ⟨parked (pairCore 1) (f.benches 1).core wrapped,some wrapped⟩,f.sent⟩

theorem pairRan {ops : List (Nat × Inputs)} {more : List (Move Fabric (Nat × Inputs))}
    (before : Ran (deployed pair) moves f) (done : pairRecord ops f = .ok (more,f')) :
    Ran (deployed pair) (moves ++ more) f' :=
  Runs.recordRan (fun _ _ _ _ took => fabricCycleStep took) before done

def commitsIn (own : List (Move Bench Inputs)) (r : BitVec 64) (runId : BitVec 32) : Bool :=
  own.any (fun m => committed m = some r && m.after.core.protocol.currentRunId = runId)

theorem commitsInIs {r : BitVec 64} {runId : BitVec 32} (held : commitsIn own r runId = true) :
    ∃ m ∈ own, committed m = some r ∧ m.after.core.protocol.currentRunId = runId := by
  simpa [commitsIn] using held

theorem coresAgreeOnce : ∃ moves f m m', pairRecord (pairSession 0 1) pairPowerUp = .ok (moves,f) ∧
    m ∈ parts 0 moves ∧ m' ∈ parts 1 moves ∧ committed m = some 2 ∧ committed m' = some 2 ∧
      m.after.core.protocol.commitSet = m'.after.core.protocol.commitSet := by
  have value : (pairRecord (pairSession 0 1) pairPowerUp).toOption.map (fun result =>
      commitsIn (parts 0 result.1) 2 1 && commitsIn (parts 1 result.1) 2 1 &&
        result.1.all (fun m => m.op.2.instant ≤ 20000)) = some true := by
    decide +kernel
  obtain ⟨⟨moves,f⟩,done,found⟩ := Runs.okFound value
  simp only [Bool.and_eq_true,List.all_eq_true,decide_eq_true_eq] at found
  obtain ⟨⟨left,right⟩,early⟩ := found
  obtain ⟨m,member,held,_⟩ := commitsInIs left
  obtain ⟨m',member',held',_⟩ := commitsInIs right
  have ran := pairRan (Ran.start rfl) done
  have unwrapped : ∀ i, ∃ epoch, Unwrapped (pair.core i) epoch (parts i ([] ++ moves)) := by
    intro i
    refine ⟨0,?_⟩
    intro x inside
    obtain ⟨whole,old,same⟩ := List.mem_filterMap.mp inside
    have bound := early whole old
    simp only [part] at same
    split at same
    case isTrue =>
      cases Option.some.inj same
      exact Nat.div_eq_of_lt (lt_of_le_of_lt (Nat.div_le_self _ _) (lt_of_le_of_lt bound (by decide)))
    case isFalse => cases same
  exact ⟨moves,f,m,m',done,member,member',held,held',
    (coresAgree pair ran unwrapped 0 1 m m' 2 member member' held held').1⟩

/- Run 1 commits round 2 at time 0; after 2^64 rounds of rest the same two cores commit
round 2 again, in run 2. -/
theorem coresDisagreeAfterWrap : ∃ moves f m m', Ran (deployed pair) moves f ∧
    m ∈ parts 0 moves ∧ m' ∈ parts 1 moves ∧ committed m = some 2 ∧ committed m' = some 2 ∧
      m.after.core.protocol.currentRunId ≠ m'.after.core.protocol.currentRunId := by
  have value : (pairRecord (pairSession 0 1) pairPowerUp).toOption.map (fun first =>
      commitsIn (parts 0 first.1) 2 1 && decide (Off (first.2.benches 0).core) &&
        decide (Off (first.2.benches 1).core) && decide ((first.2.benches 0).now = some 20000) &&
        decide ((first.2.benches 1).now = some 20000) &&
        ((pairRecord (pairSession wrapped 2) (parkPair first.2)).toOption.map (fun second =>
          commitsIn (parts 1 second.1) 2 2) = some true)) = some true := by
    decide +kernel
  obtain ⟨⟨moves,f⟩,done,found⟩ := Runs.okFound value
  simp only [Bool.and_eq_true,decide_eq_true_eq] at found
  obtain ⟨⟨⟨⟨⟨left,off⟩,off'⟩,now⟩,now'⟩,again⟩ := found
  obtain ⟨⟨later,f'⟩,resumed,again⟩ := Runs.okFound again
  obtain ⟨m,member,held,run⟩ := commitsInIs left
  obtain ⟨m',member',held',run'⟩ := commitsInIs again
  have ran := pairRan (Ran.start rfl) done
  have span : 20000 + 2000 * (36893488147419103221 + 1) = wrapped := by decide
  have small : wrapped / nsPerSecond < 2 ^ 48 := by decide
  obtain ⟨rest,idle⟩ := @idles pair f _ 0 ran (by decide) 20000 off now (by decide)
    36893488147419103221 (by rw [span]; exact small)
  rw [span] at idle
  obtain ⟨rest',idle'⟩ := @idles pair _ _ 1 idle (by decide) 20000
    (by simpa [Function.update_of_ne] using off') (by simpa [Function.update_of_ne] using now')
    (by decide) 36893488147419103221 (by rw [span]; exact small)
  rw [span] at idle'
  have parks : Ran (deployed pair) ([] ++ moves ++ rest ++ rest') (parkPair f) := by
    simpa [parkPair,Function.update_of_ne,pair] using idle'
  refine ⟨_,f',m,m',pairRan parks resumed,?_,?_,held,held',?_⟩
  · simp only [parts,List.filterMap_append,List.mem_append] at member ⊢
    exact Or.inl (Or.inl (Or.inl (Or.inr member)))
  · simp only [parts,List.filterMap_append,List.mem_append] at member' ⊢
    exact Or.inr member'
  · rw [run,run']
    decide

end Syncons.ConsensusCore
