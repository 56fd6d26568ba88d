import Syncons.CommitStream
import Syncons.BoundaryEvaluation

/-! The accept verdict against the recorded evidence. The row a core advertises for a
round names itself and the senders it accepted inside the round; a frame it accepts on
the very cycle of the boundary into the round is dropped by the shift. -/
namespace Syncons.ConsensusCore
open Runs (System Move Ran)

def accepted (p : Parameters) (m : Move Bench Inputs) : Option RxRow := m.before.core.rxAccepted p m.op

def withinRound (m : Move Bench Inputs) : Prop :=
  onBoundary m = false ∧ m.after.core.protocol.state = .run

/- A round in which the core runs from boundary to boundary: the boundary into it, the
cycles inside, and the boundary out of it, which advertises the row of the round. -/
structure RoundWindow (p : Parameters) (entry : Move Bench Inputs) (inner : List (Move Bench Inputs))
    (exit : Move Bench Inputs) : Prop where
  enters : onBoundary entry = true
  engages : entry.after.core.protocol.state = .run
  within : ∀ m ∈ inner, withinRound m
  leaves : onBoundary exit = true
  advertises : carriesOn p exit

-- Exactly the own id and the senders of the frames of round `r` accepted in these cycles.
def namesAccepted (p : Parameters) (r : BitVec 64) (cycles : List (Move Bench Inputs))
    (row : BitVec 8) : Prop :=
  ∀ i, row.getLsbD i = true ↔ i = p.nodeId ∨
    ∃ m ∈ cycles, ∃ f, accepted p m = some f ∧ f.roundId = r ∧ f.nodeId.toNat = i

variable {p : Parameters} {b b' : Bench} {s : Core} {x : Inputs}
  {entry exit m : Move Bench Inputs} {pre inner post : List (Move Bench Inputs)}

theorem acceptedFacts {f : RxRow} (held : accepted p m = some f) :
    f.roundId = m.before.core.timing.roundId ∧ f.nodeId.toNat ≠ p.nodeId ∧
      f.nodeId.toNat < 8 ∧ (f.nodeId.extractLsb' 0 3).toNat = f.nodeId.toNat := by
  have taken : m.before.core.rxAccept p f = true := (Option.filter_eq_some_iff.mp held).2
  obtain ⟨index,inside,other⟩ := rxIndex taken
  simp only [Core.rxAccept,Bool.and_eq_true,decide_eq_true_eq] at taken
  exact ⟨taken.2,other,lt_of_lt_of_le inside p.narrow,index⟩

theorem arrivalProposals (i : Nat) :
    (m.before.core.arrival p m.op).currentStageProposals.getLsbD i = true ↔
      m.before.core.protocol.currentStageProposals.getLsbD i = true ∨
        ∃ f, accepted p m = some f ∧ f.nodeId.toNat = i := by
  cases held : accepted p m with
  | none =>
    have none : m.before.core.rxAccepted p m.op = none := held
    simp [Core.arrival,Core.packetArrival,none]
  | some f =>
    obtain ⟨_,_,small,index⟩ := acceptedFacts held
    have some' : m.before.core.rxAccepted p m.op = some f := held
    simp only [Core.arrival,Core.packetArrival,some',index,BitVec.getLsbD_or,bitGet small,
      Bool.or_eq_true,decide_eq_true_eq,Option.some.injEq,exists_eq_left']
    exact or_congr_right eq_comm

theorem freshProposals (timed : Timed p m.before) (step : (system p).step m.before m.op m.after)
    (pulse : onBoundary m = true) (running : m.after.core.protocol.state = .run) :
    m.after.core.protocol.currentStageProposals = p.selfBit := by
  obtain ⟨free,after⟩ := step
  rw [after] at running ⊢
  show (m.before.core.protocolNext p m.op).currentStageProposals = _
  cases through (tickOf timed free) running with
  | listened quiet before next => exact Bool.noConfusion (quiet.symm.trans pulse)
  | installed pulse fires next =>
    rw [next]
    rfl
  | shifted pulse before undue passes next => rw [next,passedFacts.proposals]

theorem gathered (ran : Ran (system p) (pre ++ entry :: inner) b) (pulse : onBoundary entry = true)
    (running : entry.after.core.protocol.state = .run) (within : ∀ m ∈ inner, withinRound m) :
    b.core.protocol.state = .run ∧ b.core.lastEntered = entry.before.core.timing.roundId ∧
      namesAccepted p entry.before.core.timing.roundId inner
        b.core.protocol.currentStageProposals := by
  induction inner using List.reverseRecOn generalizing b with
  | nil =>
    obtain ⟨before,step,same⟩ := Runs.ranSnoc ran
    have timed := ranTimed before
    have fresh := freshProposals timed step pulse running
    rw [← same]
    refine ⟨running,?_,?_⟩
    · obtain ⟨free,after⟩ := step
      rw [after] at running ⊢
      obtain ⟨t,count⟩ := counted timed free running
      exact count.last
    · intro i
      rw [fresh,Parameters.selfBit,bitGet (selfSmall p)]
      simp
  | append_singleton inner last ih =>
    rw [← List.cons_append,← List.append_assoc] at ran
    obtain ⟨before,step,same⟩ := Runs.ranSnoc ran
    obtain ⟨_,round,names⟩ := ih before (fun m member => within m (by simp [member]))
    obtain ⟨quiet,goes⟩ := within last (by simp)
    have timed := ranTimed before
    have settled : last.before.core.lastEntered = last.before.core.timing.roundId := by
      have quiet : last.before.core.timing.roundStartPulse = false := quiet
      simp [Core.lastEntered,quiet]
    obtain ⟨free,after⟩ := step
    rw [← same]
    refine ⟨goes,?_,?_⟩
    · rw [after] at goes ⊢
      obtain ⟨t,count⟩ := counted timed free goes
      rw [← round,settled]
      exact count.last
    · intro i
      have kept : last.after.core.protocol.currentStageProposals =
          (last.before.core.arrival p last.op).currentStageProposals := by
        rw [after] at goes ⊢
        show (last.before.core.protocolNext p last.op).currentStageProposals = _
        cases through (tickOf timed free) goes with
        | listened _ running next => rw [next]
        | installed pulse fires next => exact Bool.noConfusion (quiet.symm.trans pulse)
        | shifted pulse before undue passes next => exact Bool.noConfusion (quiet.symm.trans pulse)
      rw [kept,arrivalProposals,names i]
      constructor
      · rintro ((own | ⟨m,member,f,held,at_,sender⟩) | ⟨f,held,sender⟩)
        · exact Or.inl own
        · exact Or.inr ⟨m,by simp [member],f,held,at_,sender⟩
        · refine Or.inr ⟨last,by simp,f,held,?_,sender⟩
          rw [(acceptedFacts held).1,← settled,round]
      · rintro (own | ⟨m,member,f,held,at_,sender⟩)
        · exact Or.inl (Or.inl own)
        · rcases List.mem_append.mp member with old | new
          · exact Or.inl (Or.inr ⟨m,old,f,held,at_,sender⟩)
          · rw [List.mem_singleton] at new
            subst new
            exact Or.inr ⟨f,held,sender⟩

theorem advertised (ran : Ran (system p) (pre ++ entry :: inner ++ [exit]) b)
    (window : RoundWindow p entry inner exit) :
    namesAccepted p entry.before.core.timing.roundId inner exit.after.core.protocol.txRow ∧
      exit.after.core.protocol.previousStageRoundId = entry.before.core.timing.roundId := by
  obtain ⟨before,step,_⟩ := Runs.ranSnoc ran
  obtain ⟨running,round,names⟩ := gathered before window.enters window.engages window.within
  obtain ⟨goes,anew⟩ := window.advertises
  have pulse := window.leaves
  have piped := ranPiped before running
  obtain ⟨free,after⟩ := step
  simp only [after] at goes ⊢
  cases through (tickOf (ranTimed before) free) goes with
  | listened quiet _ next => exact Bool.noConfusion (quiet.symm.trans pulse)
  | installed _ fires next =>
    have fresh : installs p exit = true := by
      simp only [installs,pulse,fires,after,goes]
      rfl
    exact Bool.noConfusion (anew.symm.trans fresh)
  | shifted _ _ undue passes next =>
    show namesAccepted p _ inner (exit.before.core.protocolNext p exit.op).txRow ∧
      (exit.before.core.protocolNext p exit.op).previousStageRoundId = _
    rw [next,passedFacts.row,passedFacts.previous,piped.current]
    exact ⟨names,round⟩

theorem heldRow {later : List (Move Bench Inputs)}
    (ran : Ran (system p) (pre ++ exit :: later) b) (within : ∀ m ∈ later, withinRound m) :
    b.core.protocol.txRow = exit.after.core.protocol.txRow ∧
      b.core.protocol.previousStageRoundId = exit.after.core.protocol.previousStageRoundId := by
  induction later using List.reverseRecOn generalizing b with
  | nil =>
    obtain ⟨_,_,same⟩ := Runs.ranSnoc ran
    rw [← same]
    exact ⟨rfl,rfl⟩
  | append_singleton later last ih =>
    rw [← List.cons_append,← List.append_assoc] at ran
    obtain ⟨before,step,same⟩ := Runs.ranSnoc ran
    obtain ⟨row,round⟩ := ih before (fun m member => within m (by simp [member]))
    obtain ⟨quiet,goes⟩ := within last (by simp)
    obtain ⟨free,after⟩ := step
    rw [← same,← row,← round]
    rw [after] at goes ⊢
    show (last.before.core.protocolNext p last.op).txRow = _ ∧
      (last.before.core.protocolNext p last.op).previousStageRoundId = _
    cases through (tickOf (ranTimed before) free) goes with
    | listened _ running next =>
      rw [next,arrivalKeeps]
      exact ⟨rfl,rfl⟩
    | installed pulse fires next => exact Bool.noConfusion (quiet.symm.trans pulse)
    | shifted pulse before undue passes next => exact Bool.noConfusion (quiet.symm.trans pulse)

theorem committedRow {r : BitVec 64} (ran : Ran (system p) (pre ++ [m]) b)
    (held : committed m = some r) :
    m.after.core.protocol.commitSet = m.before.core.protocol.txRow ∧
      m.before.core.protocol.previousStageRoundId = r := by
  obtain ⟨before,step,_⟩ := Runs.ranSnoc ran
  obtain ⟨free,after⟩ := step
  obtain ⟨valid,round⟩ := (committedIs m r).mp held
  rw [after] at valid round ⊢
  have how := committing (ranTimed before) free valid
  obtain ⟨ready,emitted,set,_⟩ := committingFacts how
  have filed := (ranPiped before how.running).filed ready
  have commits := how.commits
  have sound : m.before.core.protocol.currentSoundSet.getLsbD p.nodeId = true := by
    by_contra without
    rw [Bool.not_eq_true] at without
    simp [Protocol.evalCommits,Protocol.evalHaltReason,Protocol.evalAgreedRowValid,
      Protocol.evalLocalRow,without] at commits
  refine ⟨?_,emitted.symm.trans round⟩
  rw [← filed]
  exact set.trans (by simp [Protocol.evalLocalRow,sound])

/- Exact evidence of one round: the row advertised for it, and every commit set for it, name
the accepted frames of the round exactly, the cycle of its boundary included. -/
def evidenceExact (p : Parameters) (entry : Move Bench Inputs) (inner : List (Move Bench Inputs))
    (exit : Move Bench Inputs) (post : List (Move Bench Inputs)) : Prop :=
  namesAccepted p entry.before.core.timing.roundId (entry :: inner) exit.after.core.protocol.txRow ∧
  ∀ later c rest, post = later ++ c :: rest → (∀ m ∈ later, withinRound m) →
    ∀ r, committed c = some r → r = entry.before.core.timing.roundId ∧
      namesAccepted p r (entry :: inner) c.after.core.protocol.commitSet

theorem insideRound (ran : Ran (system p) (pre ++ entry :: inner) b) (pulse : onBoundary entry = true)
    (running : entry.after.core.protocol.state = .run) (within : ∀ m ∈ inner, withinRound m)
    (member : m ∈ inner) : m.before.core.timing.roundId = entry.before.core.timing.roundId := by
  obtain ⟨early,late,rfl⟩ := List.append_of_mem member
  rw [← List.cons_append,← List.append_assoc] at ran
  have before := (Runs.ranAt ran).1
  obtain ⟨_,round,_⟩ := gathered before pulse running (fun m' old => within m' (by simp [old]))
  have quiet : m.before.core.timing.roundStartPulse = false := (within m member).1
  rw [← round]
  simp [Core.lastEntered,quiet]

theorem coversEntry {r : BitVec 64} {row : BitVec 8} (named : namesAccepted p r inner row)
    (entered : r = entry.before.core.timing.roundId)
    (inside : ∀ m ∈ inner, m.before.core.timing.roundId = r) :
    namesAccepted p r (entry :: inner) row ↔
      ∀ f, accepted p entry = some f →
        ∃ m ∈ inner, ∃ f', accepted p m = some f' ∧ f'.nodeId = f.nodeId := by
  constructor
  · intro exactly f held
    obtain ⟨place,other,_⟩ := acceptedFacts held
    have counted := (exactly f.nodeId.toNat).mpr (Or.inr ⟨entry,by simp,f,held,by rw [place,entered],rfl⟩)
    rcases (named _).mp counted with own | ⟨m,member,f',held',_,sender⟩
    · exact absurd own other
    · exact ⟨m,member,f',held',BitVec.eq_of_toNat_eq sender⟩
  · intro again i
    rw [named i]
    constructor
    · rintro (own | ⟨m,member,f,held⟩)
      · exact Or.inl own
      · exact Or.inr ⟨m,by simp [member],f,held⟩
    · rintro (own | ⟨m,member,f,held,place,sender⟩)
      · exact Or.inl own
      · rcases List.mem_cons.mp member with rfl | old
        · obtain ⟨m',member',f',held',same⟩ := again f held
          have place' := (acceptedFacts held').1
          exact Or.inr ⟨m',member',f',held',by rw [place',inside m' member'],by rw [same,sender]⟩
        · exact Or.inr ⟨m,old,f,held,place,sender⟩

theorem evidenceIff (ran : Ran (system p) (pre ++ entry :: (inner ++ exit :: post)) b)
    (window : RoundWindow p entry inner exit) :
    evidenceExact p entry inner exit post ↔
      ∀ f, accepted p entry = some f →
        ∃ m ∈ inner, ∃ f', accepted p m = some f' ∧ f'.nodeId = f.nodeId := by
  have split : pre ++ entry :: (inner ++ exit :: post) =
      (pre ++ entry :: inner) ++ exit :: post := by simp
  rw [split] at ran
  obtain ⟨before,_,upTo⟩ := Runs.ranAt ran
  obtain ⟨names,round⟩ := advertised upTo window
  have inside := fun m member => insideRound (m := m) before window.enters window.engages
    window.within member
  have covers := coversEntry names rfl inside
  constructor
  · exact fun exactly => covers.mp exactly.1
  · intro again
    refine ⟨covers.mpr again,?_⟩
    rintro later c rest rfl within r held
    rw [← List.cons_append,← List.append_assoc] at ran
    obtain ⟨upTo,_,through⟩ := Runs.ranAt ran
    obtain ⟨row,stage⟩ := heldRow upTo within
    obtain ⟨set,emitted⟩ := committedRow through held
    have same : r = entry.before.core.timing.roundId := emitted.symm.trans (stage.trans round)
    rw [set,row,same]
    exact ⟨rfl,covers.mpr again⟩

def windowsAt (p : Parameters) (inputs : List Inputs) (i k : Nat) :
    Option (List (Move Bench Inputs) × Move Bench Inputs × List (Move Bench Inputs) ×
      Move Bench Inputs × List (Move Bench Inputs)) := do
  let (moves,_) ← (play p inputs).toOption
  let (pre,entry,rest) ← Runs.cut i moves
  let (inner,exit,post) ← Runs.cut k rest
  some (pre,entry,inner,exit,post)

theorem windowsAtRan {inputs : List Inputs} {i k : Nat}
    (found : windowsAt p inputs i k = some (pre,entry,inner,exit,post)) :
    ∃ b, Ran (system p) (pre ++ entry :: (inner ++ exit :: post)) b := by
  simp only [windowsAt,bind,Option.bind_eq_some_iff] at found
  obtain ⟨⟨moves,b⟩,done,⟨pre',entry',rest⟩,first,⟨inner',exit',post'⟩,second,same⟩ := found
  simp only [Option.some.injEq,Prod.mk.injEq] at same
  obtain ⟨rfl,rfl,rfl,rfl,rfl⟩ := same
  rw [← Runs.cutIs second,← Runs.cutIs first]
  exact ⟨b,playRan (Runs.okOption done)⟩

instance (m : Move Bench Inputs) : Decidable (withinRound m) := by
  unfold withinRound; infer_instance

instance (p : Parameters) (m : Move Bench Inputs) : Decidable (carriesOn p m) := by
  unfold carriesOn; infer_instance

instance (p : Parameters) (entry exit : Move Bench Inputs) (inner : List (Move Bench Inputs)) :
    Decidable (RoundWindow p entry inner exit) :=
  decidable_of_iff (onBoundary entry = true ∧ entry.after.core.protocol.state = .run ∧
      (∀ m ∈ inner, withinRound m) ∧ onBoundary exit = true ∧ carriesOn p exit)
    ⟨fun h => ⟨h.1,h.2.1,h.2.2.1,h.2.2.2.1,h.2.2.2.2⟩,fun h => ⟨h.1,h.2,h.3,h.4,h.5⟩⟩

def trio : Parameters :=
  { nodeCount := 3, nodeId := 0, divides := alone.divides, fits := by decide, admits := alone.admits,
    named := by decide, narrow := by decide }

-- Node 1 is heard inside rounds 2 and 3, node 2 on the boundary cycle into round 3.
def trioHears : Nat → Option RxRow
  | 10 => some ⟨1,2,0,2⟩
  | 13 => some ⟨2,7,0,3⟩
  | 14 => some ⟨1,3,0,3⟩
  | _ => none

def trioAt (ns : Nat) (regWr : Option RegWrite) (rx : Option RxRow) : Inputs :=
  {ptpTodSec := 0, ptpTodNs := BitVec.ofNat 32 ns, regWr := regWr, rx := rx}

def trioInputs : List Inputs :=
  trioAt 0 (some ⟨0x003104,7⟩) none :: trioAt 0 none none :: trioAt 0 (some ⟨0x00300C,3⟩) none ::
    (List.range 18).map (fun k => trioAt (1000 * k) none (trioHears k))

theorem windowFound {i k : Nat} {inputs : List Inputs}
    {good : Move Bench Inputs → List (Move Bench Inputs) → Move Bench Inputs → Bool}
    (value : (windowsAt p inputs i k).map
      (fun w => decide (RoundWindow p w.2.1 w.2.2.1 w.2.2.2.1) && good w.2.1 w.2.2.1 w.2.2.2.1) =
        some true) :
    ∃ pre entry inner exit post b, Ran (system p) (pre ++ entry :: (inner ++ exit :: post)) b ∧
      windowsAt p inputs i k = some (pre,entry,inner,exit,post) ∧
      RoundWindow p entry inner exit ∧ good entry inner exit = true := by
  cases found : windowsAt p inputs i k with
  | none => simp [found] at value
  | some w =>
    obtain ⟨pre,entry,inner,exit,post⟩ := w
    obtain ⟨b,ran⟩ := windowsAtRan found
    simp only [found,Option.map_some,Option.some.injEq,Bool.and_eq_true,decide_eq_true_eq] at value
    exact ⟨pre,entry,inner,exit,post,b,ran,rfl,value.1,value.2⟩

theorem evidenceIffOnce : ∃ pre entry inner exit post,
    windowsAt trio trioInputs 12 3 = some (pre,entry,inner,exit,post) ∧
      exit.after.core.protocol.txRow = 3 ∧ evidenceExact trio entry inner exit post := by
  obtain ⟨pre,entry,inner,exit,post,b,ran,found,window,good⟩ :=
    @windowFound trio 12 3 trioInputs
      (fun entry _ exit => (accepted trio entry).isNone && exit.after.core.protocol.txRow = 3)
      (by decide +kernel)
  simp only [Bool.and_eq_true,Option.isNone_iff_eq_none,decide_eq_true_eq] at good
  refine ⟨pre,entry,inner,exit,post,found,good.2,(evidenceIff ran window).mpr ?_⟩
  intro f held
  rw [good.1] at held
  cases held

-- Node 2 is accepted on the boundary into round 3, but the row of that round is {0,1}.
theorem evidenceDropped : ∃ pre entry inner exit post b,
    windowsAt trio trioInputs 16 3 = some (pre,entry,inner,exit,post) ∧
      Ran (system trio) (pre ++ entry :: (inner ++ exit :: post)) b ∧
      RoundWindow trio entry inner exit ∧ ¬ evidenceExact trio entry inner exit post := by
  obtain ⟨pre,entry,inner,exit,post,b,ran,found,window,good⟩ :=
    @windowFound trio 16 3 trioInputs
      (fun entry _ exit => decide (accepted trio entry = some ⟨2,7,0,3⟩) &&
        decide (entry.before.core.timing.roundId = 3) && exit.after.core.protocol.txRow = 3)
      (by decide +kernel)
  simp only [Bool.and_eq_true,decide_eq_true_eq] at good
  obtain ⟨⟨heard,round⟩,row⟩ := good
  refine ⟨pre,entry,inner,exit,post,b,found,ran,window,?_⟩
  intro exactly
  have named := (exactly.1 2).mpr (Or.inr ⟨entry,by simp,_,heard,round.symm,rfl⟩)
  rw [row] at named
  exact absurd named (by decide)

end Syncons.ConsensusCore
