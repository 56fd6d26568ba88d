import Syncons.AxiStream

/-! The transmit mux: two sources of frames on one stream, and the completions of one of
them kept from the interface. -/
namespace Syncons
open Runs
open AxiStream

inductive TxSource where
  | ssr | dma
  deriving DecidableEq, Repr

namespace SsrTxMux

structure Parameters where
  axisDataWidth : Nat := 512
  axisKeepWidth : Nat := axisDataWidth / 8
  axisIdWidth : Nat := 12
  axisDestWidth : Nat := 4
  txTagWidth : Nat := 16
  axisUserWidth : Nat := txTagWidth + 1
  ptpTsWidth : Nat := 96
  pSsrTagBit : Nat := txTagWidth - 1

structure TxBeat (p : Parameters) where
  data : BitVec p.axisDataWidth
  keep : BitVec p.axisKeepWidth
  last : Bool
  user : BitVec p.axisUserWidth
  id : BitVec p.axisIdWidth
  dest : BitVec p.axisDestWidth
  deriving DecidableEq

structure Completion (p : Parameters) where
  ts : BitVec p.ptpTsWidth
  tag : BitVec p.txTagWidth
  deriving DecidableEq

inductive Sel where
  | none | ssr | dma
  deriving DecidableEq, Repr

end SsrTxMux

open SsrTxMux in
structure SsrTxMux (p : Parameters) where
  sel : Sel := .none
  ssrFrameCount : BitVec 32 := 0
  dmaFrameCount : BitVec 32 := 0
  ssrCplTs : BitVec p.ptpTsWidth := 0
  ssrCplCount : BitVec 32 := 0
  ssrCplOverrun : BitVec 32 := 0
  ssrCplPending : Bool := false

namespace SsrTxMux

structure Inputs (p : Parameters) where
  rst : Bool := false
  ssr : Axis (TxBeat p)
  dma : Axis (TxBeat p)
  txReady : Bool
  cpl : Axis (Completion p)
  cplReady : Bool
  ssrCplAck : Bool := false

variable {p : Parameters} (s : SsrTxMux p) (x : Inputs p)

section Wires

def mTx : Axis (TxBeat p) where
  valid :=
    match s.sel with
    | .ssr => x.ssr.valid
    | .dma => x.dma.valid
    | .none => false
  beat := if s.sel = .ssr then x.ssr.beat else x.dma.beat

def ssrReady : Bool := s.sel = .ssr && x.txReady
def dmaReady : Bool := s.sel = .dma && x.txReady

def outFire : Bool := (s.mTx x).valid && x.txReady
def outDone : Bool := s.outFire x && (s.mTx x).beat.last

def cplIsSsr (c : Completion p) : Bool := c.tag.getLsbD p.pSsrTagBit

def mCpl : Axis (Completion p) where
  valid := x.cpl.valid && !cplIsSsr x.cpl.beat
  beat := x.cpl.beat

def cplAccepts : Bool := if cplIsSsr x.cpl.beat then true else x.cplReady

end Wires

def arbitrate : SsrTxMux p :=
  if s.sel = .none then
    if x.ssr.valid then {s with sel := .ssr}
    else if x.dma.valid then {s with sel := .dma}
    else s
  else if s.outDone x then
    if s.sel = .ssr then {s with sel := .none, ssrFrameCount := s.ssrFrameCount + 1}
    else {s with sel := .none, dmaFrameCount := s.dmaFrameCount + 1}
  else s

def complete (q : SsrTxMux p) : SsrTxMux p :=
  if x.cpl.valid && cplIsSsr x.cpl.beat then
    { q with
      ssrCplTs := x.cpl.beat.ts
      ssrCplCount := s.ssrCplCount + 1
      ssrCplOverrun := if s.ssrCplPending then s.ssrCplOverrun + 1 else s.ssrCplOverrun
      ssrCplPending := true }
  else if x.ssrCplAck then {q with ssrCplPending := false}
  else q

def next : SsrTxMux p := if x.rst then {} else s.complete x (s.arbitrate x)

def system (p : Parameters) : System (SsrTxMux p) (Inputs p) where
  start s := s = {}
  step s x s' := x.rst = false ∧ s' = s.next x

section Streams

def outStream (m : Move (SsrTxMux p) (Inputs p)) : LinkCycle (TxBeat p) :=
  ⟨(m.before.mTx m.op).offer,m.op.txReady⟩

def sourceOf (x : Inputs p) : TxSource → Axis (TxBeat p)
  | .ssr => x.ssr
  | .dma => x.dma

def sourceReady (s : SsrTxMux p) (x : Inputs p) : TxSource → Bool
  | .ssr => s.ssrReady x
  | .dma => s.dmaReady x

def frameCount (s : SsrTxMux p) : TxSource → BitVec 32
  | .ssr => s.ssrFrameCount
  | .dma => s.dmaFrameCount

def sourceStream (source : TxSource) (m : Move (SsrTxMux p) (Inputs p)) : LinkCycle (TxBeat p) :=
  ⟨(sourceOf m.op source).offer,m.before.sourceReady m.op source⟩

def cplStream (m : Move (SsrTxMux p) (Inputs p)) : LinkCycle (Completion p) :=
  ⟨m.op.cpl.offer,cplAccepts m.op⟩

def hostCplStream (m : Move (SsrTxMux p) (Inputs p)) : LinkCycle (Completion p) :=
  ⟨(mCpl m.op).offer,m.op.cplReady⟩

end Streams

def grants : TxSource → Sel
  | .ssr => .ssr
  | .dma => .dma

section Grant
variable {s s' : SsrTxMux p} {x : Inputs p} {source : TxSource}

theorem selCases (s : SsrTxMux p) : s.sel = .none ∨ ∃ source, s.sel = grants source := by
  cases sel : s.sel with
  | none => exact .inl rfl
  | ssr => exact .inr ⟨.ssr,rfl⟩
  | dma => exact .inr ⟨.dma,rfl⟩

theorem grantsInj {a b : TxSource} (same : grants a = grants b) : a = b := by
  cases a with
  | ssr => cases b with
    | ssr => rfl
    | dma => cases same
  | dma => cases b with
    | ssr => cases same
    | dma => rfl

-- The granted source drives the output and sees its ready; the other source sees none.
theorem grantedOut (granted : s.sel = grants source) : s.mTx x = sourceOf x source := by
  cases source with
  | ssr => simp [mTx,sourceOf,granted,grants]
  | dma => simp [mTx,sourceOf,granted,grants]

theorem grantedReady (granted : s.sel = grants source) (other : TxSource) :
    s.sourceReady x other = (decide (other = source) && x.txReady) := by
  cases source with
  | ssr => cases other with
    | ssr => simp [sourceReady,ssrReady,granted,grants]
    | dma => simp [sourceReady,dmaReady,granted,grants]
  | dma => cases other with
    | ssr => simp [sourceReady,ssrReady,granted,grants]
    | dma => simp [sourceReady,dmaReady,granted,grants]

theorem idleOut (idle : s.sel = .none) : (s.mTx x).offer = none := by
  simp [mTx,Axis.offer,idle]

theorem idleReady (idle : s.sel = .none) (source : TxSource) : s.sourceReady x source = false := by
  cases source with
  | ssr => simp [sourceReady,ssrReady,idle]
  | dma => simp [sourceReady,dmaReady,idle]

theorem completeKeeps (q : SsrTxMux p) :
    (s.complete x q).sel = q.sel ∧ ∀ source, (s.complete x q).frameCount source = q.frameCount source := by
  unfold complete
  split
  · exact ⟨rfl,fun source => by cases source <;> rfl⟩
  · split
    · exact ⟨rfl,fun source => by cases source <;> rfl⟩
    · exact ⟨rfl,fun _ => rfl⟩

theorem arbitrated (step : (system p).step s x s') :
    s'.sel = (s.arbitrate x).sel ∧ ∀ source, s'.frameCount source = (s.arbitrate x).frameCount source := by
  obtain ⟨quiet,after⟩ := step
  have shape : s' = s.complete x (s.arbitrate x) := by simp [after,next,quiet]
  rw [shape]
  exact completeKeeps _

theorem idleNext (step : (system p).step s x s') (idle : s.sel = .none) :
    ∀ source, s'.frameCount source = s.frameCount source := by
  intro source
  rw [(arbitrated step).2 source,arbitrate,if_pos idle]
  split
  · cases source <;> rfl
  · split
    · cases source <;> rfl
    · rfl

/- A grant stands until the marked beat of a frame is handed over. -/
theorem grantedNext (step : (system p).step s x s') (granted : s.sel = grants source) :
    (s.outDone x = false → s'.sel = grants source ∧ ∀ other, s'.frameCount other = s.frameCount other) ∧
    (s.outDone x = true → s'.sel = .none ∧ ∀ other,
      s'.frameCount other = s.frameCount other + if other = source then 1 else 0) := by
  obtain ⟨sel,count⟩ := arbitrated step
  have busy : s.sel ≠ .none := by
    rw [granted]
    cases source <;> simp [grants]
  constructor
  · intro open_
    have stays : s.arbitrate x = s := by simp [arbitrate,busy,open_]
    rw [stays] at sel count
    exact ⟨sel.trans granted,count⟩
  · intro done
    simp only [sel,count,arbitrate,if_pos done,granted]
    cases source with
    | ssr => exact ⟨rfl,fun other => by cases other <;> simp [frameCount,grants]⟩
    | dma => exact ⟨rfl,fun other => by cases other <;> simp [frameCount,grants]⟩

end Grant

section Merging
variable {moves : List (Move (SsrTxMux p) (Inputs p))} {s s' : SsrTxMux p} {x : Inputs p}
  {frames : List (TxSource × Frame (TxBeat.last (p := p)))} {part : List (TxBeat p)}

def framesOf (source : TxSource) (frames : List (TxSource × Frame (TxBeat.last (p := p)))) :
    List (Frame (TxBeat.last (p := p))) :=
  (frames.filter (fun f => f.1 = source)).map Prod.snd

/- The output is the frames of both sources one after the other, and at its end the begun
frame of the source that holds the grant; the frames of a source are what it handed over. -/
structure Merged (moves : List (Move (SsrTxMux p) (Inputs p))) (s : SsrTxMux p)
    (frames : List (TxSource × Frame (TxBeat.last (p := p)))) (part : List (TxBeat p)) : Prop where
  out : Framed TxBeat.last (handed (moves.map outStream)) (frames.map Prod.snd) part
  own : ∀ source, Framed TxBeat.last (handed (moves.map (sourceStream source)))
    (framesOf source frames) (if s.sel = grants source then part else [])
  granted : part ≠ [] → s.sel ≠ .none
  counted : ∀ source, s.frameCount source = BitVec.ofNat 32 (framesOf source frames).length

section Step
variable {m : Move (SsrTxMux p) (Inputs p)} {source : TxSource}

theorem grantedTaken (granted : m.before.sel = grants source) (other : TxSource) :
    (sourceStream other m).taken = if other = source then (outStream m).taken else none := by
  simp only [sourceStream,outStream,LinkCycle.taken,grantedOut granted,grantedReady granted]
  by_cases own : other = source
  · simp [own]
  · simp [own]

theorem doneTaken : m.before.outDone m.op = (outStream m).taken.any TxBeat.last := by
  simp only [outDone,outFire,outStream,LinkCycle.taken,Axis.offer]
  rcases Bool.eq_false_or_eq_true m.op.txReady with ready | ready
  · rcases Bool.eq_false_or_eq_true (m.before.mTx m.op).valid with valid | valid <;> simp [ready,valid]
  · simp [ready]

theorem movesHanded (stream : Move (SsrTxMux p) (Inputs p) → LinkCycle (TxBeat p)) :
    handed ((moves ++ [m]).map stream) = handed (moves.map stream) ++ (stream m).taken.toList := by
  rw [List.map_append,List.map_singleton,handedSnoc]

theorem idleMerged (merged : Merged moves m.before frames part) (idle : m.before.sel = .none)
    (step : (system p).step m.before m.op m.after) : Merged (moves ++ [m]) m.after frames [] := by
  have fresh : part = [] := by
    by_contra begun
    exact merged.granted begun idle
  subst fresh
  have outNone : (outStream m).taken = none := by simp [outStream,LinkCycle.taken,idleOut idle]
  have ownNone : ∀ source, (sourceStream source m).taken = none :=
    fun source => takenIdle (idleReady idle source)
  refine ⟨?_,?_,fun begun => absurd rfl begun,?_⟩
  · rw [movesHanded,outNone]
    simpa using merged.out
  · intro source
    rw [movesHanded,ownNone source]
    simpa using merged.own source
  · intro source
    rw [idleNext step idle source]
    exact merged.counted source

theorem framesOfSnoc (frame : Frame (TxBeat.last (p := p))) (other : TxSource) :
    framesOf other (frames ++ [(source,frame)]) =
      framesOf other frames ++ if other = source then [frame] else [] := by
  by_cases own : other = source
  · simp [framesOf,own]
  · have apart : source ≠ other := fun same => own same.symm
    simp [framesOf,own,apart]

theorem ownPart (granted : s.sel = grants source) (other : TxSource) :
    (if s.sel = grants other then part else []) = if other = source then part else [] := by
  by_cases own : other = source
  · simp [own,granted]
  · have apart : grants source ≠ grants other := fun same => own (grantsInj same).symm
    simp [own,granted,apart]

theorem grantedMerged (merged : Merged moves m.before frames part)
    (granted : m.before.sel = grants source) (step : (system p).step m.before m.op m.after) :
    ∃ frames' part', Merged (moves ++ [m]) m.after frames' part' := by
  obtain ⟨stays,ends⟩ := grantedNext step granted
  have own := merged.own
  simp only [ownPart granted] at own
  have locked : m.after.sel = grants source → m.after.sel ≠ .none := by
    intro sel idle
    rw [idle] at sel
    cases source <;> cases sel
  cases beat : (outStream m).taken with
  | none =>
    obtain ⟨sel,count⟩ := stays (by simp [doneTaken,beat])
    refine ⟨frames,part,?_,?_,fun _ => locked sel,?_⟩
    · rw [movesHanded,beat]
      simpa using merged.out
    · intro other
      rw [movesHanded,grantedTaken granted,beat,ownPart sel]
      simpa using own other
    · intro other
      rw [count other]
      exact merged.counted other
  | some b =>
    cases last : b.last with
    | false =>
      obtain ⟨sel,count⟩ := stays (by simp [doneTaken,beat,last])
      refine ⟨frames,part ++ [b],?_,?_,fun _ => locked sel,?_⟩
      · rw [movesHanded,beat]
        exact merged.out.extend last
      · intro other
        rw [movesHanded,grantedTaken granted,beat,ownPart sel]
        have before := own other
        split
        · simp only [if_pos (by assumption)] at before
          exact before.extend last
        · simp only [if_neg (by assumption)] at before
          simpa using before
      · intro other
        rw [count other]
        exact merged.counted other
    | true =>
      obtain ⟨sel,count⟩ := ends (by simp [doneTaken,beat,last])
      refine ⟨frames ++ [(source,merged.out.frame last)],[],?_,?_,fun begun => absurd rfl begun,?_⟩
      · rw [movesHanded,beat,List.map_append]
        exact merged.out.close last
      · intro other
        rw [movesHanded,grantedTaken granted,beat,framesOfSnoc,ite_self]
        have before := own other
        split
        · simp only [if_pos (by assumption)] at before
          exact before.close last
        · simp only [if_neg (by assumption)] at before
          simpa using before
      · intro other
        rw [count other,framesOfSnoc,merged.counted other]
        split
        · simp [BitVec.ofNat_add]
        · simp

end Step

theorem ranMerged (ran : Ran (system p) moves s) : ∃ frames part, Merged moves s frames part := by
  induction ran with
  | start fresh =>
    subst fresh
    refine ⟨[],[],framedNothing,?_,fun begun => absurd rfl begun,?_⟩
    · intro source
      rw [ite_self]
      exact framedNothing
    · intro source
      cases source <;> rfl
  | @move moves s x s' before step ih =>
    obtain ⟨frames,part,merged⟩ := ih
    rcases selCases s with idle | ⟨source,granted⟩
    · exact ⟨frames,[],@idleMerged _ _ _ _ ⟨s,x,s'⟩ merged idle step⟩
    · exact @grantedMerged _ _ _ _ ⟨s,x,s'⟩ source merged granted step

/- What a source keeps on offer, the mux keeps on offer. -/
theorem outSteady (ran : Ran (system p) moves s)
    (steady : ∀ source, Steady (moves.map (sourceStream source))) : Steady (moves.map outStream) := by
  refine ranSteady ran ?_
  intro pre a b post whole link _ step refused offered
  rcases selCases a.before with idle | ⟨source,granted⟩
  · have quiet : (outStream a).offer = none := idleOut idle
    rw [quiet] at offered
    cases offered
  · have untaken : a.before.outDone a.op = false := by rw [doneTaken,takenIdle refused]; rfl
    have next : b.before.sel = grants source := link ▸ ((grantedNext step granted).1 untaken).1
    have waits : (sourceStream source a).ready = false := by
      simp [sourceStream,grantedReady granted,show a.op.txReady = false from refused]
    have same := steadyMoves.mp (steady source) pre a b post whole waits
    simp only [outStream,grantedOut granted,grantedOut next] at offered ⊢
    exact same offered

/- The completions of frames with the reserved tag bit are counted, all others go on. -/
structure Completed (moves : List (Move (SsrTxMux p) (Inputs p))) (s : SsrTxMux p) : Prop where
  delivered : handed (moves.map hostCplStream) =
    (handed (moves.map cplStream)).filter (fun c => !cplIsSsr c)
  prompt : ∀ m ∈ moves, ∀ c, m.op.cpl.offer = some c → cplIsSsr c → (cplStream m).taken = some c
  counted : s.ssrCplCount =
    BitVec.ofNat 32 ((handed (moves.map cplStream)).filter cplIsSsr).length

theorem cplHanded (stream : Move (SsrTxMux p) (Inputs p) → LinkCycle (Completion p))
    (m : Move (SsrTxMux p) (Inputs p)) :
    handed ((moves ++ [m]).map stream) = handed (moves.map stream) ++ (stream m).taken.toList := by
  rw [List.map_append,List.map_singleton,handedSnoc]

theorem cplCounted (step : (system p).step s x s') :
    s'.ssrCplCount = if x.cpl.offer.any cplIsSsr then s.ssrCplCount + 1 else s.ssrCplCount := by
  obtain ⟨quiet,after⟩ := step
  have same : (s.arbitrate x).ssrCplCount = s.ssrCplCount := by
    unfold arbitrate
    split
    · split
      · rfl
      · split <;> rfl
    · split
      · split <;> rfl
      · rfl
  cases valid : x.cpl.valid with
  | false =>
    simp only [after,next,quiet,complete,Axis.offer,valid]
    cases x.ssrCplAck <;> simpa using same
  | true =>
    cases tagged : cplIsSsr x.cpl.beat with
    | false =>
      simp only [after,next,quiet,complete,Axis.offer,valid,tagged]
      cases x.ssrCplAck <;> simpa [tagged] using same
    | true => simp [after,next,quiet,complete,Axis.offer,valid,tagged]

theorem cplSplit (m : Move (SsrTxMux p) (Inputs p)) :
    (hostCplStream m).taken = (cplStream m).taken.filter (fun c => !cplIsSsr c) ∧
    (cplStream m).taken.filter cplIsSsr = m.op.cpl.offer.filter cplIsSsr := by
  simp only [hostCplStream,cplStream,LinkCycle.taken,mCpl,cplAccepts,Axis.offer]
  rcases Bool.eq_false_or_eq_true m.op.cpl.valid with valid | valid
  · rcases Bool.eq_false_or_eq_true (cplIsSsr m.op.cpl.beat) with tagged | tagged
    · simp [valid,tagged,Option.filter]
    · rcases Bool.eq_false_or_eq_true m.op.cplReady with ready | ready <;>
        simp [valid,tagged,ready,Option.filter]
  · simp [valid]

theorem ranCompleted (ran : Ran (system p) moves s) : Completed moves s := by
  induction ran with
  | start fresh =>
    subst fresh
    exact ⟨rfl,by simp,rfl⟩
  | @move moves s x s' before step ih =>
    obtain ⟨host,own⟩ := cplSplit ⟨s,x,s'⟩
    refine ⟨?_,?_,?_⟩
    · rw [cplHanded,cplHanded,ih.delivered,List.filter_append,host]
      cases (cplStream ⟨s,x,s'⟩).taken with
      | none => rfl
      | some c => cases tagged : cplIsSsr c <;> simp [Option.filter,tagged]
    · intro m member c offered ssr
      have taken : (cplStream m).taken.filter cplIsSsr = some c := by
        rw [(cplSplit m).2,offered]
        simpa [Option.filter] using ssr
      exact (Option.filter_eq_some_iff.mp taken).1
    · rw [cplCounted step,ih.counted,cplHanded,List.filter_append,List.length_append]
      have counts : ((cplStream ⟨s,x,s'⟩).taken.toList.filter cplIsSsr).length =
          if x.cpl.offer.any cplIsSsr then 1 else 0 := by
        rw [← Option.toList_filter,own]
        cases x.cpl.offer with
        | none => rfl
        | some c => cases tagged : cplIsSsr c <;> simp [Option.filter,tagged]
      rw [counts]
      split
      · simp [BitVec.ofNat_add]
      · simp

theorem mergedWithoutLoss (ran : Ran (system p) moves s)
    (steady : ∀ source, Steady (moves.map (sourceStream source))) :
    (∃ frames part, Merged moves s frames part) ∧ Steady (moves.map outStream) ∧ Completed moves s :=
  ⟨ranMerged ran,outSteady ran steady,ranCompleted ran⟩

section Session

def cycle (s : SsrTxMux p) (x : Inputs p) : Except Unit (SsrTxMux p) :=
  if x.rst then .error () else .ok (s.next x)

theorem playRan {inputs : List (Inputs p)} (done : record cycle inputs {} = .ok (moves,s)) :
    Ran (system p) moves s := by
  refine recordRan ?_ (.start rfl) done
  intro x _ s s' fits
  cases quiet : x.rst with
  | true => simp [cycle,quiet] at fits
  | false =>
    simp only [cycle,quiet,Bool.false_eq_true,if_false,Except.ok.injEq] at fits
    exact ⟨quiet,fits.symm⟩

def narrow : Parameters := {axisDataWidth := 8, axisIdWidth := 1, axisDestWidth := 1, ptpTsWidth := 1}

def beatOf (n : Nat) (last : Bool) : TxBeat narrow := ⟨BitVec.ofNat 8 n,1,last,1,0,0⟩

def wired (ssr dma : Option (TxBeat narrow)) (ready : Bool) (tag : Option (BitVec 16)) : Inputs narrow where
  ssr := ⟨ssr.isSome,ssr.getD (beatOf 0 false)⟩
  dma := ⟨dma.isSome,dma.getD (beatOf 0 false)⟩
  txReady := ready
  cpl := ⟨tag.isSome,⟨0,tag.getD 0⟩⟩
  cplReady := ready

-- A header beat of the engine is offered while a frame of the host is under way.
def contended : List (Inputs narrow) :=
  [wired none (some (beatOf 1 false)) true none,wired none (some (beatOf 1 false)) false (some 0x8000),
    wired (some (beatOf 7 true)) (some (beatOf 1 false)) true (some 3),
    wired (some (beatOf 7 true)) (some (beatOf 2 true)) true none,
    wired (some (beatOf 7 true)) (some (beatOf 3 true)) true none,
    wired (some (beatOf 7 true)) (some (beatOf 3 true)) true (some 0x8001)]

theorem mergedWithoutLossOnce : ∃ moves s, record cycle contended {} = .ok (moves,s) ∧
    handed (moves.map outStream) = [beatOf 1 false,beatOf 2 true,beatOf 7 true] ∧
    (∃ frames part, Merged moves s frames part) ∧ Steady (moves.map outStream) ∧ Completed moves s := by
  have value : (record cycle contended ({} : SsrTxMux narrow)).toOption.map (fun r =>
      decide (handed (r.1.map outStream) = [beatOf 1 false,beatOf 2 true,beatOf 7 true] ∧
        Steady (r.1.map (sourceStream .ssr)) ∧ Steady (r.1.map (sourceStream .dma)))) = some true := by
    decide +kernel
  obtain ⟨⟨moves,s⟩,done,found⟩ := okFound value
  obtain ⟨out,ssr,dma⟩ := of_decide_eq_true found
  have steady : ∀ source, Steady (moves.map (sourceStream source)) := fun source =>
    match source with
    | .ssr => ssr
    | .dma => dma
  exact ⟨moves,s,done,out,mergedWithoutLoss (playRan done) steady⟩

end Session

end Merging

end SsrTxMux

end Syncons
