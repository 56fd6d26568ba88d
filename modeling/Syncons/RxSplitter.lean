import Syncons.AxiStream
import Syncons.RxPath

/-! The receive splitter with both of its outputs. The route of a beat is computed from
that beat; a frame keeps together when all its beats carry the route of the first. -/
namespace Syncons
open Runs
open AxiStream
open BitFields (put)

namespace RxSplitter

structure IfBeat where
  data : BitVec 512
  keep : BitVec 64
  last : Bool
  id : BitVec 8
  dest : BitVec 8
  user : BitVec 1
  deriving DecidableEq, Repr

def IfBeat.blank : IfBeat := ⟨0,0,false,0,0,0⟩

def routeOf (b : IfBeat) : RxRoute := rxRouteEff ⟨b.data,b.last,b.dest⟩

structure Inputs where
  rx : Axis IfBeat
  dmaReady : Bool
  consReady : Bool

structure Outputs where
  rxReady : Bool := true
  dma : Axis IfBeat := ⟨false,.blank⟩
  cons : Axis IfBeat := ⟨false,.blank⟩

def outputs (x : Inputs) : Outputs :=
  match if x.rx.valid then routeOf x.rx.beat else .drop with
  | .cons => if x.rx.valid then {cons := x.rx, rxReady := x.consReady} else {}
  | .dma => if x.rx.valid then {dma := x.rx, rxReady := x.dmaReady} else {}
  | .drop => {}

def rxStream (x : Inputs) : LinkCycle IfBeat := ⟨x.rx.offer,(outputs x).rxReady⟩
def consStream (x : Inputs) : LinkCycle IfBeat := ⟨(outputs x).cons.offer,x.consReady⟩
def dmaStream (x : Inputs) : LinkCycle IfBeat := ⟨(outputs x).dma.offer,x.dmaReady⟩

theorem routed (x : Inputs) :
    (consStream x).taken = (rxStream x).taken.filter (fun b => routeOf b = .cons) ∧
    (dmaStream x).taken = (rxStream x).taken.filter (fun b => routeOf b = .dma) := by
  obtain ⟨⟨valid,beat⟩,dmaReady,consReady⟩ := x
  cases valid with
  | false => simp [consStream,dmaStream,rxStream,LinkCycle.taken,outputs,Axis.offer]
  | true =>
    cases route : routeOf beat with
    | drop => simp [consStream,dmaStream,rxStream,LinkCycle.taken,outputs,Axis.offer,Option.filter,route]
    | cons =>
      cases consReady <;>
        simp [consStream,dmaStream,rxStream,LinkCycle.taken,outputs,Axis.offer,Option.filter,route]
    | dma =>
      cases dmaReady <;>
        simp [consStream,dmaStream,rxStream,LinkCycle.taken,outputs,Axis.offer,Option.filter,route]

section Frames
variable {frames : List (Frame IfBeat.last)} {moves : List (Move (List IfBeat) Inputs)}
  {rest : List IfBeat}

/- The frames arrive beat by beat: the MAC offers the next beat or nothing. -/
def system (frames : List (Frame IfBeat.last)) : System (List IfBeat) Inputs where
  start rest := rest = frames.flatMap Frame.beats
  step rest x rest' := (∀ b, x.rx.offer = some b → rest.head? = some b) ∧
    rest = (rxStream x).taken.toList ++ rest'

def received (moves : List (Move (List IfBeat) Inputs)) : List IfBeat :=
  handed (moves.map (fun m => rxStream m.op))

def forwarded : RxRoute → List (Move (List IfBeat) Inputs) → List IfBeat
  | .cons,moves => handed (moves.map (fun m => consStream m.op))
  | .dma,moves => handed (moves.map (fun m => dmaStream m.op))
  | .drop,_ => []

def framed (frames : List (Frame IfBeat.last)) : List (RxRoute × IfBeat) :=
  frames.flatMap (fun f => f.beats.map (fun b => (routeOf f.first,b)))

def sentTo (route : RxRoute) (beats : List (RxRoute × IfBeat)) : List IfBeat :=
  (beats.filter (fun b => b.1 = route)).map Prod.snd

/- What an output has handed over is what arrived of the frames that began with its EtherType. -/
structure RoutedWhole (frames : List (Frame IfBeat.last)) (moves : List (Move (List IfBeat) Inputs))
    (rest : List IfBeat) : Prop where
  arrived : frames.flatMap Frame.beats = received moves ++ rest
  cons : forwarded .cons moves = sentTo .cons ((framed frames).take (received moves).length)
  dma : forwarded .dma moves = sentTo .dma ((framed frames).take (received moves).length)

theorem framedBeats (frames : List (Frame IfBeat.last)) :
    (framed frames).map Prod.snd = frames.flatMap Frame.beats := by
  induction frames with
  | nil => rfl
  | cons f others ih =>
    simp only [framed,List.flatMap_cons,List.map_append,List.map_map] at ih ⊢
    rw [ih]
    simp [Function.comp_def]

-- With nothing left to arrive, the frames an output has handed over are whole.
theorem sentWhole (route : RxRoute) (frames : List (Frame IfBeat.last)) :
    sentTo route (framed frames) =
      (frames.filter (fun f => routeOf f.first = route)).flatMap Frame.beats := by
  induction frames with
  | nil => rfl
  | cons f others ih =>
    simp only [sentTo,framed,List.flatMap_cons,List.filter_append,List.map_append] at ih ⊢
    rw [ih]
    by_cases own : routeOf f.first = route
    · simp [own,List.filter_map,Function.comp_def]
    · simp [own]

theorem ranArrived (ran : Ran (system frames) moves rest) :
    frames.flatMap Frame.beats = received moves ++ rest := by
  induction ran with
  | start fresh => exact fresh.symm
  | @move moves rest x rest' before step ih =>
    rw [ih,step.2]
    simp [received,handedSnoc]

theorem forwardedReceived (moves : List (Move (List IfBeat) Inputs)) :
    forwarded .cons moves = (received moves).filter (fun b => routeOf b = .cons) ∧
    forwarded .dma moves = (received moves).filter (fun b => routeOf b = .dma) := by
  induction moves with
  | nil => exact ⟨rfl,rfl⟩
  | cons m others ih =>
    obtain ⟨cons,dma⟩ := routed m.op
    simp only [forwarded,received,handed,List.map_cons,List.filterMap_cons] at ih ⊢
    rw [cons,dma]
    cases taken : (rxStream m.op).taken with
    | none => simpa using ih
    | some b => cases route : routeOf b <;> simp [Option.filter,route,ih]

theorem framedAlike (together : ∀ f ∈ frames, ∀ b ∈ f.beats, routeOf b = routeOf f.first) :
    framed frames = (frames.flatMap Frame.beats).map (fun b => (routeOf b,b)) := by
  rw [framed,List.map_flatMap]
  apply List.flatMap_congr
  intro f member
  apply List.map_congr_left
  intro b inside
  rw [together f member b inside]

theorem sentAlike (route : RxRoute) (beats : List IfBeat) :
    sentTo route (beats.map (fun b => (routeOf b,b))) = beats.filter (fun b => routeOf b = route) := by
  induction beats with
  | nil => rfl
  | cons b others ih =>
    simp only [sentTo] at ih
    by_cases own : routeOf b = route
    · simp [sentTo,own,ih]
    · simp [sentTo,own,ih]

theorem routedTogether (ran : Ran (system frames) moves rest)
    (together : ∀ f ∈ frames, ∀ b ∈ f.beats, routeOf b = routeOf f.first) :
    RoutedWhole frames moves rest := by
  have arrived := ranArrived ran
  have taken : (framed frames).take (received moves).length =
      (received moves).map (fun b => (routeOf b,b)) := by
    rw [framedAlike together,arrived,← List.map_take,List.take_left]
  obtain ⟨cons,dma⟩ := forwardedReceived moves
  exact ⟨arrived,by rw [cons,taken,sentAlike],by rw [dma,taken,sentAlike]⟩

theorem arrives (frames : List (Frame IfBeat.last)) (n : Nat) :
    ∃ moves, Ran (system frames) moves ((frames.flatMap Frame.beats).drop n) ∧
      received moves = (frames.flatMap Frame.beats).take n := by
  induction n with
  | zero => exact ⟨[],.start rfl,rfl⟩
  | succ n ih =>
    obtain ⟨moves,ran,sofar⟩ := ih
    cases left : (frames.flatMap Frame.beats).drop n with
    | nil =>
      have beyond : (frames.flatMap Frame.beats).length ≤ n := List.drop_eq_nil_iff.mp left
      refine ⟨moves,?_,?_⟩
      · rw [List.drop_eq_nil_of_le (Nat.le_succ_of_le beyond)]
        rwa [left] at ran
      · rw [sofar,List.take_of_length_le beyond,List.take_of_length_le (Nat.le_succ_of_le beyond)]
    | cons b others =>
      let x : Inputs := ⟨⟨true,b⟩,true,true⟩
      have ready : (outputs x).rxReady = true := by
        unfold outputs
        cases route : routeOf b <;> simp [x]
      have taken : (rxStream x).taken = some b := by
        simp only [rxStream,LinkCycle.taken,ready]
        rfl
      have after : (frames.flatMap Frame.beats).drop (n + 1) = others := by
        rw [← List.drop_drop,left,List.drop_one,List.tail_cons]
      refine ⟨moves ++ [⟨b :: others,x,others⟩],?_,?_⟩
      · rw [after]
        refine .move (left ▸ ran) ⟨?_,by rw [taken]; rfl⟩
        intro c offered
        exact offered
      · have next : (frames.flatMap Frame.beats)[n]? = some b := by
          rw [← List.head?_drop,left,List.head?_cons]
        rw [List.take_add_one,next,← sofar]
        simp [received,handedSnoc,taken]

theorem sentIff {route : RxRoute} {beats : List (RxRoute × IfBeat)}
    (same : ∀ n, ((beats.take n).map Prod.snd).filter (fun b => routeOf b = route) =
      sentTo route (beats.take n)) :
    ∀ b ∈ beats, routeOf b.2 = route ↔ b.1 = route := by
  induction beats using List.reverseRecOn with
  | nil => simp
  | append_singleton front b ih =>
    have before : ∀ n, ((front.take n).map Prod.snd).filter (fun b => routeOf b = route) =
        sentTo route (front.take n) := by
      intro n
      have short := same (min n front.length)
      rwa [List.take_append_of_le_length (Nat.min_le_right _ _),← List.take_eq_take_min] at short
    have whole := same (front.length + 1)
    have frontal := before front.length
    rw [List.take_of_length_le (by simp)] at whole
    rw [List.take_length] at frontal
    simp only [sentTo,List.map_append,List.filter_append] at whole frontal
    rw [frontal] at whole
    have final := List.append_cancel_left whole
    intro c member
    rcases List.mem_append.mp member with inFront | isLast
    · exact ih before c inFront
    · rw [List.mem_singleton.mp isLast]
      by_cases own : routeOf b.2 = route
      · by_cases tagged : b.1 = route
        · exact iff_of_true own tagged
        · simp [own,tagged] at final
      · by_cases tagged : b.1 = route
        · simp [own,tagged] at final
        · exact iff_of_false own tagged

theorem routedWholeIff (frames : List (Frame IfBeat.last)) :
    (∀ moves rest, Ran (system frames) moves rest → RoutedWhole frames moves rest) ↔
      ∀ f ∈ frames, ∀ b ∈ f.beats, routeOf b = routeOf f.first := by
  constructor
  · intro whole
    have same : ∀ route, route ≠ .drop → ∀ b ∈ framed frames, routeOf b.2 = route ↔ b.1 = route := by
      intro route kept
      apply sentIff
      intro n
      obtain ⟨moves,ran,sofar⟩ := arrives frames n
      have routed := whole moves _ ran
      obtain ⟨cons,dma⟩ := forwardedReceived moves
      have count : (framed frames).take (received moves).length = (framed frames).take n := by
        rw [sofar,List.length_take,← framedBeats,List.length_map,← List.take_eq_take_min]
      rw [List.map_take,framedBeats,← sofar,← count]
      cases route with
      | drop => exact absurd rfl kept
      | cons => rw [← cons,routed.cons]
      | dma => rw [← dma,routed.dma]
    intro f member b inside
    have tagged : (routeOf f.first,b) ∈ framed frames :=
      List.mem_flatMap.mpr ⟨f,member,List.mem_map.mpr ⟨b,inside,rfl⟩⟩
    have cons := same .cons (by decide) _ tagged
    have dma := same .dma (by decide) _ tagged
    cases first : routeOf f.first with
    | cons => exact cons.mpr first
    | dma => exact dma.mpr first
    | drop =>
      cases own : routeOf b with
      | drop => rfl
      | cons => exact absurd (cons.mp own) (by simp [first])
      | dma => exact absurd (dma.mp own) (by simp [first])
  · intro together moves rest ran
    exact routedTogether ran together

-- Once everything has arrived, the outputs hold whole frames, in order.
theorem drainedWhole (routed : RoutedWhole frames moves []) :
    forwarded .cons moves = (frames.filter (fun f => routeOf f.first = .cons)).flatMap Frame.beats ∧
    forwarded .dma moves = (frames.filter (fun f => routeOf f.first = .dma)).flatMap Frame.beats := by
  have all : (framed frames).take (received moves).length = framed frames := by
    apply List.take_of_length_le
    have count := congrArg List.length routed.arrived
    rw [← framedBeats] at count
    simp only [List.length_map,List.append_nil] at count
    omega
  rw [← sentWhole,← sentWhole,routed.cons,routed.dma,all]
  exact ⟨rfl,rfl⟩

def consensusHeader : IfBeat := {IfBeat.blank with data := put (0 : BitVec 512) 96 (be16 ssrEthertype)}

def proposalFrame : Frame IfBeat.last where
  body := [consensusHeader]
  final := {IfBeat.blank with last := true}
  runs := by simp [consensusHeader,IfBeat.blank]
  ends := rfl

theorem tailDropped : ∃ moves, Ran (system [proposalFrame]) moves [] ∧
    forwarded .cons moves = [consensusHeader] ∧ forwarded .dma moves = [] ∧
    ¬ RoutedWhole [proposalFrame] moves [] := by
  obtain ⟨moves,ran,sofar⟩ := arrives [proposalFrame] 2
  have headed : routeOf consensusHeader = .cons := by decide +kernel
  have tailed : routeOf proposalFrame.final = .drop := by decide +kernel
  obtain ⟨cons,dma⟩ := forwardedReceived moves
  have both : received moves = [consensusHeader,proposalFrame.final] := sofar
  simp only [both,List.filter_cons,List.filter_nil,headed,tailed] at cons dma
  refine ⟨moves,ran,cons,dma,?_⟩
  intro whole
  have frames := (drainedWhole whole).1
  rw [cons] at frames
  have first : routeOf proposalFrame.first = .cons := headed
  rw [List.filter_cons_of_pos (by simpa using first)] at frames
  have lengths := congrArg List.length frames
  simp [Frame.beats,proposalFrame] at lengths

end Frames

end RxSplitter

end Syncons
