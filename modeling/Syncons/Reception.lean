import Syncons.Deliveries
import Mathlib.Data.List.Perm.Basic

/-! The reception of a round. A node ends a round with the packets it has heard,
whatever their order and however often each of them came, so a run whose deliveries
are shuffled and repeated goes through the states of the run itself. -/
namespace Syncons
open Dict (Map)
open Outcome Runs

section Folds

variable {α β : Type} {f : β → α → β} {xs ys : List α}

structure Absorbs (f : β → α → β) (xs : List α) : Prop where
  comm : ∀ x ∈ xs, ∀ y ∈ xs, ∀ b, f (f b x) y = f (f b y) x
  twice : ∀ x ∈ xs, ∀ b, f (f b x) x = f b x

theorem absorbsMember (h : Absorbs f xs) {x : α} (member : x ∈ xs) (b : β) :
    f (xs.foldl f b) x = xs.foldl f b := by
  obtain ⟨pre,post,split⟩ := List.append_of_mem member
  have moved : xs.Perm (pre ++ post ++ [x]) := by
    rw [split,List.append_assoc]
    exact (List.perm_append_singleton x post).symm.append_left pre
  rw [List.Perm.foldl_eq' moved h.comm b,List.foldl_append,List.foldl_cons,List.foldl_nil,
    h.twice x member]

theorem absorbsAll (h : Absorbs f xs) (inside : ∀ y ∈ ys, y ∈ xs) (b : β) :
    ys.foldl f (xs.foldl f b) = xs.foldl f b := by
  induction ys with
  | nil => rfl
  | cons y rest ih =>
    rw [List.foldl_cons,absorbsMember h (inside y (by simp))]
    exact ih (fun other member => inside other (by simp [member]))

-- A fold that commutes and absorbs repetitions sees its list as a set.
theorem foldMembers (h : Absorbs f xs) (same : ∀ x, x ∈ ys ↔ x ∈ xs) (b : β) :
    ys.foldl f b = xs.foldl f b := by
  have other : Absorbs f ys := by
    refine ⟨?_,?_⟩
    · intro x left y right
      exact h.comm x ((same x).mp left) y ((same y).mp right)
    · intro x member
      exact h.twice x ((same x).mp member)
  have comm : ∀ x ∈ xs ++ ys, ∀ y ∈ xs ++ ys, ∀ b, f (f b x) y = f (f b y) x := by
    have inside : ∀ x ∈ xs ++ ys, x ∈ xs := by
      intro x member
      rcases List.mem_append.mp member with left | right
      · exact left
      · exact (same x).mp right
    intro x left y right
    exact h.comm x (inside x left) y (inside y right)
  calc ys.foldl f b
      = (ys ++ xs).foldl f b := by
        rw [List.foldl_append,absorbsAll other (fun x member => (same x).mpr member)]
    _ = (xs ++ ys).foldl f b := (List.Perm.foldl_eq' List.perm_append_comm comm b).symm
    _ = xs.foldl f b := by
        rw [List.foldl_append,absorbsAll h (fun x member => (same x).mp member)]

end Folds

namespace Node

variable {n : Node} {xs ys : List Packet} {a b : Packet}

def receiveAll (n : Node) (packets : List Packet) : Node := packets.foldl receive n

def Uniform (packets : List Packet) : Prop :=
  ∀ a ∈ packets, ∀ b ∈ packets, a.srcId = b.srcId → a = b

theorem receiveIf (n : Node) (packet : Packet) [Decidable (n.accepts packet)] :
    n.receive packet = if n.accepts packet then n.accepted packet else n := by
  rcases receiveCases n packet with ⟨accepts,same⟩ | ⟨refuses,same⟩
  · rw [same,if_pos accepts]
  · rw [same,if_neg refuses]

theorem acceptedAccepts (n : Node) (a b : Packet) : (n.accepted a).accepts b ↔ n.accepts b := Iff.rfl

theorem acceptedTwice (n : Node) (a : Packet) : (n.accepted a).accepted a = n.accepted a := by
  simp only [accepted,Finmap.insert_insert,Nat.or_assoc,Nat.or_self]

theorem acceptedComm (n : Node) (other : a.srcId ≠ b.srcId) :
    (n.accepted a).accepted b = (n.accepted b).accepted a := by
  simp only [accepted,Finmap.insert_insert_of_ne _ other]
  rw [Nat.or_right_comm]

theorem receiveComm (n : Node) (same : a.srcId = b.srcId → a = b) :
    (n.receive a).receive b = (n.receive b).receive a := by
  classical
  by_cases source : a.srcId = b.srcId
  · rw [same source]
  · simp only [receiveIf]
    by_cases left : n.accepts a
    · by_cases right : n.accepts b
      · simp only [left,right,if_true,acceptedAccepts,acceptedComm n source]
      · simp only [left,right,if_true,if_false,acceptedAccepts]
    · by_cases right : n.accepts b
      · simp only [left,right,if_true,if_false,acceptedAccepts]
      · simp only [left,right,if_false]

theorem receiveTwice (n : Node) (a : Packet) : (n.receive a).receive a = n.receive a := by
  classical
  simp only [receiveIf]
  by_cases accepts : n.accepts a
  · simp only [accepts,if_true,acceptedAccepts,acceptedTwice]
  · simp only [accepts,if_false]

theorem receiveAllSame (uniform : Uniform xs) (same : ∀ packet, packet ∈ ys ↔ packet ∈ xs) :
    n.receiveAll ys = n.receiveAll xs := by
  have absorbs : Absorbs receive xs := by
    refine ⟨?_,?_⟩
    · intro a left b right n
      exact receiveComm n (uniform a left b right)
    · intro a _ n
      exact receiveTwice n a
  exact foldMembers absorbs same n

end Node

namespace ClusterRun

variable {run : ClusterRun} {start pt pt' : Point} {s : Cluster} {phase : Phase}
  {moves moves' : List (Move Point Phase)} {r : Int} {heard : Nat → List Packet}

-- What the network phase of round `r` hands to node `i`, in its order.
def handedTo (run : ClusterRun) (r : Int) (s : Cluster) (i : Nat) : List Packet :=
  ((run.watchNetwork r s).handed.filter (fun item => item.dst = i)).map ScheduledDelivery.packet

/- What the nodes hear instead. A node may hear what it is handed in any order and
repeated, provided that all it is handed from one source is one packet. -/
def Shuffled (run : ClusterRun) (r : Int) (s : Cluster) (heard : Nat → List Packet) : Prop :=
  ∀ i, heard i = run.handedTo r s i ∨
    Node.Uniform (run.handedTo r s i) ∧ ∀ packet, packet ∈ heard i ↔ packet ∈ run.handedTo r s i

def shuffledNetwork (run : ClusterRun) (r : Int) (s : Cluster) (heard : Nat → List Packet) : Cluster :=
  {run.advanceNetwork r s with nodes := fun i => (s.nodes i).receiveAll (heard i)}

def shuffled (run : ClusterRun) (start : Point) : System Point Phase where
  start pt := pt = start
  step pt phase pt' := pt.round < run.rounds ∧ pt.phase = phase ∧
    match phase with
    | .network => ∃ heard, run.Shuffled pt.round pt.cluster heard ∧
        pt' = ⟨pt.round + 1,.control,run.shuffledNetwork pt.round pt.cluster heard⟩
    | _ => run.next pt = .ok pt'

theorem handAllAt (items : List ScheduledDelivery) (nodes : Nat → Node) (i : Nat) :
    handAll items nodes i = (nodes i).receiveAll
      ((items.filter (fun item => item.dst = i)).map ScheduledDelivery.packet) := by
  induction items generalizing nodes with
  | nil => rfl
  | cons item rest ih =>
    have tail := ih (Function.update nodes item.dst ((nodes item.dst).receive item.packet))
    rw [handAll,List.foldl_cons,← handAll,tail]
    by_cases own : item.dst = i
    · subst own
      simp [Node.receiveAll]
    · simp [own,Function.update_of_ne (Ne.symm own)]

theorem advanceNetworkAt (run : ClusterRun) (r : Int) (s : Cluster) (i : Nat) :
    (run.advanceNetwork r s).nodes i = (s.nodes i).receiveAll (run.handedTo r s i) := by
  obtain ⟨_,_,nodes,_⟩ := watchNetworkIs run r s
  rw [watchIs]
  dsimp only
  rw [nodes,handAllAt,handedTo]

theorem shuffledSame (h : run.Shuffled r s heard) : run.shuffledNetwork r s heard = run.advanceNetwork r s := by
  have nodes : (fun i => (s.nodes i).receiveAll (heard i)) = (run.advanceNetwork r s).nodes := by
    funext i
    rw [advanceNetworkAt]
    rcases h i with same | ⟨uniform,members⟩
    · rw [same]
    · exact Node.receiveAllSame uniform members
  rw [shuffledNetwork,nodes]

theorem shuffledNext (step : (run.shuffled start).step pt phase pt') : run.next pt = .ok pt' := by
  obtain ⟨r,at',s⟩ := pt
  obtain ⟨_,same,rest⟩ := step
  cases same
  cases at' with
  | control => exact rest
  | turn i => exact rest
  | network =>
    obtain ⟨heard,shuffle,after⟩ := rest
    rw [after,shuffledSame shuffle]
    rfl

theorem shuffledRuns (ran : Ran (run.shuffled start) moves pt) (other : Ran (run.shuffled start) moves' pt')
    (length : moves.length = moves'.length) : moves = moves' ∧ pt = pt' := by
  induction ran generalizing moves' pt' with
  | start h =>
    cases other with
    | start h' => exact ⟨rfl,h.trans h'.symm⟩
    | move before step => simp at length
  | @move moves pt phase after before step ih =>
    cases other with
    | start h' => simp at length
    | @move moves' pt' phase' after' before' step' =>
      obtain ⟨earlier,here⟩ := ih before' (by simpa using length)
      subst earlier
      subst here
      have same : phase = phase' := step.2.1.symm.trans step'.2.1
      have next := (shuffledNext step).symm.trans (shuffledNext step')
      cases Except.ok.inj next
      rw [same]
      exact ⟨rfl,rfl⟩

theorem plainShuffled (ran : Ran run.system moves pt) :
    Ran (run.shuffled ⟨0,.control,Cluster.init run⟩) moves pt := by
  induction ran with
  | start h => exact .start h
  | @move moves pt phase pt' before step ih =>
    refine .move ih ⟨step.1,step.2.1,?_⟩
    cases stepCases step with
    | control done => exact step.2.2
    | turn done => exact step.2.2
    | @network r s =>
      have plain : run.Shuffled r s (run.handedTo r s) := fun i => Or.inl rfl
      refine ⟨run.handedTo r s,plain,?_⟩
      rw [shuffledSame plain]

/- Reception as a set: at one node, and for every run that goes on from a point in which
a round is received. -/
structure ReceivesAsSet : Prop where
  node : ∀ (n : Node) (xs ys : List Packet), Node.Uniform xs → (∀ packet, packet ∈ ys ↔ packet ∈ xs) →
    n.receiveAll ys = n.receiveAll xs
  runs : ∀ (run : ClusterRun) (start : Point) (moves moves' : List (Move Point Phase)) (pt pt' : Point),
    Ran (run.shuffled start) moves pt → Ran (run.shuffled start) moves' pt' →
    moves.length = moves'.length → moves = moves' ∧ pt = pt'
  plain : ∀ (run : ClusterRun) (moves : List (Move Point Phase)) (pt : Point), Ran run.system moves pt →
    Ran (run.shuffled ⟨0,.control,Cluster.init run⟩) moves pt

theorem receptionAsSet : ReceivesAsSet :=
  ⟨fun _ _ _ uniform same => Node.receiveAllSame uniform same,
    fun _ _ _ _ _ _ ran other length => shuffledRuns ran other length,
    fun _ _ _ ran => plainShuffled ran⟩

def hearing : Node := Node.init ⟨0,3,fun _ _ => "",⟨fun _ => "",fun _ _ => ""⟩⟩
def fromOne : Packet := ⟨0,1,0,7,"a"⟩
def fromTwo : Packet := ⟨0,2,0,7,"b"⟩

theorem receptionAsSetOnce :
    (hearing.receiveAll [fromOne,fromTwo]).currentStage.row = 6 ∧
    hearing.receiveAll [fromTwo,fromOne,fromTwo,fromTwo] = hearing.receiveAll [fromOne,fromTwo] := by
  refine ⟨by decide,receptionAsSet.node hearing [fromOne,fromTwo] [fromTwo,fromOne,fromTwo,fromTwo] ?_ ?_⟩
  · simp [Node.Uniform,fromOne,fromTwo]
  · intro packet
    simp only [List.mem_cons,List.not_mem_nil]
    tauto

end ClusterRun
end Syncons
