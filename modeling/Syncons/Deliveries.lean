import Syncons.Network

/-! What the network hands to the nodes. A pass that records its calls shows which
packets the fault model is asked about and which copies reach `receive`; against it
stand the copies the model asked for, each in its own round. -/
namespace Syncons
open Dict (Map)
open Outcome Runs

namespace ClusterRun

variable {run : ClusterRun} {pt pt' : Point} {s s' : Cluster} {r k : Int} {phase : Phase}
  {moves pre post : List (Move Point Phase)} {m : Move Point Phase} {pass : NetworkPass}
  {scheduled : Map Int (List ScheduledDelivery)} {item : ScheduledDelivery} {call : Packet × Nat}

-- A network pass with the calls it has made, of the fault model and of `receive`.
structure Watched extends NetworkPass where
  consulted : List (Packet × Nat)
  handed : List ScheduledDelivery

def watchDeliver (w : Watched) (item : ScheduledDelivery) : Watched :=
  ⟨deliver w.toNetworkPass item,w.consulted,w.handed ++ [item]⟩

def watchConsult (run : ClusterRun) (roundId : Int) (w : Watched) (item : ScheduledDelivery) : Watched :=
  if item.faultApplied then watchDeliver w item
  else ⟨consult run roundId w.toNetworkPass item,w.consulted ++ [(item.packet,item.dst)],w.handed⟩

def watchNetwork (run : ClusterRun) (roundId : Int) (s : Cluster) : Watched :=
  let w := (Dict.getD s.scheduledDeliveries roundId []).foldl (watchConsult run roundId)
    ⟨⟨s.nodes,s.scheduledDeliveries.erase roundId,[]⟩,[],[]⟩
  w.appended.foldl watchDeliver w

section Watching

theorem watchDelivers (items : List ScheduledDelivery) (w : Watched) :
    (items.foldl watchDeliver w).toNetworkPass = items.foldl deliver w.toNetworkPass := by
  induction items generalizing w with
  | nil => rfl
  | cons item rest ih => exact ih (watchDeliver w item)

theorem watchConsults (items : List ScheduledDelivery) (w : Watched) :
    (items.foldl (watchConsult run r) w).toNetworkPass = items.foldl (consult run r) w.toNetworkPass := by
  induction items generalizing w with
  | nil => rfl
  | cons item rest ih =>
    have one : (watchConsult run r w item).toNetworkPass = consult run r w.toNetworkPass item := by
      unfold watchConsult consult
      split
      · rfl
      · rfl
    rw [List.foldl_cons,List.foldl_cons,ih,one]

-- The recorded pass is the one of the source.
theorem watchIs (run : ClusterRun) (r : Int) (s : Cluster) : run.advanceNetwork r s =
    { s with
      nodes := (run.watchNetwork r s).nodes
      scheduledDeliveries := (run.watchNetwork r s).scheduled } := by
  have same : (run.watchNetwork r s).toNetworkPass =
      ((Dict.getD s.scheduledDeliveries r []).foldl (consult run r)
        ⟨s.nodes,s.scheduledDeliveries.erase r,[]⟩).appended.foldl deliver
        ((Dict.getD s.scheduledDeliveries r []).foldl (consult run r)
          ⟨s.nodes,s.scheduledDeliveries.erase r,[]⟩) := by
    rw [watchNetwork,watchDelivers,watchConsults]
  unfold advanceNetwork
  dsimp only
  rw [← same]

end Watching

section Requests

def copyOf (call : Packet × Nat) (overrides : PacketOverrides) : ScheduledDelivery :=
  ⟨call.2,materializePacket call.1 overrides,true⟩

def primary (run : ClusterRun) (call : Packet × Nat) : List (Int × ScheduledDelivery) :=
  (run.networkFaultModel call.1 call.2).deliverRound.toList.map
    (fun target => (target,copyOf call (run.networkFaultModel call.1 call.2).toPacketOverrides))

def repeats (run : ClusterRun) (call : Packet × Nat) : List (Int × ScheduledDelivery) :=
  (run.networkFaultModel call.1 call.2).extraDeliverRounds.map
    (fun target => (target,copyOf call (run.networkFaultModel call.1 call.2).toPacketOverrides))

def variants (run : ClusterRun) (call : Packet × Nat) : List (Int × ScheduledDelivery) :=
  (run.networkFaultModel call.1 call.2).extraCopies.map
    (fun extra => (extra.deliverRound,copyOf call extra.toPacketOverrides))

def requested (run : ClusterRun) (call : Packet × Nat) : List (Int × ScheduledDelivery) :=
  run.primary call ++ run.repeats call ++ run.variants call

def dueFrom (run : ClusterRun) (r k : Int) (call : Packet × Nat) : List ScheduledDelivery :=
  ((run.requested call).filter (fun copy => max copy.1 r = k)).map Prod.snd

def dropped (run : ClusterRun) (call : Packet × Nat) : Prop :=
  (run.networkFaultModel call.1 call.2).deliverRound = none
instance (run : ClusterRun) (call : Packet × Nat) : Decidable (run.dropped call) := by
  unfold dropped; infer_instance

-- What one consultation books for later rounds, and what it hands over at once.
def booked (run : ClusterRun) (r : Int) (call : Packet × Nat) : List (Int × ScheduledDelivery) :=
  if run.dropped call then []
  else (run.primary call).filter (fun copy => r < copy.1) ++ run.repeats call ++
    (run.variants call).filter (fun copy => r < copy.1)

def present (run : ClusterRun) (r : Int) (call : Packet × Nat) : List ScheduledDelivery :=
  if run.dropped call then []
  else ((run.primary call ++ run.variants call).filter (fun copy => copy.1 ≤ r)).map Prod.snd

def bookAll (entries : List (Int × ScheduledDelivery)) (scheduled : Map Int (List ScheduledDelivery)) :
    Map Int (List ScheduledDelivery) :=
  entries.foldl (fun scheduled entry => schedulePacketDelivery scheduled entry.1 entry.2) scheduled

theorem bookAppend (a b : List (Int × ScheduledDelivery)) (scheduled : Map Int (List ScheduledDelivery)) :
    bookAll (a ++ b) scheduled = bookAll b (bookAll a scheduled) := List.foldl_append

theorem bookedAt (entries : List (Int × ScheduledDelivery)) (scheduled : Map Int (List ScheduledDelivery))
    (k : Int) : Dict.getD (bookAll entries scheduled) k [] =
      Dict.getD scheduled k [] ++ (entries.filter (fun entry => entry.1 = k)).map Prod.snd := by
  induction entries generalizing scheduled with
  | nil => simp [bookAll]
  | cons entry rest ih =>
    have one := ih (schedulePacketDelivery scheduled entry.1 entry.2)
    rw [bookAll,List.foldl_cons,← bookAll,one,getSchedule]
    by_cases here : k = entry.1
    · simp [here]
    · simp [here,Ne.symm here]

theorem bookedNone (entries : List (Int × ScheduledDelivery)) (scheduled : Map Int (List ScheduledDelivery))
    (k : Int) : (bookAll entries scheduled).lookup k = none ↔
      scheduled.lookup k = none ∧ ∀ entry ∈ entries, entry.1 ≠ k := by
  induction entries generalizing scheduled with
  | nil => simp [bookAll]
  | cons entry rest ih =>
    rw [bookAll,List.foldl_cons,← bookAll,ih,schedulePacketDelivery,Dict.lookupInsert]
    by_cases here : k = entry.1
    · simp [here]
    · simp [here,Ne.symm here]

theorem placeAll (copies : List (Int × ScheduledDelivery)) (pass : NetworkPass) :
    copies.foldl (fun pass copy => place r pass copy.1 copy.2) pass =
      { pass with
        scheduled := bookAll (copies.filter (fun copy => r < copy.1)) pass.scheduled
        appended := pass.appended ++ (copies.filter (fun copy => copy.1 ≤ r)).map Prod.snd } := by
  induction copies generalizing pass with
  | nil => simp [bookAll]
  | cons copy rest ih =>
    rw [List.foldl_cons,ih]
    by_cases late : r < copy.1
    · have early : ¬ copy.1 ≤ r := by omega
      simp [place,late,early,bookAll]
    · have early : copy.1 ≤ r := by omega
      simp [place,late,early]

theorem consultIs (asked : item.faultApplied = false) : consult run r pass item =
    { pass with
      scheduled := bookAll (run.booked r (item.packet,item.dst)) pass.scheduled
      appended := pass.appended ++ run.present r (item.packet,item.dst) } := by
  have last (pass : NetworkPass) := @placeAll r (run.variants (item.packet,item.dst)) pass
  simp only [variants,List.foldl_map,copyOf] at last
  simp only [consult,asked,Bool.false_eq_true,if_false]
  split
  · rename_i answer
    have none' : run.dropped (item.packet,item.dst) := answer
    simp [booked,present,none',bookAll]
  · rename_i target answer
    have some' : ¬ run.dropped (item.packet,item.dst) := by simp [dropped,answer]
    have first := @placeAll r (run.primary (item.packet,item.dst)) pass
    simp only [primary,answer,Option.toList_some,List.map_cons,List.map_nil,List.foldl_cons,
      List.foldl_nil,copyOf] at first
    rw [last,first,booked,present,if_neg some',if_neg some']
    simp only [primary,repeats,variants,answer,Option.toList_some,List.map_cons,List.map_nil,copyOf,
      bookAppend,List.filter_append,List.map_append,List.append_assoc]
    simp only [bookAll,List.foldl_map]

end Requests

section Phase

def handAll (items : List ScheduledDelivery) (nodes : Nat → Node) : Nat → Node :=
  items.foldl (fun nodes item => Function.update nodes item.dst ((nodes item.dst).receive item.packet)) nodes

def unasked (items : List ScheduledDelivery) : List (Packet × Nat) :=
  (items.filter (fun item => !item.faultApplied)).map (fun item => (item.packet,item.dst))

theorem watchAppended (items : List ScheduledDelivery) (w : Watched) :
    items.foldl watchDeliver w =
      ⟨⟨handAll items w.nodes,w.scheduled,w.appended⟩,w.consulted,w.handed ++ items⟩ := by
  induction items generalizing w with
  | nil => simp [handAll]
  | cons item rest ih =>
    rw [List.foldl_cons,ih]
    simp [watchDeliver,deliver,handAll]

theorem watchPopped (items : List ScheduledDelivery) (w : Watched) :
    items.foldl (watchConsult run r) w =
      ⟨⟨handAll (items.filter ScheduledDelivery.faultApplied) w.nodes,
          bookAll ((unasked items).flatMap (run.booked r)) w.scheduled,
          w.appended ++ (unasked items).flatMap (run.present r)⟩,
        w.consulted ++ unasked items,w.handed ++ items.filter ScheduledDelivery.faultApplied⟩ := by
  induction items generalizing w with
  | nil => simp [handAll,bookAll,unasked]
  | cons item rest ih =>
    rw [List.foldl_cons,ih]
    cases asked : item.faultApplied with
    | true => simp [watchConsult,watchDeliver,deliver,handAll,unasked,asked]
    | false => simp [watchConsult,consultIs asked,unasked,asked,bookAppend]

theorem watchNetworkIs (run : ClusterRun) (r : Int) (s : Cluster) :
    (run.watchNetwork r s).consulted = unasked (Dict.getD s.scheduledDeliveries r []) ∧
    (run.watchNetwork r s).handed =
      (Dict.getD s.scheduledDeliveries r []).filter ScheduledDelivery.faultApplied ++
        (unasked (Dict.getD s.scheduledDeliveries r [])).flatMap (run.present r) ∧
    (run.watchNetwork r s).nodes = handAll (run.watchNetwork r s).handed s.nodes ∧
    (run.watchNetwork r s).scheduled =
      bookAll ((unasked (Dict.getD s.scheduledDeliveries r [])).flatMap (run.booked r))
        (s.scheduledDeliveries.erase r) := by
  unfold watchNetwork
  dsimp only
  rw [watchPopped,watchAppended]
  simp [handAll]

end Phase

end ClusterRun
end Syncons
