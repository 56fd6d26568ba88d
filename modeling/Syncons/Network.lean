import Syncons.Rounds

/-! The network phase: which packets are in flight, and the rule by which a property
of the nodes survives every delivery of packets that satisfy a property of their own. -/
namespace Syncons
open Dict (Map)

namespace ClusterRun

variable {run : ClusterRun} {s : Cluster} {scheduled : Map Int (List ScheduledDelivery)}
  {holds : Nat → Packet → Prop} {inv : (Nat → Node) → Prop} {r : Nat}

def inFlight (holds : Nat → Packet → Prop) (scheduled : Map Int (List ScheduledDelivery)) : Prop :=
  ∀ round, ∀ item ∈ Dict.getD scheduled round [], holds item.dst item.packet

-- The property survives what the fault model may do to a packet.
def copied (run : ClusterRun) (holds : Nat → Packet → Prop) : Prop :=
  ∀ dst packet, holds dst packet →
    holds dst (materializePacket packet (run.networkFaultModel packet dst).toPacketOverrides) ∧
    ∀ extra ∈ (run.networkFaultModel packet dst).extraCopies,
      holds dst (materializePacket packet extra.toPacketOverrides)

-- No override field is set: packets are only dropped, delayed or duplicated.
def Faithful (run : ClusterRun) : Prop :=
  ∀ packet dst, (run.networkFaultModel packet dst).toPacketOverrides = {} ∧
    ∀ extra ∈ (run.networkFaultModel packet dst).extraCopies, extra.toPacketOverrides = {}

theorem copiedFaithful (faithful : Faithful run) (holds : Nat → Packet → Prop) : copied run holds := by
  intro dst packet h
  obtain ⟨main,extras⟩ := faithful packet dst
  refine ⟨by rw [main]; exact h,?_⟩
  intro extra member
  rw [extras extra member]
  exact h

theorem getSchedule (scheduled : Map Int (List ScheduledDelivery)) (round k : Int)
    (item : ScheduledDelivery) :
    Dict.getD (schedulePacketDelivery scheduled round item) k [] =
      if k = round then Dict.getD scheduled round [] ++ [item] else Dict.getD scheduled k [] := by
  unfold schedulePacketDelivery
  rw [Dict.getD,Dict.lookupInsert]
  split
  · rfl
  · rfl

theorem scheduleInFlight {round : Int} {item : ScheduledDelivery} (h : inFlight holds scheduled)
    (new : holds item.dst item.packet) :
    inFlight holds (schedulePacketDelivery scheduled round item) := by
  intro k other member
  rw [getSchedule] at member
  split at member
  · rcases List.mem_append.mp member with old | last
    · exact h round other old
    · rw [List.mem_singleton.mp last]
      exact new
  · exact h k other member

theorem outboundInFlight {outbound : OutboundPacket} (h : inFlight holds scheduled)
    (new : ∀ dst ∈ outbound.destinations, holds dst outbound.packet) :
    inFlight holds (scheduleOutboundPacket scheduled outbound) :=
  List.foldlRecOn outbound.destinations _ h (fun _ kept dst member => scheduleInFlight kept (new dst member))

structure Passing (inv : (Nat → Node) → Prop) (holds : Nat → Packet → Prop) (pass : NetworkPass) : Prop where
  nodes : inv pass.nodes
  scheduled : inFlight holds pass.scheduled
  appended : ∀ item ∈ pass.appended, holds item.dst item.packet

section Delivery

variable {pass : NetworkPass} {item : ScheduledDelivery}

theorem deliverPassing (keep : ∀ nodes dst packet, inv nodes → holds dst packet →
      inv (Function.update nodes dst ((nodes dst).receive packet)))
    (h : Passing inv holds pass) (good : holds item.dst item.packet) :
    Passing inv holds (deliver pass item) :=
  ⟨keep _ _ _ h.nodes good,h.scheduled,h.appended⟩

theorem placePassing (r target : Int) (h : Passing inv holds pass)
    (good : holds item.dst item.packet) : Passing inv holds (place r pass target item) := by
  unfold place
  split
  · exact ⟨h.nodes,scheduleInFlight h.scheduled good,h.appended⟩
  · refine ⟨h.nodes,h.scheduled,?_⟩
    intro other member
    rcases List.mem_append.mp member with old | last
    · exact h.appended other old
    · rw [List.mem_singleton.mp last]
      exact good

theorem consultPassing (copies : copied run holds)
    (keep : ∀ nodes dst packet, inv nodes → holds dst packet →
      inv (Function.update nodes dst ((nodes dst).receive packet)))
    (h : Passing inv holds pass) (good : holds item.dst item.packet) :
    Passing inv holds (consult run r pass item) := by
  unfold consult
  split
  · exact deliverPassing keep h good
  · obtain ⟨main,extras⟩ := copies item.dst item.packet good
    dsimp only
    split
    · exact h
    · rename_i target _
      have placed := placePassing r target h
        (show holds (ScheduledDelivery.mk item.dst _ true).dst _ from main)
      refine List.foldlRecOn _ _ ?_ ?_
      · refine ⟨placed.nodes,?_,placed.appended⟩
        exact List.foldlRecOn _ _ placed.scheduled (fun _ kept _ _ => scheduleInFlight kept main)
      · intro other kept extra member
        exact placePassing r _ kept (extras extra member)

end Delivery

theorem networkInvariant (copies : copied run holds)
    (keep : ∀ nodes dst packet, inv nodes → holds dst packet →
      inv (Function.update nodes dst ((nodes dst).receive packet)))
    (start : inv s.nodes) (flight : inFlight holds s.scheduledDeliveries) :
    inv (run.advanceNetwork r s).nodes ∧
    inFlight holds (run.advanceNetwork r s).scheduledDeliveries := by
  have erased : inFlight holds (s.scheduledDeliveries.erase (r : Int)) := by
    intro k item member
    rw [Dict.getD,Dict.lookupErase] at member
    split at member
    · simp at member
    · exact flight k item member
  have first : Passing inv holds ((Dict.getD s.scheduledDeliveries (r : Int) []).foldl (consult run r)
      ⟨s.nodes,s.scheduledDeliveries.erase (r : Int),[]⟩) :=
    List.foldlRecOn _ _ ⟨start,erased,by simp⟩
      (fun _ kept item member => consultPassing copies keep kept (flight r item member))
  have second := List.foldlRecOn (motive := Passing inv holds) _ deliver first
    (fun _ kept item member => deliverPassing keep kept (first.appended item member))
  exact ⟨second.nodes,second.scheduled⟩

theorem networkUndelivered (run : ClusterRun) (r : Nat) (s : Cluster) (i : Nat) :
    Node.Undelivered (s.nodes i) ((run.advanceNetwork r s).nodes i) := by
  have whole := @networkInvariant run s (fun _ _ => True)
    (fun nodes => Node.Undelivered (s.nodes i) (nodes i)) r
    (fun _ _ _ => ⟨trivial,fun _ _ => trivial⟩) ?_ (Node.undeliveredRefl _) (fun _ _ _ => trivial)
  · exact whole.1
  · intro nodes dst packet before _
    by_cases same : i = dst
    · subst i
      rw [Function.update_self]
      exact Node.undeliveredTrans before (Node.receiveUndelivered _ _)
    · rw [Function.update_of_ne same]
      exact before

end ClusterRun
end Syncons
