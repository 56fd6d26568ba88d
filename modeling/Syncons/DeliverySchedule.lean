import Syncons.Deliveries

/-! The schedule of a run. In every round the network consults the fault model about
what was sent in that round, once for each packet and destination, and hands over the
copies asked for in this round and before, unless an answer names a past round among
its repeats or asks for copies of a packet that it drops. -/
namespace Syncons
open Dict (Map)
open Outcome Runs

namespace ClusterRun

variable {run : ClusterRun} {pt pt' : Point} {s s' : Cluster} {r k : Int} {phase : Phase}
  {moves pre post : List (Move Point Phase)} {m : Move Point Phase} {call : Packet × Nat}

def consultedIn (run : ClusterRun) (m : Move Point Phase) : List (Packet × Nat) :=
  if m.op = .network then (run.watchNetwork m.before.round m.before.cluster).consulted else []

def handedIn (run : ClusterRun) (m : Move Point Phase) : List ScheduledDelivery :=
  if m.op = .network then (run.watchNetwork m.before.round m.before.cluster).handed else []

def addressed (sent : OutboundPacket) : List (Packet × Nat) :=
  sent.destinations.map (fun dst => (sent.packet,dst))

def sentIn (run : ClusterRun) (m : Move Point Phase) : List (Packet × Nat) :=
  match m.op with
  | .turn i =>
    ((run.advanced m.before.round i (m.before.cluster.nodes i)).2.outbound.map addressed).getD []
  | _ => []

def sentDuring (run : ClusterRun) (moves : List (Move Point Phase)) (r : Nat) : List (Packet × Nat) :=
  moves.flatMap (fun m => if m.before.round = r then sentIn run m else [])

def dueIn (run : ClusterRun) (m : Move Point Phase) (k : Int) : List ScheduledDelivery :=
  (consultedIn run m).flatMap (run.dueFrom m.before.round k)

structure DeliversAsAsked (run : ClusterRun) (rounds : Nat) (moves : List (Move Point Phase)) : Prop where
  rounds : ∀ r < rounds, ∃ m ∈ moves, m.op = .network ∧ m.before.round = r
  consulted : ∀ pre m post, moves = pre ++ m :: post → m.op = .network →
    consultedIn run m = sentDuring run pre m.before.round
  once : (moves.flatMap (consultedIn run)).Nodup
  handed : ∀ pre m post, moves = pre ++ m :: post → m.op = .network →
    (handedIn run m).Perm ((pre ++ [m]).flatMap (fun x => dueIn run x m.before.round))
  drained : ∀ m ∈ moves, m.op = .network → ∀ k : Int, k ≤ m.before.round →
    m.after.cluster.scheduledDeliveries.lookup k = none

/- Repeats lie in later rounds, and a dropped packet has no copy for any of the `rounds`
first rounds. -/
structure Timely (run : ClusterRun) (rounds : Nat) (r : Int) (call : Packet × Nat) : Prop where
  delivered : ¬ run.dropped call →
    ∀ target ∈ (run.networkFaultModel call.1 call.2).extraDeliverRounds, r < target
  dropped : run.dropped call → ∀ copy ∈ run.requested call, rounds ≤ max copy.1 r

def grantedFrom (run : ClusterRun) (r k : Int) (call : Packet × Nat) : List ScheduledDelivery :=
  if k = r then run.present r call
  else ((run.booked r call).filter (fun copy => copy.1 = k)).map Prod.snd

def grantedIn (run : ClusterRun) (m : Move Point Phase) (k : Int) : List ScheduledDelivery :=
  (consultedIn run m).flatMap (run.grantedFrom m.before.round k)

section Grants

theorem grantedDropped (none : run.dropped call) : run.grantedFrom r k call = [] := by
  simp [grantedFrom,present,booked,none]

theorem grantedParts (kept : ¬ run.dropped call) (ahead : r ≤ k) :
    run.grantedFrom r k call =
      ((run.primary call).filter (fun copy => max copy.1 r = k)).map Prod.snd ++
      ((run.repeats call).filter (fun copy => copy.1 = k ∧ r < k)).map Prod.snd ++
      ((run.variants call).filter (fun copy => max copy.1 r = k)).map Prod.snd := by
  unfold grantedFrom
  by_cases now : k = r
  · subst now
    have same (x : Int) : max x k = k ↔ x ≤ k := by omega
    simp [present,kept,same]
  · have later : r < k := by omega
    have same (x : Int) : (decide (x = k) && decide (r < x)) = decide (max x r = k) := by
      rw [← Bool.decide_and,decide_eq_decide]
      omega
    simp [booked,kept,now,later,List.filter_filter,same]

theorem grantedLength (ahead : r ≤ k) :
    (run.grantedFrom r k call).length ≤ (run.dueFrom r k call).length := by
  by_cases kept : run.dropped call
  · simp [grantedDropped kept]
  · have fewer : ((run.repeats call).filter (fun copy => copy.1 = k ∧ r < k)).length ≤
        ((run.repeats call).filter (fun copy => max copy.1 r = k)).length := by
      rw [← List.countP_eq_length_filter,← List.countP_eq_length_filter]
      apply List.countP_mono_left
      intro copy _ both
      simp only [decide_eq_true_eq] at both ⊢
      omega
    rw [grantedParts kept ahead,dueFrom,requested]
    simp only [List.filter_append,List.map_append,List.length_append,List.length_map]
    omega

theorem grantedDue {rounds : Nat} (timely : run.Timely rounds r call) (ahead : r ≤ k)
    (reached : k < rounds) : run.grantedFrom r k call = run.dueFrom r k call := by
  by_cases kept : run.dropped call
  · have nothing : (run.requested call).filter (fun copy => max copy.1 r = k) = [] := by
      rw [List.filter_eq_nil_iff]
      intro copy member
      have late := timely.dropped kept copy member
      simp only [decide_eq_true_eq]
      omega
    rw [grantedDropped kept,dueFrom,nothing]
    rfl
  · have same : (run.repeats call).filter (fun copy => copy.1 = k ∧ r < k) =
        (run.repeats call).filter (fun copy => max copy.1 r = k) := by
      apply List.filter_congr
      intro copy member
      obtain ⟨target,named,rfl⟩ := List.mem_map.mp member
      have late := timely.delivered kept target named
      simp only [decide_eq_decide]
      omega
    rw [grantedParts kept ahead,dueFrom,requested,same]
    simp only [List.filter_append,List.map_append]

theorem bookedLate {rounds : Nat} (timely : run.Timely rounds r call) :
    ∀ copy ∈ run.booked r call, r < copy.1 := by
  intro copy member
  unfold booked at member
  split at member
  · cases member
  · rename_i kept
    rcases List.mem_append.mp member with front | variant
    · rcases List.mem_append.mp front with first | again
      · simpa using (List.mem_filter.mp first).2
      · obtain ⟨target,named,rfl⟩ := List.mem_map.mp again
        exact timely.delivered kept target named
    · simpa using (List.mem_filter.mp variant).2

theorem bookedApplied : ∀ copy ∈ run.booked r call, copy.2.faultApplied = true := by
  intro copy member
  unfold booked at member
  split at member
  · cases member
  · simp only [List.mem_append,List.mem_filter,primary,repeats,variants,List.mem_map] at member
    rcases member with (⟨⟨_,_,rfl⟩,_⟩ | ⟨_,_,rfl⟩) | ⟨⟨_,_,rfl⟩,_⟩ <;> rfl

end Grants

section Queue

def asking (call : Packet × Nat) : ScheduledDelivery := ⟨call.2,call.1,false⟩

theorem unaskedSplit {applied : List ScheduledDelivery} (calls : List (Packet × Nat))
    (all : ∀ item ∈ applied, item.faultApplied = true) :
    (applied ++ calls.map asking).filter ScheduledDelivery.faultApplied = applied ∧
      unasked (applied ++ calls.map asking) = calls := by
  have none (call : Packet × Nat) : (asking call).faultApplied = false := rfl
  have kept : applied.filter ScheduledDelivery.faultApplied = applied :=
    List.filter_eq_self.mpr all
  have out : applied.filter (fun item => !item.faultApplied) = [] := by
    rw [List.filter_eq_nil_iff]
    intro item member
    simp [all item member]
  refine ⟨?_,?_⟩
  · simp [kept,List.filter_map,Function.comp_def,none]
  · simp [unasked,out,List.filter_map,Function.comp_def,none]
    simp [asking]

structure Queued (run : ClusterRun) (moves : List (Move Point Phase)) (pt : Point) : Prop where
  behind : ∀ m ∈ moves, m.before.round ≤ pt.round ∧
    (m.op = .network ∨ pt.phase = .control → m.before.round < pt.round)
  rounds : ∀ r < pt.round, ∃ m ∈ moves, m.op = .network ∧ m.before.round = r
  queue : ∀ k : Int, pt.round ≤ k → Dict.getD pt.cluster.scheduledDeliveries k [] =
    moves.flatMap (fun m => grantedIn run m k) ++
      if k = pt.round then (sentDuring run moves pt.round).map asking else []

theorem outboundBooked (scheduled : Map Int (List ScheduledDelivery)) (sent : OutboundPacket) :
    scheduleOutboundPacket scheduled sent =
      bookAll ((addressed sent).map (fun call => (sent.packet.roundId,asking call))) scheduled := by
  simp only [scheduleOutboundPacket,bookAll,addressed,List.map_map,List.foldl_map,Function.comp_def,
    asking]

theorem grantedApplied {moves : List (Move Point Phase)}
    (behind : ∀ m ∈ moves, m.op = .network → m.before.round < k) :
    ∀ item ∈ moves.flatMap (fun m => grantedIn run m k), item.faultApplied = true := by
  intro item member
  obtain ⟨m,inside,granted⟩ := List.mem_flatMap.mp member
  obtain ⟨call,asked,copy⟩ := List.mem_flatMap.mp granted
  have network : m.op = .network := by
    by_contra other
    simp [consultedIn,other] at asked
  have early := behind m inside network
  rw [grantedFrom,if_neg (by omega)] at copy
  obtain ⟨entry,kept,rfl⟩ := List.mem_map.mp copy
  exact bookedApplied entry (List.mem_filter.mp kept).1

theorem sentLater {moves : List (Move Point Phase)} {r : Nat}
    (behind : ∀ m ∈ moves, m.before.round < r) : sentDuring run moves r = [] := by
  rw [sentDuring,List.flatMap_eq_nil_iff]
  intro m member
  have early := behind m member
  rw [if_neg (by omega)]

theorem bookedTogether (calls : List (Packet × Nat)) (r k : Int) :
    ((calls.map (fun call => (r,asking call))).filter (fun entry => entry.1 = k)).map Prod.snd =
      if k = r then calls.map asking else [] := by
  by_cases now : k = r
  · simp [now,List.filter_map,Function.comp_def]
  · simp [now,Ne.symm now,List.filter_map,Function.comp_def]

theorem queuedNetwork (h : Queued run moves pt) :
    (run.watchNetwork pt.round pt.cluster).consulted = sentDuring run moves pt.round ∧
    (run.watchNetwork pt.round pt.cluster).handed =
      moves.flatMap (fun m => grantedIn run m pt.round) ++
        (sentDuring run moves pt.round).flatMap (run.present pt.round) := by
  obtain ⟨consulted,handed,_,_⟩ := watchNetworkIs run pt.round pt.cluster
  have queue := h.queue pt.round le_rfl
  rw [if_pos rfl] at queue
  have applied := @grantedApplied run pt.round moves
    (fun m member network => by exact_mod_cast (h.behind m member).2 (Or.inl network))
  obtain ⟨kept,asked⟩ := unaskedSplit (sentDuring run moves pt.round) applied
  rw [consulted,handed,queue,kept,asked]
  exact ⟨rfl,rfl⟩

theorem networkQueue {r : Nat} (later : (r : Int) < k) :
    Dict.getD (run.advanceNetwork r s).scheduledDeliveries k [] =
      Dict.getD s.scheduledDeliveries k [] ++
        grantedIn run ⟨⟨r,.network,s⟩,.network,⟨r + 1,.control,run.advanceNetwork r s⟩⟩ k := by
  obtain ⟨consulted,_,_,booked⟩ := watchNetworkIs run r s
  have gone : Dict.getD (s.scheduledDeliveries.erase (r : Int)) k [] =
      Dict.getD s.scheduledDeliveries k [] := by
    rw [Dict.getD,Dict.lookupErase,if_neg (by omega)]
    rfl
  have other : ¬ k = r := by omega
  rw [watchIs]
  dsimp only
  have granted : run.grantedFrom r k =
      fun call => ((run.booked r call).filter (fun copy => copy.1 = k)).map Prod.snd := by
    funext call
    rw [grantedFrom,if_neg other]
  rw [booked,bookedAt,gone]
  simp only [grantedIn,consultedIn,if_true,consulted,List.filter_flatMap,List.map_flatMap,granted]

theorem sentSnoc (run : ClusterRun) (moves : List (Move Point Phase)) (m : Move Point Phase) (r : Nat) :
    sentDuring run (moves ++ [m]) r =
      sentDuring run moves r ++ if m.before.round = r then sentIn run m else [] := by
  simp [sentDuring]

theorem controlKeepsSchedule (done : run.controlPhase r s = .ok s') :
    s'.scheduledDeliveries = s.scheduledDeliveries := by
  obtain ⟨_,_,rest⟩ := bindOk.mp done
  obtain ⟨cp,_,rest⟩ := bindOk.mp rest
  obtain ⟨state,_,last⟩ := bindOk.mp rest
  cases last
  exact (pushAll state _ run.nodeCount).2.2.2

theorem stepQueued (step : run.system.step pt phase pt') (h : Queued run moves pt) :
    Queued run (moves ++ [⟨pt,phase,pt'⟩]) pt' := by
  cases stepCases step with
  | @control r s s' done =>
    have same := controlKeepsSchedule done
    have open' := @turnFromOpen run 0
    refine ⟨?_,?_,?_⟩
    · intro m member
      rcases List.mem_append.mp member with old | new
      · have early := (h.behind m old).2 (Or.inr rfl)
        exact ⟨Nat.le_of_lt early,fun _ => early⟩
      · rw [List.mem_singleton.mp new]
        exact ⟨le_rfl,fun bad => by rcases bad with bad | bad <;> simp [open'] at bad⟩
    · intro r' early
      obtain ⟨m,member,rest⟩ := h.rounds r' early
      exact ⟨m,List.mem_append_left _ member,rest⟩
    · intro k ahead
      have queue := h.queue k ahead
      simp only [same]
      rw [queue,sentSnoc]
      simp [grantedIn,consultedIn,sentIn]
  | @turn r i s s' done =>
    have turned := turnFacts done
    have open' := @turnFromOpen run (i + 1)
    refine ⟨?_,?_,?_⟩
    · intro m member
      rcases List.mem_append.mp member with old | new
      · obtain ⟨upTo,early⟩ := h.behind m old
        exact ⟨upTo,fun bad => early (bad.imp id (fun closed => absurd closed open'))⟩
      · rw [List.mem_singleton.mp new]
        exact ⟨le_rfl,fun bad => by rcases bad with bad | bad <;> simp [open'] at bad⟩
    · intro r' early
      obtain ⟨m,member,rest⟩ := h.rounds r' early
      exact ⟨m,List.mem_append_left _ member,rest⟩
    · intro k ahead
      have queue := h.queue k ahead
      simp only [turned.deliveries]
      rw [sentSnoc]
      cases sent : (run.advanced r i (s.nodes i)).2.outbound with
      | none =>
        simp only [outboundScheduled]
        rw [queue]
        simp [grantedIn,consultedIn,sentIn,sent]
      | some outbound =>
        obtain ⟨c,same⟩ := advancedBroadcast sent
        have round : outbound.packet.roundId = r := by
          rw [same]
          rfl
        simp only [outboundScheduled]
        rw [outboundBooked,bookedAt,queue,round,bookedTogether]
        by_cases now : k = r
        · simp [grantedIn,consultedIn,sentIn,sent,now]
        · simp [grantedIn,consultedIn,now]
  | @network r s =>
    refine ⟨?_,?_,?_⟩
    · intro m member
      rcases List.mem_append.mp member with old | new
      · have upTo := (h.behind m old).1
        exact ⟨Nat.le_succ_of_le upTo,fun _ => Nat.lt_succ_of_le upTo⟩
      · rw [List.mem_singleton.mp new]
        exact ⟨Nat.le_succ r,fun _ => Nat.lt_succ_self r⟩
    · intro r' early
      rcases Nat.lt_succ_iff_lt_or_eq.mp early with before | now
      · obtain ⟨m,member,rest⟩ := h.rounds r' before
        exact ⟨m,List.mem_append_left _ member,rest⟩
      · exact ⟨_,List.mem_append_right _ (List.mem_singleton.mpr rfl),rfl,now.symm⟩
    · intro k ahead
      have later : (r : Int) < k := by
        have : ((r + 1 : Nat) : Int) ≤ k := ahead
        omega
      have queue := h.queue k (le_of_lt later)
      have sent : sentDuring run
          (moves ++ [⟨⟨r,.network,s⟩,.network,⟨r + 1,.control,run.advanceNetwork r s⟩⟩]) (r + 1) = [] := by
        apply sentLater
        intro m member
        rcases List.mem_append.mp member with old | new
        · exact Nat.lt_succ_of_le (h.behind m old).1
        · rw [List.mem_singleton.mp new]
          exact Nat.lt_succ_self r
      dsimp only at queue ⊢
      rw [if_neg (show ¬ k = (r : Int) by omega),List.append_nil] at queue
      rw [sent,networkQueue later,queue]
      simp

theorem initialQueued (run : ClusterRun) : Queued run [] ⟨0,.control,Cluster.init run⟩ := by
  refine ⟨by simp,by simp,?_⟩
  intro k _
  simp [Cluster.init,Dict.getD,sentDuring]

theorem ranQueued (ran : Ran run.system moves pt) : Queued run moves pt := by
  induction ran with
  | start h =>
    cases h
    exact initialQueued run
  | move upTo h ih => exact stepQueued h ih

end Queue

section Contract

variable {rounds : Nat}

theorem consultedAt (ran : Ran run.system (pre ++ m :: post) pt) (network : m.op = .network) :
    consultedIn run m = sentDuring run pre m.before.round ∧
      handedIn run m = (pre ++ [m]).flatMap (fun x => grantedIn run x m.before.round) := by
  obtain ⟨upTo,_,_⟩ := ranAt ran
  obtain ⟨consulted,handed⟩ := queuedNetwork (ranQueued upTo)
  have whole : run.grantedFrom m.before.round m.before.round = run.present m.before.round := by
    funext call
    rw [grantedFrom,if_pos rfl]
  have asked : consultedIn run m = sentDuring run pre m.before.round := by
    rw [consultedIn,if_pos network,consulted]
  refine ⟨asked,?_⟩
  rw [handedIn,if_pos network,handed,List.flatMap_append,List.flatMap_singleton]
  rw [show grantedIn run m m.before.round = (consultedIn run m).flatMap (run.present m.before.round) by
    rw [grantedIn,whole],asked]

theorem networkBehind (ran : Ran run.system (pre ++ m :: post) pt) :
    ∀ x ∈ pre ++ [m], x.before.round ≤ m.before.round := by
  intro x member
  rcases List.mem_append.mp member with old | new
  · exact ((ranQueued (ranAt ran).1).behind x old).1
  · rw [List.mem_singleton.mp new]

theorem networkBefore (ran : Ran run.system (pre ++ m :: post) pt) {x : Move Point Phase}
    (network : m.op = .network) (other : x ∈ post) : m.before.round < x.before.round := by
  obtain ⟨a,b,rfl⟩ := List.append_of_mem other
  have whole : Ran run.system ((pre ++ m :: a) ++ x :: b) pt := by simpa using ran
  exact ((ranQueued (ranAt whole).1).behind m (by simp)).2 (Or.inl network)

section Once

theorem sentRound (sent : call ∈ sentIn run m) :
    call.1.roundId = m.before.round ∧ m.op = .turn call.1.srcId := by
  cases op : m.op with
  | control => simp [sentIn,op] at sent
  | network => simp [sentIn,op] at sent
  | turn i =>
    cases out : (run.advanced m.before.round i (m.before.cluster.nodes i)).2.outbound with
    | none => simp [sentIn,op,out] at sent
    | some outbound =>
      obtain ⟨c,same⟩ := advancedBroadcast out
      simp only [sentIn,op,out,Option.map_some,Option.getD_some,addressed,same,List.mem_map] at sent
      obtain ⟨dst,_,rfl⟩ := sent
      exact ⟨rfl,rfl⟩

theorem sentNodup (m : Move Point Phase) : (sentIn run m).Nodup := by
  cases op : m.op with
  | control => simp [sentIn,op]
  | network => simp [sentIn,op]
  | turn i =>
    cases out : (run.advanced m.before.round i (m.before.cluster.nodes i)).2.outbound with
    | none => simp [sentIn,op,out]
    | some outbound =>
      obtain ⟨c,same⟩ := advancedBroadcast out
      simp only [sentIn,op,out,Option.map_some,Option.getD_some,addressed,same]
      refine List.Nodup.map ?_ ((List.nodup_range.filter _).filter _)
      intro a b equal
      exact (Prod.mk.inj equal).2

structure Turning (run : ClusterRun) (moves : List (Move Point Phase)) (pt : Point) : Prop where
  taken : ∀ m ∈ moves, ∀ i, m.op = .turn i → m.before.round = pt.round →
    pt.phase ≠ .control ∧ ∀ k, pt.phase = .turn k → i < k
  distinct : (sentDuring run moves pt.round).Nodup
  once : (moves.flatMap (consultedIn run)).Nodup
  earlier : ∀ call ∈ moves.flatMap (consultedIn run), call.1.roundId < pt.round

theorem turnFromIs {i k : Nat} (next : run.turnFrom i = .turn k) : k = i := by
  unfold turnFrom at next
  split at next
  · cases next
    rfl
  · cases next

theorem stepTurning (ran : Ran run.system moves pt) (step : run.system.step pt phase pt')
    (h : Turning run moves pt) : Turning run (moves ++ [⟨pt,phase,pt'⟩]) pt' := by
  have queued := ranQueued ran
  cases stepCases step with
  | @control r s s' done =>
    have open' := @turnFromOpen run 0
    have quiet : ∀ m ∈ moves, m.before.round < r := fun m member => (queued.behind m member).2 (Or.inr rfl)
    refine ⟨?_,?_,?_,?_⟩
    · intro m member i op now
      rcases List.mem_append.mp member with old | new
      · have early := quiet m old
        exact absurd now (by dsimp only; omega)
      · rw [List.mem_singleton.mp new] at op
        cases op
    · rw [sentSnoc]
      simpa [sentIn] using h.distinct
    · simpa [consultedIn] using h.once
    · simpa [consultedIn] using h.earlier
  | @turn r i s s' done =>
    have open' := @turnFromOpen run (i + 1)
    refine ⟨?_,?_,?_,?_⟩
    · intro m member j op now
      refine ⟨open',?_⟩
      intro k next
      have last := turnFromIs next
      rcases List.mem_append.mp member with old | new
      · have below := (h.taken m old j op now).2 i rfl
        omega
      · rw [List.mem_singleton.mp new] at op
        cases op
        omega
    · rw [sentSnoc,if_pos rfl,List.nodup_append]
      refine ⟨h.distinct,sentNodup _,?_⟩
      intro call before other now same
      subst other
      obtain ⟨m,member,sent⟩ := List.mem_flatMap.mp before
      split at sent
      · rename_i round
        have op := (sentRound sent).2
        have own : i = call.1.srcId := by
          have here := (sentRound now).2
          exact Phase.turn.inj here
        have below := (h.taken m member _ op round).2 i rfl
        omega
      · cases sent
    · simpa [consultedIn] using h.once
    · simpa [consultedIn] using h.earlier
  | @network r s =>
    have sent : sentDuring run
        (moves ++ [⟨⟨r,.network,s⟩,.network,⟨r + 1,.control,run.advanceNetwork r s⟩⟩]) (r + 1) = [] := by
      apply sentLater
      intro m member
      exact Nat.lt_succ_of_le (networkBehind (.move ran step) m member)
    have asked : consultedIn run ⟨⟨r,.network,s⟩,.network,⟨r + 1,.control,run.advanceNetwork r s⟩⟩ =
        sentDuring run moves r := (consultedAt (.move ran step) rfl).1
    have now : ∀ call ∈ sentDuring run moves r, call.1.roundId = r := by
      intro call member
      obtain ⟨m,inside,sent⟩ := List.mem_flatMap.mp member
      split at sent
      · rename_i round
        rw [← round]
        exact (sentRound sent).1
      · cases sent
    refine ⟨?_,?_,?_,?_⟩
    · intro m member i op round
      have early := networkBehind (.move ran step) m member
      exact absurd round (by dsimp only at early ⊢; omega)
    · rw [sent]
      exact List.nodup_nil
    · rw [List.flatMap_append,List.flatMap_singleton,asked,List.nodup_append]
      refine ⟨h.once,h.distinct,?_⟩
      intro call before other after same
      subst other
      have early := h.earlier call before
      have here := now call after
      dsimp only at early
      omega
    · intro call member
      rw [List.flatMap_append,List.flatMap_singleton,asked] at member
      rcases List.mem_append.mp member with old | new
      · have early := h.earlier call old
        dsimp only at early ⊢
        omega
      · have here := now call new
        dsimp only
        omega

theorem ranTurning (ran : Ran run.system moves pt) : Turning run moves pt := by
  induction ran with
  | start h =>
    cases h
    exact ⟨by simp,by simp [sentDuring],by simp,by simp⟩
  | move upTo h ih => exact stepTurning upTo h ih

end Once

theorem networkLookup (step : run.system.step m.before m.op m.after) (network : m.op = .network) (k : Int) :
    m.after.cluster.scheduledDeliveries.lookup k = none ↔
      (k = m.before.round ∨ m.before.cluster.scheduledDeliveries.lookup k = none) ∧
      ∀ call ∈ consultedIn run m, ∀ entry ∈ run.booked m.before.round call, entry.1 ≠ k := by
  obtain ⟨before,op,after⟩ := m
  cases network
  cases stepCases step with
  | @network r s =>
    obtain ⟨consulted,_,_,booked⟩ := watchNetworkIs run r s
    rw [watchIs]
    dsimp only
    rw [booked,bookedNone,Dict.lookupErase]
    have swap : (∀ entry ∈ (unasked (Dict.getD s.scheduledDeliveries (r : Int) [])).flatMap (run.booked r),
          entry.1 ≠ k) ↔
        ∀ call ∈ unasked (Dict.getD s.scheduledDeliveries (r : Int) []), ∀ entry ∈ run.booked r call,
          entry.1 ≠ k := by
      constructor
      · intro all call asked entry copy
        exact all entry (List.mem_flatMap.mpr ⟨call,asked,copy⟩)
      · intro all entry member
        obtain ⟨call,asked,copy⟩ := List.mem_flatMap.mp member
        exact all call asked entry copy
    rw [swap,consultedIn,if_pos rfl]
    dsimp only
    rw [consulted]
    by_cases now : k = r
    · simp [now]
    · simp [now]

theorem drainedQueues (ran : Ran run.system moves pt)
    (timely : ∀ m ∈ moves, ∀ call ∈ consultedIn run m, run.Timely rounds m.before.round call) :
    ∀ k : Int, k < pt.round → pt.cluster.scheduledDeliveries.lookup k = none := by
  induction ran with
  | start h =>
    cases h
    simp [Cluster.init]
  | @move moves pt phase pt' upTo step ih =>
    have before := ih (fun m member => timely m (List.mem_append_left _ member))
    cases stepCases step with
    | @control r s s' done =>
      have same : s'.scheduledDeliveries = s.scheduledDeliveries := controlKeepsSchedule done
      dsimp only
      rw [same]
      exact before
    | @turn r i s s' done =>
      have turned := turnFacts done
      intro k early
      dsimp only at early ⊢
      rw [turned.deliveries]
      cases sent : (run.advanced r i (s.nodes i)).2.outbound with
      | none => exact before k early
      | some outbound =>
        obtain ⟨c,same⟩ := advancedBroadcast sent
        have round : outbound.packet.roundId = r := by
          rw [same]
          rfl
        rw [outboundScheduled,outboundBooked,bookedNone]
        refine ⟨before k early,?_⟩
        intro entry member
        obtain ⟨call,_,rfl⟩ := List.mem_map.mp member
        dsimp only
        omega
    | @network r s =>
      intro k early
      rw [@networkLookup run ⟨⟨r,.network,s⟩,.network,_⟩ step rfl]
      refine ⟨?_,?_⟩
      · by_cases now : k = r
        · exact Or.inl now
        · refine Or.inr (before k ?_)
          dsimp only at early ⊢
          omega
      · intro call asked entry copy
        have late := bookedLate (timely _ (by simp) call asked) entry copy
        dsimp only at late early
        omega

theorem flatMapFewer {α β : Type} {f g : α → List β} {l : List α}
    (fewer : ∀ a ∈ l, (f a).length ≤ (g a).length) : (l.flatMap f).length ≤ (l.flatMap g).length := by
  induction l with
  | nil => simp
  | cons head tail ih =>
    have rest := ih (fun a member => fewer a (List.mem_cons_of_mem _ member))
    have first := fewer head (by simp)
    simp only [List.flatMap_cons,List.length_append]
    omega

theorem flatMapEven {α β : Type} {f g : α → List β} {l : List α}
    (fewer : ∀ a ∈ l, (f a).length ≤ (g a).length)
    (whole : (l.flatMap f).length = (l.flatMap g).length) : ∀ a ∈ l, (f a).length = (g a).length := by
  induction l with
  | nil => simp
  | cons head tail ih =>
    have rest := flatMapFewer (fun a member => fewer a (List.mem_cons_of_mem head member))
    have first := fewer head (by simp)
    simp only [List.flatMap_cons,List.length_append] at whole
    intro a member
    rcases List.mem_cons.mp member with same | later
    · rw [same]
      omega
    · exact ih (fun a inside => fewer a (List.mem_cons_of_mem _ inside)) (by omega) a later

theorem grantedWhole (fits : ∀ x ∈ moves, (x.before.round : Int) ≤ k)
    (timely : ∀ x ∈ moves, ∀ call ∈ consultedIn run x, run.Timely rounds x.before.round call)
    (reached : k < rounds) :
    moves.flatMap (fun x => grantedIn run x k) = moves.flatMap (fun x => dueIn run x k) := by
  apply List.flatMap_congr
  intro x member
  apply List.flatMap_congr
  intro call asked
  exact grantedDue (timely x member call asked) (fits x member) reached

theorem deliversWhenTimely (ran : Ran run.system moves pt) :
    DeliversAsAsked run pt.round moves ↔
      ∀ m ∈ moves, ∀ call ∈ consultedIn run m, run.Timely pt.round m.before.round call := by
  have queued := ranQueued ran
  constructor
  · intro asked m member call consulted
    obtain ⟨pre,post,split⟩ := List.append_of_mem member
    have network : m.op = .network := by
      by_contra other
      simp [consultedIn,other] at consulted
    refine ⟨?_,?_⟩
    · intro kept target named
      by_contra early
      have gone := asked.drained m member network target (by omega)
      have left := ((networkLookup (ranStep ran member) network target).mp gone).2 call consulted
        (target,copyOf call (run.networkFaultModel call.1 call.2).toPacketOverrides)
      refine left ?_ rfl
      rw [booked,if_neg kept]
      refine List.mem_append_left _ (List.mem_append_right _ ?_)
      exact List.mem_map.mpr ⟨target,named,rfl⟩
    · intro lost copy wanted
      by_contra early
      have small : max copy.1 (m.before.round : Int) < pt.round := by omega
      obtain ⟨r,round⟩ : ∃ r : Nat, (r : Int) = max copy.1 (m.before.round : Int) :=
        ⟨(max copy.1 (m.before.round : Int)).toNat,by omega⟩
      obtain ⟨last,inside,final,here⟩ := asked.rounds r (by omega)
      obtain ⟨before,after,split'⟩ := List.append_of_mem inside
      have ran' := split' ▸ ran
      have fits : ∀ x ∈ before ++ [last], (x.before.round : Int) ≤ r := by
        intro x member
        have upTo := networkBehind ran' x member
        rw [here] at upTo
        exact_mod_cast upTo
      have earlier : m ∈ before ++ [last] := by
        rw [split'] at member
        rcases List.mem_append.mp member with old | new
        · exact List.mem_append_left _ old
        · rcases List.mem_cons.mp new with same | later
          · exact List.mem_append_right _ (List.mem_singleton.mpr same)
          · have beyond := networkBefore ran' final later
            omega
      have handed := asked.handed before last after split' final
      rw [(consultedAt ran' final).2,here] at handed
      have even := flatMapEven (fun x member => ?_) handed.length_eq m earlier
      · have each := flatMapEven (fun call _ => grantedLength (fits m earlier)) even call consulted
        rw [grantedDropped lost,List.length_nil,eq_comm,List.length_eq_zero_iff,dueFrom,
          List.map_eq_nil_iff,List.filter_eq_nil_iff] at each
        exact each copy wanted (by simpa using round.symm)
      · exact flatMapFewer (fun call _ => grantedLength (fits x member))
  · intro timely
    refine ⟨queued.rounds,?_,(ranTurning ran).once,?_,?_⟩
    · intro pre m post split network
      exact (consultedAt (split ▸ ran) network).1
    · intro pre m post split network
      have ran' := split ▸ ran
      have inside : ∀ x ∈ pre ++ [m], x ∈ moves := by
        intro x member
        rw [split]
        rcases List.mem_append.mp member with old | new
        · exact List.mem_append_left _ old
        · rw [List.mem_singleton.mp new]
          simp
      have early := (queued.behind m (inside m (by simp))).2 (Or.inl network)
      rw [(consultedAt ran' network).2,grantedWhole
        (fun x member => by exact_mod_cast networkBehind ran' x member)
        (fun x member => timely x (inside x member)) (by exact_mod_cast early)]
    · intro m member network k upTo
      obtain ⟨pre,post,split⟩ := List.append_of_mem member
      have ran' := split ▸ ran
      have after := (ranAt ran').2.2
      refine @drainedQueues run _ _ pt.round after ?_ k ?_
      · intro x inside
        refine timely x ?_
        rw [split]
        rcases List.mem_append.mp inside with old | new
        · exact List.mem_append_left _ old
        · rw [List.mem_singleton.mp new]
          simp
      · have step := (ranAt ran').2.1
        obtain ⟨before,op,after'⟩ := m
        cases network
        cases stepCases step with
        | network =>
          dsimp only at upTo ⊢
          omega

end Contract

-- Every packet is asked for twice in its own round, as a random campaign does for a duplicate.
def duplicating : ClusterRun :=
  { nodeCount := 2
    rounds := 1
    timing := ⟨1,0,0,0,3,0,0,0⟩
    payloadFactory := fun _ _ => ""
    networkFaultModel := fun packet _ =>
      {deliverRound := some packet.roundId, extraDeliverRounds := [packet.roundId]}
    nodeFaultModel := fun _ _ => true
    hash := ⟨fun _ => "",fun _ _ => ""⟩ }

def leftBehind (m : Move Point Phase) : Prop :=
  m.op = .network ∧ (m.after.cluster.scheduledDeliveries.lookup (m.before.round : Int)).isSome
instance (m : Move Point Phase) : Decidable (leftBehind m) := by unfold leftBehind; infer_instance

theorem duplicateLost :
    ¬ ∀ run moves pt, Ran run.system moves pt → DeliversAsAsked run pt.round moves := by
  intro claim
  have value : (duplicating.walk 1).toOption.map
      (fun result => result.1.any (fun m => leftBehind m)) = some true := by decide +kernel
  obtain ⟨moves,pt,ran,found⟩ := walkFound value
  have asked := claim duplicating moves pt ran
  simp only [List.any_eq_true,decide_eq_true_eq] at found
  obtain ⟨m,member,network,left⟩ := found
  rw [asked.drained m member network m.before.round le_rfl] at left
  cases left

-- Every packet of node 0 is dropped; one of node 1 arrives a round late, and again in the next one.
def repeating : ClusterRun :=
  { duplicating with
    rounds := 4
    networkFaultModel := fun packet _ =>
      if packet.srcId = 0 then {deliverRound := none}
      else {deliverRound := some (packet.roundId + 1), extraDeliverRounds := [packet.roundId + 2]} }

theorem deliversWhenTimelyOnce : ∃ moves pt, Ran repeating.system moves pt ∧
    moves.map (fun m => (handedIn repeating m).length) = [0,0,0,0,0,0,0,1,0,0,0,2,0,0,0,1] ∧
    DeliversAsAsked repeating pt.round moves ∧
    (DeliversAsAsked repeating pt.round moves ↔ ∀ m ∈ moves, ∀ call ∈ consultedIn repeating m,
      repeating.Timely pt.round m.before.round call) := by
  have value : (repeating.walk 4).toOption.map (fun result =>
      decide (result.1.map (fun m => (handedIn repeating m).length) = [0,0,0,0,0,0,0,1,0,0,0,2,0,0,0,1]) &&
      result.1.all (fun m => (consultedIn repeating m).all (fun call =>
        if repeating.dropped call then
          (repeating.requested call).all (fun copy => decide ((result.2.round : Int) ≤ max copy.1 m.before.round))
        else (repeating.networkFaultModel call.1 call.2).extraDeliverRounds.all
          (fun target => decide ((m.before.round : Int) < target))))) = some true := by
    decide +kernel
  obtain ⟨moves,pt,ran,found⟩ := walkFound value
  obtain ⟨counts,all⟩ := (Bool.and_eq_true _ _).mp found
  have timely : ∀ m ∈ moves, ∀ call ∈ consultedIn repeating m, repeating.Timely pt.round m.before.round call := by
    intro m member call asked
    have each := List.all_eq_true.mp (List.all_eq_true.mp all m member) call asked
    constructor
    · intro kept target named
      rw [if_neg kept] at each
      exact of_decide_eq_true (List.all_eq_true.mp each target named)
    · intro lost copy wanted
      rw [if_pos lost] at each
      exact of_decide_eq_true (List.all_eq_true.mp each copy wanted)
  exact ⟨moves,pt,ran,of_decide_eq_true counts,(deliversWhenTimely ran).mpr timely,deliversWhenTimely ran⟩

end ClusterRun
end Syncons
