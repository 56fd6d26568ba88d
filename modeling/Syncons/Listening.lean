import Syncons.Resurrection

/-! What a batch of observed events does to the control plane. Events never touch
the installed or the pending config; they only fail nodes, queue interruptions, and
collect acknowledgements of the pending config. -/
namespace Syncons
open Outcome

namespace OnlineRejoinControlPlane

variable {slack : Int} {timing : SimulationTiming} {nodeCount : Nat}
  {cp cp' mid : OnlineRejoinControlPlane} {state state' : ControlPlaneState}
  {event : ControlPlaneEvent} {events more : List ControlPlaneEvent}

structure Listened (events : List ControlPlaneEvent) (cp : OnlineRejoinControlPlane)
    (state : ControlPlaneState) (cp' : OnlineRejoinControlPlane) (state' : ControlPlaneState) : Prop where
  setup : sameSetup cp cp'
  installed : state'.installedConfig = state.installedConfig
  pending : cp'.pendingFuture = cp.pendingFuture
  shown : state'.pendingConfig = state.pendingConfig
  logs : state'.repairLogs = state.repairLogs
  activeOnly : ∀ i, inState state' i .active → inState state i .active ∧
    ∀ event ∈ events, interruption event.toNodeEvent → event.nodeId ≠ i
  scheduled : ∀ item ∈ cp'.scheduled, item ∈ cp.scheduled ∨
    ∃ event ∈ events, event.kind = .prepareAck ∧
      item.timeNs = event.availableAtNs + cp.timing.cpDecisionDelayNs
  acks : ∀ i ∈ cp'.prepareAcks, i ∈ cp.prepareAcks ∨
    ∃ event ∈ events, event.kind = .prepareAck ∧ event.nodeId = i ∧
      ∃ pending ∈ cp.pendingFuture, acknowledges event pending
  touched : ∀ i, cp'.touched i → cp.touched i ∨
    ∃ event ∈ events, interruption event.toNodeEvent ∧ event.nodeId = i

theorem listenedNone (cp : OnlineRejoinControlPlane) (state : ControlPlaneState) :
    Listened [] cp state cp state :=
  ⟨⟨rfl,rfl,rfl⟩,rfl,rfl,rfl,rfl,fun _ h => ⟨h,by simp⟩,fun _ h => Or.inl h,fun _ h => Or.inl h,
    fun _ h => Or.inl h⟩

theorem listenedTrans {midState : ControlPlaneState} (h : Listened events cp state mid midState)
    (k : Listened more mid midState cp' state') : Listened (events ++ more) cp state cp' state' where
  setup := ⟨k.setup.1.trans h.setup.1,k.setup.2.1.trans h.setup.2.1,k.setup.2.2.trans h.setup.2.2⟩
  installed := k.installed.trans h.installed
  pending := k.pending.trans h.pending
  shown := k.shown.trans h.shown
  logs := k.logs.trans h.logs
  activeOnly i active := by
    obtain ⟨was,later⟩ := k.activeOnly i active
    obtain ⟨first,earlier⟩ := h.activeOnly i was
    refine ⟨first,?_⟩
    intro event member
    rcases List.mem_append.mp member with old | new
    · exact earlier event old
    · exact later event new
  scheduled item member := by
    rcases k.scheduled item member with old | ⟨event,inside,kind,time⟩
    · rcases h.scheduled item old with older | ⟨event,inside,rest⟩
      · exact Or.inl older
      · exact Or.inr ⟨event,List.mem_append_left _ inside,rest⟩
    · exact Or.inr ⟨event,List.mem_append_right _ inside,kind,by rw [time,h.setup.1]⟩
  acks i member := by
    rcases k.acks i member with old | ⟨event,inside,kind,same,pending,held,names⟩
    · rcases h.acks i old with older | ⟨event,inside,rest⟩
      · exact Or.inl older
      · exact Or.inr ⟨event,List.mem_append_left _ inside,rest⟩
    · exact Or.inr ⟨event,List.mem_append_right _ inside,kind,same,pending,h.pending ▸ held,names⟩
  touched i some := by
    rcases k.touched i some with old | ⟨event,inside,rest⟩
    · rcases h.touched i old with older | ⟨event,inside,rest⟩
      · exact Or.inl older
      · exact Or.inr ⟨event,List.mem_append_left _ inside,rest⟩
    · exact Or.inr ⟨event,List.mem_append_right _ inside,rest⟩

theorem beganTouched (cp : OnlineRejoinControlPlane) (nowNs : Int) (i : Nat)
    (h : (cp.beginCollectionWindow nowNs).touched i) : cp.touched i := by
  rcases beginCollectionWindowCases cp nowNs with same | ⟨_,_,_,same⟩
  · exact same ▸ h
  · rw [same] at h
    rcases h with c | e | q
    · exact Or.inr (Or.inr (Finmap.mem_keys.mp c))
    · exact Or.inr (Or.inl e)
    · exact absurd q Finmap.notMem_empty

theorem beganScheduled (cp : OnlineRejoinControlPlane) (nowNs : Int) :
    (cp.beginCollectionWindow nowNs).scheduled = cp.scheduled := by
  rcases beginCollectionWindowCases cp nowNs with same | ⟨_,_,_,same⟩ <;> rw [same]

theorem failedActive {target i : Nat} (active : inState (failedState state target) i .active) :
    inState state i .active ∧ target ≠ i :=
  ⟨(failedNotActive active).1,fun same => (failedNotActive active).2 same.symm⟩

theorem noticedListened (h : Noticed event cp state cp' state') : Listened [event] cp state cp' state' := by
  cases h with
  | ignored other =>
    refine ⟨⟨rfl,rfl,rfl⟩,rfl,rfl,rfl,rfl,?_,fun _ h => Or.inl h,fun _ h => Or.inl h,fun _ h => Or.inl h⟩
    intro i active
    refine ⟨active,?_⟩
    intro e member kind
    rw [List.mem_singleton.mp member] at kind
    exact absurd kind other
  | acked kind held prepared acked =>
    obtain ⟨names,last,extra,rfl,added⟩ := acked
    refine ⟨⟨rfl,rfl,rfl⟩,rfl,rfl,rfl,rfl,?_,?_,?_,fun _ h => Or.inl h⟩
    · intro i active
      refine ⟨active,?_⟩
      intro e member interrupted
      rw [List.mem_singleton.mp member] at interrupted
      simp [interruption,kind] at interrupted
    · intro item member
      rcases List.mem_append.mp member with old | new
      · exact Or.inl old
      · rcases added with rfl | ⟨rfl,_⟩
        · simp at new
        · rw [List.mem_singleton.mp new]
          exact Or.inr ⟨event,by simp,kind,rfl⟩
    · intro i member
      rcases Finset.mem_insert.mp member with same | old
      · exact Or.inr ⟨event,by simp,kind,same.symm,_,held,names⟩
      · exact Or.inl old
  | collected kind collects =>
    obtain ⟨installed,shown,logs⟩ := failedInstalled state event.nodeId
    refine ⟨⟨rfl,rfl,rfl⟩,installed,rfl,shown,logs,?_,fun _ h => Or.inl h,fun _ h => Or.inl h,?_⟩
    · intro i active
      obtain ⟨was,other⟩ := failedActive active
      refine ⟨was,?_⟩
      intro e member _
      rw [List.mem_singleton.mp member]
      exact other
    · intro i some
      rcases some with c | e | q
      · rcases Finset.mem_insert.mp c with same | old
        · exact Or.inr ⟨event,by simp,kind,same.symm⟩
        · exact Or.inl (Or.inl old)
      · exact Or.inl (Or.inr (Or.inl e))
      · exact Or.inl (Or.inr (Or.inr q))
  | queued kind late =>
    obtain ⟨installed,shown,logs⟩ := failedInstalled state event.nodeId
    obtain ⟨pending,acks,_⟩ :=
      beganPending ((cp.observed event).queuedUp state event.nodeId event.availableAtNs)
        event.availableAtNs
    refine ⟨beganSetup ((cp.observed event).queuedUp state event.nodeId _) _,installed,pending,shown,logs,
      ?_,?_,?_,?_⟩
    · intro i active
      obtain ⟨was,other⟩ := failedActive active
      refine ⟨was,?_⟩
      intro e member _
      rw [List.mem_singleton.mp member]
      exact other
    · intro item member
      rw [beganScheduled] at member
      exact Or.inl member
    · intro i member
      rw [acks] at member
      exact Or.inl member
    · intro i some
      rcases beganTouched _ _ i some with c | e | q
      · exact Or.inl (Or.inl c)
      · exact Or.inl (Or.inr (Or.inl e))
      · rcases (Dict.memSetdefault cp.queuedInterruptions event.nodeId i event.availableAtNs).mp q
          with same | old
        · exact Or.inr ⟨event,by simp,kind,same.symm⟩
        · exact Or.inl (Or.inr (Or.inr old))

theorem observeAll (sound : Sound slack timing nodeCount cp) (h : Coherent [] cp state)
    (bounded : ∀ event ∈ events, event.nodeId < nodeCount)
    (done : events.foldlM observeEvent cp = .ok cp') :
    ∃ state', Coherent [] cp' state' ∧ Sound slack timing nodeCount cp' ∧
      Listened events cp state cp' state' := by
  induction events generalizing cp state with
  | nil =>
    cases done
    exact ⟨state,h,sound,listenedNone _ state⟩
  | cons event rest ih =>
    rw [List.foldlM_cons] at done
    obtain ⟨mid,first,others⟩ := bindOk.mp done
    have bound := bounded event (by simp)
    obtain ⟨next,midState,noted,coherent,noticed⟩ := observeEventMeets h
      (fun _ => sound.nodeCount ▸ bound)
    have same : next = mid := Except.ok.inj (noted.symm.trans first)
    subst same
    have soundMid := meetsValue (stepSound sound (show Op.admissible nodeCount (.observe event) from bound))
      first
    obtain ⟨state',after,soundAfter,listened⟩ := ih soundMid coherent
      (fun other member => bounded other (by simp [member])) others
    exact ⟨state',after,soundAfter,listenedTrans (noticedListened noticed) listened⟩

end OnlineRejoinControlPlane
end Syncons
