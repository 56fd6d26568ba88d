import Syncons.HaltReasons
import Syncons.Reception

/-! Nodes in concert. The fields by which a node decides its rounds, told apart from
those it keeps for itself: nodes that share them are configured alike, judge alike and,
when they hear the same sources, share them again in the next round. -/
namespace Syncons
open Dict (Map)

namespace Node

variable {p p' : NodeParams} {n n' c c' : Node} {r : Int} {u : ControlPlaneUpdate}
  {pending : PendingConfig} {packets : List Packet} {packet : Packet} {j : Nat}

structure Shared where
  soundSet : Nat
  current : RoundStage
  previous : RoundStage
  config : InstalledConfig
  state : MembershipState
  pending : Option PendingConfig
  mailbox : Option ControlPlaneUpdate
  irq : Bool

def shared (n : Node) : Shared :=
  { soundSet := n.currentSoundSet
    current := n.currentStage
    previous := n.previousStage
    config := n.config
    state := n.membershipState
    pending := n.pendingConfig
    mailbox := n.pendingControlPlaneUpdate
    irq := n.controlPlaneIrqPending }

section Configuration

theorem sharedBlank (blank : Blank c) (blank' : Blank c') (config : c'.config = c.config) :
    c'.currentSoundSet = c.currentSoundSet ∧ c'.currentStage = c.currentStage ∧
      c'.previousStage = c.previousStage := by
  simp only [Node.config,InstalledConfig.mk.injEq] at config
  obtain ⟨epoch,members,_⟩ := config
  refine ⟨?_,?_,?_⟩
  · rw [blank'.soundSet,blank.soundSet,members]
  · rw [blank'.current,blank.current,epoch,members]
  · rw [blank'.previous,blank.previous,epoch,members]

theorem activatedShared (h : Activated n pending c) (h' : Activated n' pending c')
    (same : n'.shared = n.shared) : c'.shared = c.shared := by
  simp only [shared,Shared.mk.injEq] at same
  obtain ⟨_,_,_,_,_,_,mailbox,irq⟩ := same
  have config := h'.config.trans h.config.symm
  obtain ⟨sound,current,previous⟩ := sharedBlank h.blank h'.blank config
  simp only [shared,Shared.mk.injEq]
  exact ⟨sound,current,previous,config,h'.state.trans h.state.symm,h'.pending.trans h.pending.symm,
    h'.mailbox.trans (mailbox.trans h.mailbox.symm),h'.irq.trans (irq.trans h.irq.symm)⟩

theorem pulledShared (h : Pulled p n u c) (h' : Pulled p' n' u c') (same : n'.shared = n.shared) :
    c'.shared = c.shared := by
  simp only [shared,Shared.mk.injEq] at same
  obtain ⟨_,current,previous,config,state,_,_,_⟩ := same
  have both := config
  simp only [Node.config,InstalledConfig.mk.injEq] at both
  obtain ⟨epoch,members,runId⟩ := both
  have resets : n'.updateResets u = n.updateResets u := by
    simp only [updateResets,state,epoch,members,runId]
  have installed := h'.config.trans h.config.symm
  have sound : c'.currentSoundSet = c.currentSoundSet := by
    rw [h'.soundSet,h.soundSet]
    exact congrArg InstalledConfig.membersBitmap installed
  have stages : c'.currentStage = c.currentStage ∧ c'.previousStage = c.previousStage := by
    cases anew : n.updateResets u with
    | true => exact (sharedBlank (h.reset anew) (h'.reset (resets.trans anew)) installed).2
    | false =>
      have kept := h.kept anew
      have kept' := h'.kept (resets.trans anew)
      exact ⟨kept'.current.trans (current.trans kept.current.symm),
        kept'.previous.trans (previous.trans kept.previous.symm)⟩
  simp only [shared,Shared.mk.injEq]
  exact ⟨sound,stages.1,stages.2,installed,h'.state.trans h.state.symm,h'.pending.trans h.pending.symm,
    h'.mailbox.trans h.mailbox.symm,h'.irq.trans h.irq.symm⟩

theorem activateShared (same : n'.shared = n.shared) :
    (n'.activatePendingConfigIfDue r).shared = (n.activatePendingConfigIfDue r).shared := by
  have held : n'.pendingConfig = n.pendingConfig := congrArg Shared.pending same
  have due' : n'.pendingDue r = n.pendingDue r := by simp only [pendingDue,held]
  cases due : n.pendingDue r with
  | none => rw [activateQuiet due,activateQuiet (due'.trans due),same]
  | some pending => exact activatedShared (activateDue due) (activateDue (due'.trans due)) same

theorem activateWired (wired : Wired n) : Wired (n.activatePendingConfigIfDue r) := by
  cases due : n.pendingDue r with
  | none =>
    rw [activateQuiet due]
    exact wired
  | some pending =>
    have activated := activateDue due
    rw [Wired,activated.irq,activated.mailbox]
    exact wired

theorem sharedWired (same : n'.shared = n.shared) (wired : Wired n) : Wired n' := by
  have mailbox : n'.pendingControlPlaneUpdate = n.pendingControlPlaneUpdate := congrArg Shared.mailbox same
  have irq : n'.controlPlaneIrqPending = n.controlPlaneIrqPending := congrArg Shared.irq same
  rw [Wired,irq,mailbox]
  exact wired

-- What the configuration part of a round leaves does not depend on the node's own fields.
theorem configuredShared (wired : Wired n) (same : n'.shared = n.shared) :
    (n'.configured p' r).shared = (n.configured p r).shared := by
  have entered : shared {n' with currentRound := r} = shared {n with currentRound := r} := same
  have activated := @activateShared {n with currentRound := r} {n' with currentRound := r} r entered
  have wired : Wired ({n with currentRound := r}.activatePendingConfigIfDue r) :=
    activateWired (show Wired {n with currentRound := r} from wired)
  simp only [configured,configure]
  generalize {n with currentRound := r}.activatePendingConfigIfDue r = m at activated wired
  generalize {n' with currentRound := r}.activatePendingConfigIfDue r = m' at activated
  have mailbox : m'.pendingControlPlaneUpdate = m.pendingControlPlaneUpdate :=
    congrArg Shared.mailbox activated
  cases held : m.pendingControlPlaneUpdate with
  | none => rw [pullEmpty p held,pullEmpty p' (mailbox.trans held),activated]
  | some u =>
    exact pulledShared (pullFull p wired held) (pullFull p' (sharedWired activated wired)
      (mailbox.trans held)) activated

end Configuration

section Judgement

/- What the members of `Q` have told one another, as far as rounds have been collected:
all have heard of each other, and all have advertised one row. -/
structure Concerted (nodeCount : Nat) (Q : Finset Nat) (w : Shared) : Prop where
  empty : w.current.rows = ∅
  trusted : ∀ q ∈ Q, w.soundSet.testBit q = true
  collected : 0 ≤ w.current.roundId → ∀ q ∈ Q, w.current.row.testBit q = true
  named : 0 ≤ w.previous.roundId → ∀ q ∈ Q, w.previous.row.testBit q = true
  told : 0 ≤ w.previous.roundId → ∀ q ∈ Q, w.previous.rows.lookup q = some w.previous.row
  valid : ∀ i < nodeCount, ∀ x, w.previous.rows.lookup i = some x → x = 0 ∨ x.testBit i = true

variable {Q : Finset Nat} {w w' : Shared} {nodeCount : Nat}

theorem concertedSame (h : Concerted nodeCount Q w) (current : w'.current = w.current)
    (previous : w'.previous = w.previous) (trusted : ∀ q ∈ Q, w'.soundSet.testBit q = true) :
    Concerted nodeCount Q w' := by
  constructor
  · rw [current]
    exact h.empty
  · exact trusted
  · rw [current]
    exact h.collected
  · rw [previous]
    exact h.named
  · rw [previous]
    exact h.told
  · rw [previous]
    exact h.valid

theorem concertedBlank (blank : Blank n) (trusted : ∀ q ∈ Q, n.installedMembership.testBit q = true) :
    Concerted nodeCount Q n.shared := by
  have current : n.shared.current.roundId = -1 := congrArg RoundStage.roundId blank.current
  have previous : n.shared.previous.roundId = -1 := congrArg RoundStage.roundId blank.previous
  constructor
  · exact congrArg RoundStage.rows blank.current
  · intro q member
    change n.currentSoundSet.testBit q = true
    rw [blank.soundSet]
    exact trusted q member
  · intro late
    omega
  · intro late
    omega
  · intro late
    omega
  · intro i _ x held
    change n.previousStage.rows.lookup i = some x at held
    rw [blank.previous] at held
    cases held

theorem concertedAgrees (h : Concerted p.nodeCount Q w) (late : 0 ≤ w.previous.roundId)
    (observes : ∀ q ∈ Q, observed p w.previous q) (majority : p.nodeCount / 2 + 1 ≤ Q.card)
    (self : p.nodeId ∈ Q) : Agreed p w.previous ∧ localRow p w.previous = w.previous.row ∧
      Q ⊆ matching p w.previous := by
  have rows : ∀ q ∈ Q, memberRow w.previous q = w.previous.row := by
    intro q member
    rw [memberRow,Dict.getD,h.told late q member]
    rfl
  have own : localRow p w.previous = w.previous.row := by
    rw [localRow,if_pos (observes _ self),rows _ self]
  have matches' : Q ⊆ matching p w.previous := by
    intro q member
    have seen := observes q member
    exact Finset.mem_filter.mpr ⟨Finset.mem_range.mpr seen.1,seen.2,(rows q member).trans own.symm⟩
  refine ⟨⟨?_,?_,majority.trans (Finset.card_le_card matches')⟩,own,matches'⟩
  · intro i seen
    rw [memberRow,Dict.getD]
    cases held : w.previous.rows.lookup i with
    | none => exact Or.inl rfl
    | some x => exact h.valid i seen.1 x held
  · rw [own]
    intro none
    have named := h.named late _ self
    rw [none,Nat.zero_testBit] at named
    cases named

def nextSound (p : NodeParams) (w : Shared) : Nat :=
  if w.previous.roundId < 0 then w.soundSet else (soundSet p w.previous).getD 0

structure Passed (p : NodeParams) (n : Node) (r : Int) (n' : Node) (result : NodeRoundResult) : Prop where
  status : n'.status = n.status
  sound : n'.currentSoundSet = nextSound p n.shared
  outbox : n'.controlPlaneEventOutbox = n.controlPlaneEventOutbox
  sent : result.outbound = some (n.broadcast p r)
  commits : 0 ≤ n.previousStage.roundId → ∃ entry, result.newCommits = [entry] ∧
    entry.round = n.previousStage.roundId ∧ entry.commitSet = localRow p n.previousStage
  core : 0 ≤ n.previousStage.roundId → ∀ i ∈ matching p n.previousStage,
    (nextSound p n.shared).testBit i = true

theorem quorumPasses (running : n.status = .running)
    (rule : 0 ≤ n.previousStage.roundId → QuorumRule p n n.previousStage) :
    Passed p n r (n.crossBoundary p r).1 (n.crossBoundary p r).2 := by
  have spared : (n.crossBoundary p r).1.status = n.status := by
    rcases crossReport p n r with ⟨same,_⟩ | ⟨record,late,refused,_⟩
    · exact congrArg Prod.fst same
    · have whole := rule late
      generalize record.haltReason = reason at refused
      cases refused with
      | rows split => exact absurd whole.agreed split
      | proposals agreed missing => exact absurd whole.proposed missing
      | sound agreed proposed outside => exact absurd whole.sounded outside
  have verdict := (crossBoundaryFacts p n r).verdict
  generalize n.crossBoundary p r = out at spared verdict
  obtain ⟨n',result⟩ := out
  dsimp only at spared verdict
  cases verdict with
  | skip early status sound outbox =>
    refine ⟨spared,?_,outbox,rfl,fun late => by omega,fun late => by omega⟩
    exact sound.trans (if_pos early).symm
  | halt round status sound record outbox =>
    exact NodeStatus.noConfusion (running.symm.trans (spared.symm.trans status))
  | @commit agreed core judged status sound outbox =>
    have next : nextSound p n.shared = core := by
      rw [nextSound,if_neg (by have := judged.round; exact Int.not_lt.mpr this)]
      exact congrArg (fun found => Option.getD found 0) judged.sound
    refine ⟨spared,sound.trans next.symm,outbox,rfl,fun late => ⟨_,rfl,rfl,?_⟩,?_⟩
    · exact (agreedRowIff.mp judged.row).2
    · intro late i matches'
      obtain ⟨found,same,bits⟩ := soundSetMembers (rule late).agreed
      cases Option.some.inj (same.symm.trans judged.sound)
      rw [next]
      exact (bits i).mpr matches'

-- Two nodes that agree with one row of a shared stage draw one sound set from it.
theorem nextSoundSame (count : p'.nodeCount = p.nodeCount)
    (agreed : 0 ≤ w.previous.roundId → Agreed p w.previous ∧ localRow p w.previous = w.previous.row)
    (agreed' : 0 ≤ w.previous.roundId → Agreed p' w.previous ∧ localRow p' w.previous = w.previous.row) :
    nextSound p' w = nextSound p w := by
  unfold nextSound
  split
  · rfl
  · rename_i late
    obtain ⟨left,own⟩ := agreed (by omega)
    obtain ⟨right,own'⟩ := agreed' (by omega)
    have row : agreedRow p w.previous = some w.previous.row := agreedRowIff.mpr ⟨left,own.symm⟩
    have row' : agreedRow p' w.previous = some w.previous.row := agreedRowIff.mpr ⟨right,own'.symm⟩
    simp only [soundSet,row,row',observationRows,count]

end Judgement

section Reception

def hears (n : Node) (packets : List Packet) (j : Nat) : Prop :=
  ∃ packet ∈ packets, n.accepts packet ∧ packet.srcId = j

structure Heard (n : Node) (packets : List Packet) (n' : Node) : Prop where
  current : n'.currentStage =
    {n.currentStage with row := n'.currentStage.row, proposals := n'.currentStage.proposals}
  previous : n'.previousStage = {n.previousStage with rows := n'.previousStage.rows}
  row : ∀ j, n'.currentStage.row.testBit j = true ↔
    n.currentStage.row.testBit j = true ∨ hears n packets j
  proposals : ∀ j, (n'.currentStage.proposals.lookup j).isSome = true ↔
    (n.currentStage.proposals.lookup j).isSome = true ∨ hears n packets j
  rows : ∀ j, (n'.previousStage.rows.lookup j).isSome = true ↔
    (n.previousStage.rows.lookup j).isSome = true ∨ hears n packets j

theorem hearsNone {j : Nat} : ¬ hears n [] j := by simp [hears]

theorem hearsCons : hears n (packet :: packets) j ↔
    n.accepts packet ∧ packet.srcId = j ∨ hears n packets j := by
  simp [hears]

theorem insertedSome {υ : Type} (d : Map Nat υ) (k j : Nat) (v : υ) :
    ((d.insert k v).lookup j).isSome = true ↔ (d.lookup j).isSome = true ∨ k = j := by
  rw [Dict.lookupInsert]
  by_cases own : j = k
  · simp [own]
  · simp [own,Ne.symm own]

theorem receiveAllHeard (n : Node) (packets : List Packet) : Heard n packets (n.receiveAll packets) := by
  induction packets generalizing n with
  | nil => exact ⟨rfl,rfl,by simp [receiveAll,hearsNone],by simp [receiveAll,hearsNone],
      by simp [receiveAll,hearsNone]⟩
  | cons packet rest ih =>
    have whole : n.receiveAll (packet :: rest) = (n.receive packet).receiveAll rest := rfl
    have heard := ih (n.receive packet)
    rw [whole]
    generalize (n.receive packet).receiveAll rest = n' at heard
    rcases receiveCases n packet with ⟨accepts,same⟩ | ⟨refuses,same⟩
    · rw [same] at heard
      have still : ∀ j, hears (n.accepted packet) rest j ↔ hears n rest j := fun j => Iff.rfl
      refine ⟨heard.current,heard.previous,?_,?_,?_⟩
      · intro j
        rw [heard.row,still,hearsCons]
        simp only [accepted,Nat.testBit_or,testBitBit,Bool.or_eq_true,decide_eq_true_eq,accepts,true_and,
          or_assoc]
      · intro j
        rw [heard.proposals,still,hearsCons]
        simp only [accepted,insertedSome,accepts,true_and,or_assoc]
      · intro j
        rw [heard.rows,still,hearsCons]
        simp only [accepted,insertedSome,accepts,true_and,or_assoc]
    · rw [same] at heard
      refine ⟨heard.current,heard.previous,?_,?_,?_⟩
      · intro j
        rw [heard.row,hearsCons]
        simp [refuses]
      · intro j
        rw [heard.proposals,hearsCons]
        simp [refuses]
      · intro j
        rw [heard.rows,hearsCons]
        simp [refuses]

end Reception

end Node
end Syncons
