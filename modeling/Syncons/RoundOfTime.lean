import Syncons.CommitStream

/-! The round registers as a function of absolute time. Whenever the round generator is
armed they name the round of the last instant, however it came to be armed, so cores that
are fed the same time agree on the round. -/
namespace Syncons.ConsensusCore
open Runs (System Move Ran)

variable {p p' : Parameters} {b b' : Bench} {t : Nat} {m : Move Bench Inputs}
  {moves moves' : List (Move Bench Inputs)}

-- The registers name the round of `t` and bracket it within its second.
structure Placed (p : Parameters) (timing : Timing) (t : Nat) : Prop where
  round : timing.roundId = BitVec.ofNat 64 (t / p.roundLengthNs)
  base : timing.roundBaseNs.toNat ≤ t % nsPerSecond
  next : t % nsPerSecond < timing.nextBoundaryNs.toNat
  length : timing.nextBoundaryNs.toNat = timing.roundBaseNs.toNat + p.roundLengthNs

theorem Aligned.placed {timing : Timing} (aligned : Aligned p timing t) : Placed p timing t := by
  have floor := Nat.div_mul_le_self (t % nsPerSecond) p.roundLengthNs
  have ceil : t % nsPerSecond <
      t % nsPerSecond / p.roundLengthNs * p.roundLengthNs + p.roundLengthNs :=
    Nat.lt_div_mul_add p.lengthPos
  constructor
  · exact aligned.round
  · rw [aligned.base]
    exact floor
  · rw [aligned.next]
    exact ceil
  · rw [aligned.next,aligned.base]

def armedAfter (m : Move Bench Inputs) : Bool := m.after.core.timing.timingArmed
def pulseAfter (m : Move Bench Inputs) : Bool := m.after.core.timing.roundStartPulse

/- Over a stretch of cycles that stay armed, the pulses count the rounds that the time
has gone through since the instant before the stretch. -/
def PulsesCount (p : Parameters) (moves : List (Move Bench Inputs)) : Prop :=
  ∀ pre a held post, moves = pre ++ a :: held ++ post → (∀ m ∈ a :: held, armedAfter m = true) →
    ∀ z ∈ (a :: held).getLast?,
      z.op.instant / p.roundLengthNs = a.op.instant / p.roundLengthNs + held.countP pulseAfter

theorem ranNow (ran : Ran (system p) (moves ++ [m]) b) : b.now = some m.op.instant := by
  obtain ⟨_,step,rfl⟩ := Runs.ranSnoc ran
  rw [step.2]

theorem ranPlaced (ran : Ran (system p) (moves ++ [m]) b)
    (armed : b.core.timing.timingArmed = true) : Placed p b.core.timing m.op.instant :=
  ((ranTimed ran).aligned armed _ (ranNow ran)).placed

theorem pulseStep (timed : Timed p m.before) (step : (system p).step m.before m.op m.after)
    (now : m.before.now = some t) (held : m.before.core.timing.timingArmed = true)
    (armed : armedAfter m = true) :
    p.roundAt m.op.instant = p.roundAt t + if pulseAfter m then 1 else 0 := by
  obtain ⟨free,after⟩ := step
  rw [now] at free
  simp only [armedAfter,pulseAfter,after] at armed ⊢
  have up : ¬ (m.op.rst = true ∨ m.before.core.timingRunning m.op = false) := by
    intro down
    exact absurd ((downTiming down).1.symm.trans armed) (by decide)
  simp only [not_or,Bool.not_eq_true,Bool.not_eq_false] at up
  have round := roundStep timed free now up.1 up.2
  cases pulse : (m.before.core.next p m.op).timing.roundStartPulse with
  | true => simpa using (round.pulsed pulse).2.1
  | false => simpa using round.quiet held pulse

theorem pulsesCounted {pre rest : List (Move Bench Inputs)} {a : Move Bench Inputs}
    (ran : Ran (system p) (pre ++ a :: rest) b) (armed : ∀ m ∈ a :: rest, armedAfter m = true) :
    ∃ z ∈ (a :: rest).getLast?, b = z.after ∧
      p.roundAt z.op.instant = p.roundAt a.op.instant + rest.countP pulseAfter := by
  induction rest using List.reverseRecOn generalizing b with
  | nil =>
    obtain ⟨_,_,same⟩ := Runs.ranSnoc ran
    exact ⟨a,rfl,same.symm,rfl⟩
  | append_singleton rest m ih =>
    rw [← List.cons_append] at ran armed ⊢
    rw [← List.append_assoc] at ran
    obtain ⟨before,step,same⟩ := Runs.ranSnoc ran
    obtain ⟨z,last,ended,count⟩ := ih before (fun x member => armed x (List.mem_append_left _ member))
    obtain ⟨front,shape⟩ := List.getLast?_eq_some_iff.mp last
    have held : m.before.core.timing.timingArmed = true := by
      rw [ended]
      exact armed z (List.mem_append_left _ (by simp [shape]))
    have now : m.before.now = some z.op.instant := by
      rw [shape,← List.append_assoc] at before
      exact ranNow before
    have grown := pulseStep (ranTimed before) step now held (armed m (by simp))
    refine ⟨m,List.getLast?_eq_some_iff.mpr ⟨a :: rest,rfl⟩,same.symm,?_⟩
    rw [grown,count,List.countP_append,List.countP_singleton,Nat.add_assoc]

theorem pulsesCount (ran : Ran (system p) moves b) : PulsesCount p moves := by
  rintro pre a held post rfl armed z last
  obtain ⟨_,upTo⟩ := Runs.ranPrefix ran
  obtain ⟨z',last',_,count⟩ := pulsesCounted upTo armed
  cases last.symm.trans last'
  exact count

def instants (moves : List (Move Bench Inputs)) : List Nat := moves.map (fun m => m.op.instant)

theorem ranInstants (ran : Ran (system p) moves b) : b.now = (instants moves).getLast? := by
  cases moves using List.reverseRecOn with
  | nil =>
    generalize none : [] = moves at ran
    cases ran with
    | start start => rw [start]; rfl
    | move before step => simp at none
  | append_singleton front m =>
    rw [ranNow ran,instants,List.map_append,List.map_singleton]
    exact (List.getLast?_concat ..).symm

theorem armedRound (timed : Timed p b) (armed : b.core.timing.timingArmed = true) :
    ∃ t, b.now = some t ∧ b.core.timing.roundId = BitVec.ofNat 64 (p.roundAt t) := by
  cases seen : b.core.timing.secondValid with
  | false => cases armed.symm.trans (timed.dark seen).2.1
  | true =>
    obtain ⟨t,now,_⟩ := timed.second seen
    exact ⟨t,now,(timed.aligned armed t now).round⟩

theorem roundOfTime (ran : Ran (system p) moves b) :
    (∀ m ∈ moves, armedAfter m = true → Placed p m.after.core.timing m.op.instant) ∧
    PulsesCount p moves ∧
    ∀ p' moves' b', p'.roundLengthNs = p.roundLengthNs → Ran (system p') moves' b' →
      instants moves' = instants moves → b.core.timing.timingArmed = true →
      b'.core.timing.timingArmed = true → b'.core.timing.roundId = b.core.timing.roundId := by
  refine ⟨?_,pulsesCount ran,?_⟩
  · intro m member armed
    obtain ⟨pre,post,rfl⟩ := List.append_of_mem member
    exact ranPlaced (Runs.ranAt ran).2.2 armed
  · intro p' moves' b' length ran' same armed armed'
    obtain ⟨t,now,round⟩ := armedRound (ranTimed ran) armed
    obtain ⟨t',now',round'⟩ := armedRound (ranTimed ran') armed'
    have fed : b'.now = b.now := by rw [ranInstants ran,ranInstants ran',same]
    cases now'.symm.trans (fed.trans now)
    rw [round,round',Parameters.roundAt,Parameters.roundAt,length]

-- The same time, with nothing written but an enable in cycle `k`.
def enabledAt (k : Nat) (inputs : List Inputs) : List Inputs :=
  inputs.mapIdx (fun i x => {x with regWr := if i = k then some ⟨0x00300C,1⟩ else none})

theorem playFound {inputs : List Inputs} {good : List (Move Bench Inputs) → Bench → Bool}
    (value : (play p inputs).toOption.map (fun result => good result.1 result.2) = some true) :
    ∃ moves b, play p inputs = .ok (moves,b) ∧ Ran (system p) moves b ∧ good moves b = true := by
  obtain ⟨⟨moves,b⟩,done,found⟩ := Runs.okFound value
  exact ⟨moves,b,done,playRan done,found⟩

theorem roundOfTimeOnce : ∃ moves b moves' b', play alone (aloneInputs 1 0 14) = .ok (moves,b) ∧
    play alone (enabledAt 7 (aloneInputs 1 0 14)) = .ok (moves',b') ∧
    b.core.timing.roundId = 250006 ∧ b'.core.timing.roundId = 250006 ∧ PulsesCount alone moves := by
  obtain ⟨moves,b,done,ran,good⟩ := @playFound alone (aloneInputs 1 0 14)
    (fun moves b => b.core.timing.timingArmed && b.core.timing.roundId = 250006 &&
      instants moves = (aloneInputs 1 0 14).map Inputs.instant) (by decide +kernel)
  obtain ⟨moves',b',done',ran',good'⟩ := @playFound alone (enabledAt 7 (aloneInputs 1 0 14))
    (fun moves b => b.core.timing.timingArmed &&
      instants moves = (aloneInputs 1 0 14).map Inputs.instant) (by decide +kernel)
  simp only [Bool.and_eq_true,decide_eq_true_eq] at good good'
  obtain ⟨_,counts,agree⟩ := roundOfTime ran
  have same := agree alone moves' b' rfl ran' (good'.2.trans good.2.symm) good.1.1 good'.1
  exact ⟨moves,b,moves',b',done,done',good.1.2,same.trans good.1.2,counts⟩

end Syncons.ConsensusCore
