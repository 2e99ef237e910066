import RespLoad.Driver.Thread

/-!
# How a thread gets on

A step of a thread away from the gate makes one call, or it makes none and brings the thread nearer to
its next call. Either way the thread stays on its side of the gate.
-/
namespace RespLoad

namespace Stage

/-- The stages behind the count at the gate. -/
def isCounted : Stage → Bool
  | .waiting _ | .looping _ | .leaving _ | .ended _ | .talking (.iteration _ _) _ => true
  | _ => false

/-- A bound on the number of steps before the next call. -/
def rank : Stage → Nat
  | .resolving => 5
  | .preparing _ => 4
  | .arriving _ => 3
  | .waiting _ => 2
  | .looping _ => 1
  | _ => 0

theorem rank_lt (stage : Stage) : stage.rank < 6 := by
  unfold rank
  split <;> decide

end Stage

namespace Thread

/-- Whether the thread has counted itself at the gate. -/
def hasCounted (thread : Thread) : Bool := thread.stage.isCounted

/-- What a step of a thread away from the gate comes to. -/
inductive Advance (thread later : Thread) : Prop
  | call (event : Event) (he : later.events = thread.events ++ [event])
      (hc : later.hasCounted = thread.hasCounted)
  | quiet (he : later.events = thread.events) (hr : later.stage.rank < thread.stage.rank)
      (hc : later.hasCounted = thread.hasCounted)

theorem isCounted_afterFailure (job : Job) (purpose : Purpose) (cause : IoError) (unsent : Bytes) :
    (afterFailure job purpose cause).isCounted = (Stage.talking purpose unsent).isCounted := by
  cases purpose <;> rfl

theorem advance_stepSend {job : Job} {thread : Thread} {purpose : Purpose} {unsent : Bytes}
    (hs : thread.stage = .talking purpose unsent) :
    thread.Advance (thread.stepSend job purpose unsent) := by
  have hthread : thread.hasCounted = (Stage.talking purpose unsent).isCounted := by
    rw [hasCounted, hs]
  unfold stepSend
  dsimp only
  split
  · refine .call _ rfl ?_
    rw [hthread]
    cases purpose <;> rfl
  · split
    · exact .call _ rfl rfl
    · refine .call _ rfl ?_
      rw [hthread]
      exact isCounted_afterFailure job purpose _ unsent

theorem advance_stepRead {job : Job} {thread : Thread} {purpose : Purpose}
    (hs : thread.stage = .talking purpose []) :
    thread.Advance (thread.stepRead job purpose) := by
  have hthread : thread.hasCounted = (Stage.talking purpose []).isCounted := by
    rw [hasCounted, hs]
  unfold stepRead
  dsimp only
  split
  · cases purpose with
    | greeting =>
      simp only [answered]
      split
      · exact .call _ rfl hthread.symm
      · exact .call _ rfl hthread.symm
    | iteration index started => exact .call _ rfl hthread.symm
  · split
    · exact .call _ rfl rfl
    · refine .call _ rfl ?_
      rw [hthread]
      exact isCounted_afterFailure job purpose _ []

theorem advance_step (job : Job) {thread : Thread}
    (ha : ∀ failure, thread.stage ≠ .arriving failure)
    (hw : ∀ failure, thread.stage ≠ .waiting failure) (he : thread.isEnded = false) :
    thread.Advance (thread.step job) := by
  have hcounted : thread.hasCounted = thread.stage.isCounted := rfl
  unfold step
  cases hs : thread.stage with
  | resolving =>
    rw [hs] at hcounted
    have hrank : thread.stage.rank = 5 := by rw [hs]; rfl
    dsimp only
    split
    · exact .quiet rfl (by rw [hrank]; show 3 < 5; decide) hcounted.symm
    · exact .quiet rfl (by rw [hrank]; show 4 < 5; decide) hcounted.symm
  | preparing calls =>
    rw [hs] at hcounted
    have hrank : thread.stage.rank = 4 := by rw [hs]; rfl
    cases calls with
    | nil => exact .quiet rfl (by rw [hrank]; show 0 < 4; decide) hcounted.symm
    | cons call more =>
      obtain ⟨event, name⟩ := call
      dsimp only
      split
      · exact .call event rfl hcounted.symm
      · split
        · exact .call event rfl hcounted.symm
        · exact .call event rfl hcounted.symm
  | tuning =>
    rw [hs] at hcounted
    dsimp only
    split
    · exact .call _ rfl hcounted.symm
    · exact .call _ rfl hcounted.symm
  | talking purpose unsent =>
    cases unsent with
    | nil => exact advance_stepRead hs
    | cons b rest => exact advance_stepSend hs
  | dropping cause =>
    rw [hs] at hcounted
    exact .call .close rfl hcounted.symm
  | arriving failure => exact absurd hs (ha failure)
  | waiting failure => exact absurd hs (hw failure)
  | looping index =>
    rw [hs] at hcounted
    have hrank : thread.stage.rank = 1 := by rw [hs]; rfl
    dsimp only
    split
    · exact .quiet rfl (by rw [hrank]; show 0 < 1; decide) hcounted.symm
    · exact .quiet rfl (by rw [hrank]; show 0 < 1; decide) hcounted.symm
  | leaving failure =>
    rw [hs] at hcounted
    exact .call .close rfl hcounted.symm
  | ended failure =>
    simp only [isEnded, hs] at he
    cases he

theorem Advance.hasCounted_eq {thread later : Thread} (h : thread.Advance later) :
    later.hasCounted = thread.hasCounted := by
  cases h with
  | call event he hc => exact hc
  | quiet he hr hc => exact hc

theorem Advance.events_mono {thread later : Thread} (h : thread.Advance later) :
    thread.events <+: later.events := by
  cases h with
  | call event he hc => rw [he]; exact List.prefix_append _ _
  | quiet he hr hc => exact he ▸ List.prefix_refl _

end Thread

end RespLoad
