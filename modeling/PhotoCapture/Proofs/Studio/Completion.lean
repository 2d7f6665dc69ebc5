import PhotoCapture.Camera.Fault
import PhotoCapture.Camera.Stub
import PhotoCapture.Proofs.Studio.Rest

namespace PhotoCapture.Studio

variable {σ : Type} {world : World σ} {s : Studio σ} {events : List Event} {camera : σ}
  {bound : Option Facing} {files : Files}

/-- No request is completed twice, none that was not made, and all of them when no run can take a
step any more. A request at one of whose commands the camera crashed is completed with the failure
of its worker. The runs take only so many steps. -/
structure CompletedOnce (world : World σ) (events : List Event) (s : Studio σ) : Prop where
  once : (s.completions.map (·.run)).Nodup
  made : ∀ i ∈ s.completions.map (·.run), i < (events.filterMap Event.request?).length
  all : s.AtRest world → (s.completions.map (·.run)).Perm
    (List.range (events.filterMap Event.request?).length)
  crashed : ∀ e ∈ s.session.log, ∀ message, e.reply = .crashed message →
    e.client < (events.filterMap Event.request?).length ∧
      ∀ c ∈ s.completions, c.run = e.client →
        c.ending.outcome c.run = .failed (.worker (Session.brokenOff c.run message))
  steps : events.countP Event.isAct ≤ 7 * (events.filterMap Event.request?).length

theorem reach_completedOnce (reach : Reach world (openedOn camera bound files) events s) :
    s.CompletedOnce world events := by
  have queued := reach_queued reach
  have accounted := reach_accounted reach
  have length : (events.filterMap Event.request?).length = s.runs.length := by
    have h := congrArg List.length reach.requests_eq
    simpa [openedOn, requests] using h.symm
  refine ⟨accounted.once, ?_, ?_, ?_, ?_⟩
  · rw [length]
    exact accounted.known
  · rw [length]
    exact atRest_perm queued accounted
  · intro e he message crash
    obtain ⟨run, ending, here, ended, told⟩ := accounted.crashed e he message crash
    refine ⟨length ▸ (List.getElem?_eq_some_iff.mp here).1, ?_⟩
    intro c hc same
    obtain ⟨r, hr, stage⟩ := accounted.delivered c hc
    rw [same, here] at hr
    obtain rfl := Option.some.inj hr
    rw [stage] at ended
    obtain rfl : c.ending = ending := Option.some.inj ended
    rw [same, told]
  · rw [length]
    exact Nat.le_trans (reach_steps_le reach) s.progress_le

/-- Whatever the camera answers and in whatever order the runs take their steps, every request is
completed once when nothing can happen any more, and the runs can always be brought there. Any
other course of as many requests, with any other camera, completes the same requests. -/
theorem every_request_is_completed_once
    (reach : Reach world (openedOn camera bound files) events s) :
    s.CompletedOnce world events ∧
      (∃ (more : List Event) (last : Studio σ), more.filterMap Event.request? = [] ∧
        Reach world (openedOn camera bound files) (events ++ more) last ∧ last.AtRest world) ∧
      ∀ {τ : Type} (world' : World τ) (camera' : τ) bound' files' events' (s' : Studio τ),
        Reach world' (openedOn camera' bound' files') events' s' →
        (events'.filterMap Event.request?).length = (events.filterMap Event.request?).length →
        s.AtRest world → s'.AtRest world' →
        (s'.completions.map (·.run)).Perm (s.completions.map (·.run)) := by
  have completed := reach_completedOnce reach
  refine ⟨completed, reach.rest, ?_⟩
  intro τ world' camera' bound' files' events' s' reach' same rest rest'
  have theirs := (reach_completedOnce reach').all rest'
  rw [same] at theirs
  exact theirs.trans (completed.all rest).symm

/-- A studio whose camera crashes whenever it is asked for. -/
def crashing : World (Camera.Faulty Camera.State) where
  device := Camera.Faulty.device [⟨.bind, none, .crashed "lost"⟩] Camera.Stub.device
  policy := .exclusive
  directory := "photos"
  opening := ⟨0, false⟩
  offset := .zero

theorem both_completed_after_crashes :
    ∃ s, Reach crashing (openedOn ⟨{}, []⟩ none .root)
        [.request .standard, .request .standard, .act 0, .act 1, .act 1, .act 0] s ∧
      s.AtRest crashing ∧
      s.CompletedOnce crashing
        [.request .standard, .request .standard, .act 0, .act 1, .act 1, .act 0] := by
  have reach : Reach crashing (openedOn ⟨{}, []⟩ none .root)
      [.request .standard, .request .standard, .act 0, .act 1, .act 1, .act 0] _ :=
    .next (.next (.next (.next (.next (.next .start rfl) rfl) rfl) rfl) rfl) rfl
  refine ⟨_, reach, ?_, (every_request_is_completed_once reach).1⟩
  intro time i _
  match i with
  | 0 => rfl
  | 1 => rfl
  | i + 2 => rfl

end PhotoCapture.Studio
