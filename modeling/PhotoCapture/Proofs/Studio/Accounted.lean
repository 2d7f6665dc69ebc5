import PhotoCapture.Proofs.Studio.Reach
import Mathlib.Data.List.Nodup

namespace PhotoCapture.Studio

open Session (Entry)

variable {σ : Type} {world : World σ} {start s s' : Studio σ} {i j : Nat} {run run' : Run}
  {entries : List Entry} {lock : Session.Lock Nat} {completions : List Completion}
  {events : List Event} {camera : σ} {bound : Option Facing} {files : Files}

theorem Turn.ending_kept {ending : Ending}
    (turn : Turn world s i run entries run' lock completions)
    (h : run.stage.ending? = some ending) : run'.stage.ending? = some ending := by
  cases turn with
  | delivered stage =>
    rw [stage] at h
    exact h
  | bound _ stage | bindRefused _ stage | bindCrashed _ stage | lit _ stage
  | lightCrashed _ stage | zoomed _ stage | timed _ stage | zoomCrashed _ stage | expired stage
  | prepared _ stage | unprepared _ stage | captured _ stage =>
    rw [stage] at h
    cases h

/-- A crash ends the run, also a crash of the work on the photo, and the run tells of it. -/
theorem Turn.crash {e : Entry} {message : String}
    (turn : Turn world s i run entries run' lock completions) (he : e ∈ entries)
    (crash : e.reply = .crashed message) :
    ∃ ending, run'.stage.ending? = some ending ∧
      ending.outcome i = .failed (.worker (Session.brokenOff i message)) := by
  cases turn with
  | bound _ _ asked agreed =>
    cases asked with
    | kept => simp at he
    | brokenOff => simp at agreed
    | answered _ _ sound _ =>
      rcases List.mem_pair.mp he with rfl | rfl
      · exact absurd crash (sound message)
      · simp [crash] at agreed
  | bindRefused _ _ asked =>
    generalize hw : Session.Binding.asked (.refused _) = how at asked
    cases asked with
    | kept => simp at he
    | brokenOff => simp at hw
    | answered _ _ sound _ =>
      rcases List.mem_pair.mp he with rfl | rfl
      · exact absurd crash (sound message)
      · simp [crash] at hw
  | @bindCrashed _ told _ _ asked =>
    generalize hw : Session.Binding.asked (.crashed told) = how at asked
    have same : told = message := by
      cases asked with
      | kept => simp at he
      | brokenOff _ _ broken =>
        rw [List.mem_singleton.mp he, broken] at crash
        simp_all
      | answered _ _ sound _ =>
        rcases List.mem_pair.mp he with rfl | rfl
        · exact absurd crash (sound message)
        · simpa [crash] using hw
    exact ⟨_, rfl, by rw [same]; rfl⟩
  | lit _ _ passed sound => exact absurd ((passed.mem he).2.2.symm.trans crash) (sound message)
  | zoomed _ _ passed sound => exact absurd ((passed.mem he).2.2.symm.trans crash) (sound message)
  | timed _ _ passed sound => exact absurd ((passed.mem he).2.2.symm.trans crash) (sound message)
  | lightCrashed _ _ passed =>
    obtain rfl := Camera.Reply.crashed.inj ((passed.mem he).2.2.symm.trans crash)
    exact ⟨_, rfl, rfl⟩
  | zoomCrashed _ _ passed =>
    obtain rfl := Camera.Reply.crashed.inj ((passed.mem he).2.2.symm.trans crash)
    exact ⟨_, rfl, rfl⟩
  | captured _ _ passed =>
    obtain rfl := (passed.mem he).2.2.symm.trans crash
    exact ⟨_, rfl, rfl⟩
  | expired | prepared | unprepared | delivered => simp at he

/-- The completions are the endings that were delivered, and whoever met a crash has ended with
it. -/
structure Accounted (s : Studio σ) : Prop where
  once : (s.completions.map (·.run)).Nodup
  delivered : ∀ c ∈ s.completions, ∃ run, s.runs[c.run]? = some run ∧
    run.stage = .delivered c.ending
  completed : ∀ (i : Nat) run, s.runs[i]? = some run → ∀ ending, run.stage = .delivered ending →
    i ∈ s.completions.map (·.run)
  crashed : ∀ e ∈ s.session.log, ∀ message, e.reply = .crashed message →
    ∃ run ending, s.runs[e.client]? = some run ∧ run.stage.ending? = some ending ∧
      ending.outcome e.client = .failed (.worker (Session.brokenOff e.client message))

theorem Turn.completions_cases (turn : Turn world s i run entries run' lock completions) :
    (completions = s.completions ∧ (∀ ending, run.stage ≠ .delivered ending) ∧
        ∀ ending, run'.stage ≠ .delivered ending) ∨
      ∃ ending, run.stage = .ended ending ∧ run'.stage = .delivered ending ∧
        completions = s.completions ++ [⟨i, s.now, ending⟩] := by
  cases turn with
  | delivered stage => exact Or.inr ⟨_, stage, rfl, rfl⟩
  | bound _ stage | bindRefused _ stage | bindCrashed _ stage | lit _ stage
  | lightCrashed _ stage | zoomed _ stage | timed _ stage | zoomCrashed _ stage | expired stage
  | prepared _ stage | unprepared _ stage | captured _ stage =>
    exact Or.inl ⟨rfl, by simp [stage], by simp⟩

theorem Accounted.requested (accounted : s.Accounted) (request : Request) :
    (s.requested request).Accounted := by
  refine ⟨accounted.once, ?_, ?_, ?_⟩
  · intro c hc
    obtain ⟨run, here, stage⟩ := accounted.delivered c hc
    exact ⟨run, requested_of_getElem? here request, stage⟩
  · intro i run here ending stage
    rcases requested_cases here with ⟨-, rfl⟩ | here
    · cases stage
    · exact accounted.completed i run here ending stage
  · intro e he message crash
    obtain ⟨run, ending, here, stage, told⟩ := accounted.crashed e he message crash
    exact ⟨run, ending, requested_of_getElem? here request, stage, told⟩

theorem Accounted.advances (accounted : s.Accounted) (here : s.runs[i]? = some run)
    (advances : Advances world s s' i run entries run') : s'.Accounted := by
  have turn := advances.turn
  have crashed : ∀ e ∈ s'.session.log, ∀ message, e.reply = .crashed message →
      ∃ run ending, s'.runs[e.client]? = some run ∧ run.stage.ending? = some ending ∧
        ending.outcome e.client = .failed (.worker (Session.brokenOff e.client message)) := by
    intro e he message crash
    rw [advances.session.log] at he
    rw [advances.getElem? here]
    rcases List.mem_append.mp he with he | he
    · obtain ⟨r, ending, hr, stage, told⟩ := accounted.crashed e he message crash
      split
      next same =>
        rw [same, here] at hr
        obtain rfl := Option.some.inj hr
        exact ⟨run', ending, rfl, turn.ending_kept stage, told⟩
      next => exact ⟨r, ending, hr, stage, told⟩
    · obtain ⟨ending, stage, told⟩ := turn.crash he crash
      have same : e.client = i := (advances.session.stamped e he).2
      rw [if_pos same, same]
      exact ⟨run', ending, rfl, stage, told⟩
  rcases turn.completions_cases with ⟨hc, before, after⟩ | ⟨ending, before, after, hc⟩
  · refine ⟨hc ▸ accounted.once, ?_, ?_, crashed⟩
    · intro c hm
      obtain ⟨r, hr, stage⟩ := accounted.delivered c (hc ▸ hm)
      have other : c.run ≠ i := by
        intro same
        rw [same, here] at hr
        obtain rfl := Option.some.inj hr
        exact before _ stage
      exact ⟨r, by rw [advances.getElem? here, if_neg other, hr], stage⟩
    · intro j r there x stage
      rw [hc]
      rcases advances.run_cases here there with ⟨-, rfl⟩ | ⟨-, there⟩
      · exact absurd stage (after x)
      · exact accounted.completed j r there x stage
  · have fresh : i ∉ s.completions.map (·.run) := by
      intro hm
      obtain ⟨c, given, rfl⟩ := List.mem_map.mp hm
      obtain ⟨r, hr, stage⟩ := accounted.delivered c given
      obtain rfl := Option.some.inj (hr.symm.trans here)
      rw [before] at stage
      cases stage
    refine ⟨?_, ?_, ?_, crashed⟩
    · rw [hc, List.map_append, List.nodup_append]
      refine ⟨accounted.once, by simp, ?_⟩
      rintro j hj k hk rfl
      have same : j = i := by simpa using hk
      exact fresh (same ▸ hj)
    · intro c hm
      rw [advances.getElem? here]
      rw [hc] at hm
      rcases List.mem_append.mp hm with hm | hm
      · obtain ⟨r, hr, stage⟩ := accounted.delivered c hm
        have other : c.run ≠ i := fun same => fresh (same ▸ List.mem_map_of_mem hm)
        exact ⟨r, by rw [if_neg other, hr], stage⟩
      · rw [List.mem_singleton.mp hm]
        exact ⟨run', by simp, after⟩
    · intro j r there x stage
      rw [hc, List.map_append]
      rcases advances.run_cases here there with ⟨rfl, -⟩ | ⟨-, there⟩
      · exact List.mem_append_right _ (List.mem_singleton_self j)
      · exact List.mem_append_left _ (accounted.completed j r there x stage)

theorem Accounted.known (accounted : s.Accounted) :
    ∀ i ∈ s.completions.map (·.run), i < s.runs.length := by
  intro i hi
  obtain ⟨c, given, rfl⟩ := List.mem_map.mp hi
  obtain ⟨run, here, -⟩ := accounted.delivered c given
  exact (List.getElem?_eq_some_iff.mp here).1

theorem reach_accounted (reach : Reach world (openedOn camera bound files) events s) :
    s.Accounted := by
  apply reach.induction (P := fun _ s => s.Accounted)
  · exact ⟨by simp [openedOn], by simp [openedOn], by simp [openedOn], by simp [openedOn]⟩
  · intro _ _ _ _ _ ih change
    cases change with
    | request request => exact ih.requested request
    | advance later => exact ⟨ih.once, ih.delivered, ih.completed, ih.crashed⟩
    | act here advances => exact ih.advances here advances

end PhotoCapture.Studio
