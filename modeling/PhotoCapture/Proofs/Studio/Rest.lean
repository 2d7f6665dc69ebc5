import PhotoCapture.Proofs.Studio.Accounted
import PhotoCapture.Proofs.Studio.Holding
import Mathlib.Algebra.GroupWithZero.Nat

namespace PhotoCapture

/-- How far a run has come: it takes at most so many steps to a stage, and at least one from any
stage to the next. -/
def Stage.rank : Stage → Nat
  | .binding => 0
  | .lighting => 1
  | .zooming => 2
  | .counting _ => 3
  | .preparing => 4
  | .capturing _ => 5
  | .ended _ => 6
  | .delivered _ => 7

theorem Stage.rank_le (stage : Stage) : stage.rank ≤ 7 := by cases stage <;> simp [Stage.rank]

namespace Studio

open Session (Entry)

variable {σ : Type} {world : World σ} {start s s' : Studio σ} {i j : Nat} {run run' : Run}
  {entries : List Entry} {lock : Session.Lock Nat} {completions : List Completion}
  {events : List Event} {camera : σ} {bound : Option Facing} {files : Files}

/-- No run can take a step, now or when time passes. -/
def AtRest (world : World σ) (s : Studio σ) : Prop :=
  ∀ time i, s.now ≤ time → ({ s with now := time } : Studio σ).next? world (.act i) = none

theorem act_of_holds {policy : Session.Policy} (here : s.runs[i]? = some run)
    (holds : s.lock.holder = some i) (wants : run.stage.wants policy = true) :
    ∃ time, s.now ≤ time ∧
      ({ s with now := time } : Studio σ).next? world (.act i) ≠ none := by
  cases stage : run.stage with
  | counting due =>
    refine ⟨max s.now due, by omega, ?_⟩
    have late : due ≤ max s.now due := by omega
    simp [Studio.next?, here, Studio.act?, stage, late]
  | ended | delivered => simp [stage, Stage.wants] at wants
  | binding | lighting | zooming | preparing | capturing =>
    refine ⟨s.now, Nat.le_refl _, ?_⟩
    simp [Studio.next?, here, Studio.act?, Studio.actHolding?, stage, holds]

theorem exists_act (queued : s.Queued world.policy) (here : s.runs[i]? = some run)
    (undelivered : ∀ ending, run.stage ≠ .delivered ending) :
    ∃ time j, s.now ≤ time ∧
      ({ s with now := time } : Studio σ).next? world (.act j) ≠ none := by
  -- a run that wants the session waits for its holder, which can always go on
  by_cases wants : run.stage.wants world.policy = true
  · have hi := (queued.wants i run here).mpr wants
    obtain ⟨j, hj⟩ : ∃ j, s.lock.queue.head? = some j := by
      cases hq : s.lock.queue with
      | nil => simp [hq] at hi
      | cons j rest => exact ⟨j, rfl⟩
    have holds := queued.sound.holder_eq_head?.trans hj
    have known := queued.known j (Session.Lock.holder_mem holds)
    have there := List.getElem?_eq_getElem known
    have wants := (queued.wants j _ there).mp (Session.Lock.holder_mem holds)
    obtain ⟨time, later, act⟩ := act_of_holds there holds wants
    exact ⟨time, j, later, act⟩
  · cases stage : run.stage with
    | counting due =>
      refine ⟨max s.now due, i, by omega, ?_⟩
      have late : due ≤ max s.now due := by omega
      simp [Studio.next?, here, Studio.act?, stage, late]
    | ended ending =>
      refine ⟨s.now, i, Nat.le_refl _, ?_⟩
      simp [Studio.next?, here, Studio.act?, stage]
    | delivered ending => exact absurd stage (undelivered ending)
    | binding | lighting | zooming | preparing | capturing => simp [stage, Stage.wants] at wants

theorem AtRest.delivered (rest : s.AtRest world) (queued : s.Queued world.policy) :
    ∀ run ∈ s.runs, ∃ ending, run.stage = .delivered ending := by
  intro run hr
  obtain ⟨i, here⟩ := List.getElem?_of_mem hr
  by_contra undelivered
  obtain ⟨time, j, later, act⟩ := exists_act queued here fun ending stage =>
    undelivered ⟨ending, stage⟩
  exact act (rest time j later)

theorem atRest_of_delivered (delivered : ∀ run ∈ s.runs, ∃ ending, run.stage = .delivered ending) :
    s.AtRest world := by
  intro time i _
  cases here : s.runs[i]? with
  | none => simp [Studio.next?, here]
  | some run =>
    obtain ⟨ending, stage⟩ := delivered run (List.mem_of_getElem? here)
    simp [Studio.next?, here, Studio.act?, Studio.actHolding?, stage]

theorem atRest_of_ranks {n : Nat} (ranks : s.runs.map (·.stage.rank) = .replicate n 7) :
    s.AtRest world := by
  refine atRest_of_delivered fun run hr => ?_
  have rank : run.stage.rank ∈ List.replicate n 7 := ranks ▸ List.mem_map_of_mem hr
  have last := List.eq_of_mem_replicate rank
  cases stage : run.stage with
  | delivered ending => exact ⟨ending, rfl⟩
  | _ => simp [stage, Stage.rank] at last

theorem atRest_completed (queued : s.Queued world.policy) (accounted : s.Accounted)
    (rest : s.AtRest world) (hi : i < s.runs.length) : i ∈ s.completions.map (·.run) := by
  obtain ⟨ending, stage⟩ := rest.delivered queued _ (List.getElem_mem hi)
  exact accounted.completed i _ (List.getElem?_eq_getElem hi) ending stage

theorem atRest_perm (queued : s.Queued world.policy) (accounted : s.Accounted)
    (rest : s.AtRest world) : (s.completions.map (·.run)).Perm (List.range s.runs.length) := by
  rw [List.perm_ext_iff_of_nodup accounted.once List.nodup_range]
  intro i
  rw [List.mem_range]
  exact ⟨accounted.known i, atRest_completed queued accounted rest⟩

theorem Turn.rank_lt (turn : Turn world s i run entries run' lock completions) :
    run.stage.rank < run'.stage.rank := by
  cases turn with
  | bound _ stage | bindRefused _ stage | bindCrashed _ stage | lit _ stage
  | lightCrashed _ stage | zoomed _ stage | timed _ stage | zoomCrashed _ stage | expired stage
  | prepared _ stage | unprepared _ stage | captured _ stage | delivered stage =>
    simp [stage, Stage.rank]

def progress (s : Studio σ) : Nat := (s.runs.map fun run => run.stage.rank).sum

theorem progress_le (s : Studio σ) : s.progress ≤ 7 * s.runs.length := by
  unfold progress
  induction s.runs with
  | nil => simp
  | cons run runs ih =>
    have := run.stage.rank_le
    simp only [List.map_cons, List.sum_cons, List.length_cons]
    omega

theorem Advances.progress_lt (advances : Advances world s s' i run entries run')
    (here : s.runs[i]? = some run) : s.progress < s'.progress := by
  obtain ⟨hi, rfl⟩ := List.getElem?_eq_some_iff.mp here
  have more := advances.turn.rank_lt
  obtain ⟨before, after, hs, -, hs'⟩ := @List.exists_of_set Run i run' s.runs hi
  rw [progress, progress, advances.runs, hs']
  nth_rewrite 1 [hs]
  simp only [List.map_append, List.map_cons, List.sum_append, List.sum_cons]
  omega

def Event.isAct : Event → Bool
  | .act _ => true
  | _ => false

theorem reach_steps_le (reach : Reach world (openedOn camera bound files) events s) :
    events.countP Event.isAct ≤ s.progress := by
  apply reach.induction (P := fun events s => events.countP Event.isAct ≤ s.progress)
  · simp
  · intro _ _ _ _ _ ih change
    rw [List.countP_append, List.countP_singleton]
    cases change with
    | request request =>
      simpa [Event.isAct, Studio.requested, progress, Stage.rank] using ih
    | advance later => simpa [Event.isAct, progress] using ih
    | act here advances =>
      have := advances.progress_lt here
      simp only [Event.isAct, if_true]
      omega

theorem Reach.advance (reach : Reach world start events s) {time : Nat} (later : s.now ≤ time) :
    ∃ wait : List Event, wait.filterMap Event.request? = [] ∧
      Reach world start (events ++ wait) { s with now := time } := by
  by_cases same : time = s.now
  · subst same
    exact ⟨[], rfl, by simpa using reach⟩
  · have h : s.next? world (.advance time) = some { s with now := time } := by
      have : s.now < time := by omega
      simp [Studio.next?, this]
    exact ⟨[.advance time], rfl, reach.next h⟩

theorem Reach.rest (reach : Reach world (openedOn camera bound files) events s) :
    ∃ (more : List Event) (last : Studio σ), more.filterMap Event.request? = [] ∧
      Reach world (openedOn camera bound files) (events ++ more) last ∧ last.AtRest world := by
  -- induction on the steps that are left: whoever can step takes one, and time passes for that
  induction left : 7 * s.runs.length - s.progress using Nat.strongRecOn generalizing events s with
  | ind left' ih =>
    subst left
    by_cases rest : s.AtRest world
    · exact ⟨[], s, rfl, by simpa using reach, rest⟩
    · simp only [AtRest, not_forall] at rest
      obtain ⟨time, i, later, act⟩ := rest
      obtain ⟨s', h⟩ := Option.ne_none_iff_exists'.mp act
      obtain ⟨wait, silent, reached⟩ := reach.advance later
      have nearer : 7 * s'.runs.length - s'.progress < 7 * s.runs.length - s.progress := by
        cases next_change h with
        | act here advances =>
          have length : s'.runs.length = s.runs.length := advances.length
          have moved : s.progress < s'.progress := advances.progress_lt here
          have := s'.progress_le
          omega
      obtain ⟨more, last, silent', lasting, rest⟩ := ih _ nearer (reached.next h) rfl
      refine ⟨wait ++ (.act i :: more), last, ?_, by simpa using lasting, rest⟩
      rw [List.filterMap_append, silent]
      exact silent'

end Studio

end PhotoCapture
