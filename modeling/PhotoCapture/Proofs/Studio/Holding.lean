import PhotoCapture.Proofs.Session.Queue
import PhotoCapture.Proofs.Studio.Reach

namespace PhotoCapture

/-- Whether a run at a stage holds the session or waits for it. -/
def Stage.wants (policy : Session.Policy) : Stage → Bool
  | .binding | .lighting | .zooming | .preparing | .capturing _ => true
  | .counting _ => policy = .exclusive
  | .ended _ | .delivered _ => false

/-- Whether a run at a stage holds the session and nobody else does. -/
def Stage.keeps (policy : Session.Policy) : Stage → Bool
  | .lighting | .zooming | .capturing _ => true
  | .counting _ | .preparing => policy = .exclusive
  | .binding | .ended _ | .delivered _ => false

theorem Stage.ending?_of_wants {policy : Session.Policy} {stage : Stage}
    (wants : stage.wants policy = true) : stage.ending? = none := by
  cases stage with
  | ended | delivered => simp [Stage.wants] at wants
  | _ => rfl

namespace Studio

open Session (Entry Lock)

variable {σ : Type} {world : World σ} {start s s' : Studio σ} {i j : Nat} {run run' : Run}
  {entries : List Entry} {lock : Lock Nat} {completions : List Completion} {events : List Event}
  {camera : σ} {bound : Option Facing} {files : Files}

theorem Turn.lock_cases (turn : Turn world s i run entries run' lock completions) :
    lock = s.lock ∧ run'.stage.wants world.policy = run.stage.wants world.policy ∨
      lock = s.lock.release i ∧ s.lock.holder = some i ∧
        run'.stage.wants world.policy = false ∨
      world.policy = .unsynchronized ∧ lock = s.lock.ask i ∧
        run.stage.wants world.policy = false ∧ run'.stage.wants world.policy = true := by
  cases turn with
  | bound _ stage | lit _ stage | prepared _ stage | delivered stage =>
    exact Or.inl ⟨rfl, by simp [stage, Stage.wants]⟩
  | zoomed _ stage => exact Or.inl ⟨rfl, by simp [stage, Stage.wants]⟩
  | bindRefused holds | bindCrashed holds | lightCrashed holds | zoomCrashed holds
  | unprepared holds | captured holds => exact Or.inr (Or.inl ⟨rfl, holds, rfl⟩)
  | timed holds stage =>
    cases hp : world.policy with
    | exclusive => exact Or.inl ⟨rfl, by simp [stage, Stage.wants]⟩
    | unsynchronized => exact Or.inr (Or.inl ⟨rfl, holds, rfl⟩)
  | expired stage =>
    cases hp : world.policy with
    | exclusive => exact Or.inl ⟨rfl, by simp [stage, Stage.wants]⟩
    | unsynchronized => exact Or.inr (Or.inr ⟨rfl, rfl, by simp [stage, Stage.wants], rfl⟩)

/-- The queue for the session holds the runs that want it. -/
structure Queued (policy : Session.Policy) (s : Studio σ) : Prop where
  sound : s.lock.Sound
  known : ∀ i ∈ s.lock.queue, i < s.runs.length
  wants : ∀ (i : Nat) run, s.runs[i]? = some run →
    (i ∈ s.lock.queue ↔ run.stage.wants policy = true)

theorem Queued.requested {policy : Session.Policy} (queued : s.Queued policy)
    (request : Request) : (s.requested request).Queued policy := by
  have fresh : s.runs.length ∉ s.lock.queue := fun h => by simpa using queued.known _ h
  have queue : (s.requested request).lock.queue = s.lock.queue ++ [s.runs.length] :=
    Lock.ask_queue queued.sound fresh
  refine ⟨Lock.ask_sound queued.sound fresh, ?_, ?_⟩
  · intro i hi
    rw [queue] at hi
    rcases List.mem_append.mp hi with hi | hi
    · have := queued.known i hi
      simp only [Studio.requested, List.length_append, List.length_singleton]
      omega
    · simp [List.mem_singleton.mp hi, Studio.requested]
  · intro i run here
    rw [queue]
    rcases requested_cases here with ⟨rfl, rfl⟩ | here
    · simp [Stage.wants]
    · have old := Nat.ne_of_lt (List.getElem?_eq_some_iff.mp here).1
      simp [old, queued.wants i run here]

theorem Queued.advances (queued : s.Queued world.policy) (here : s.runs[i]? = some run)
    (advances : Advances world s s' i run entries run') : s'.Queued world.policy := by
  have hi := (List.getElem?_eq_some_iff.mp here).1
  have length := advances.length
  have wanted := queued.wants i run here
  rcases advances.turn.lock_cases with ⟨lock, same⟩ | ⟨lock, holds, gone⟩ | ⟨-, lock, calm, back⟩
  · refine ⟨lock ▸ queued.sound, by simpa [lock, length] using queued.known, ?_⟩
    intro j r there
    rcases advances.run_cases here there with ⟨rfl, rfl⟩ | ⟨-, there⟩
    · rw [lock, same, wanted]
    · rw [lock, queued.wants j r there]
  · refine ⟨lock ▸ Lock.release_sound queued.sound holds, ?_, ?_⟩
    · intro j hj
      rw [lock, Lock.mem_release_iff queued.sound holds] at hj
      exact length ▸ queued.known j hj.1
    · intro j r there
      rw [lock, Lock.mem_release_iff queued.sound holds]
      rcases advances.run_cases here there with ⟨rfl, rfl⟩ | ⟨other, there⟩
      · simp [gone]
      · simp [other, queued.wants j r there]
  · have out : i ∉ s.lock.queue := by simp [wanted, calm]
    refine ⟨lock ▸ Lock.ask_sound queued.sound out, ?_, ?_⟩
    · intro j hj
      rw [lock, Lock.ask_queue queued.sound out] at hj
      rcases List.mem_append.mp hj with hj | hj
      · exact length ▸ queued.known j hj
      · exact length ▸ List.mem_singleton.mp hj ▸ hi
    · intro j r there
      rw [lock, Lock.ask_queue queued.sound out]
      rcases advances.run_cases here there with ⟨rfl, rfl⟩ | ⟨other, there⟩
      · simp [back]
      · simp [other, queued.wants j r there]

theorem reach_queued (reach : Reach world (openedOn camera bound files) events s) :
    s.Queued world.policy := by
  apply reach.induction (P := fun _ s => s.Queued world.policy)
  · exact ⟨Lock.sound_free, by simp [openedOn, Lock.queue], by simp [openedOn]⟩
  · intro _ _ _ _ _ ih change
    cases change with
    | request request => exact ih.requested request
    | advance later => exact ⟨ih.sound, ih.known, ih.wants⟩
    | act here advances => exact ih.advances here advances

/-- A run that keeps the session holds it. -/
def Held (policy : Session.Policy) (s : Studio σ) : Prop :=
  ∀ (i : Nat) run, s.runs[i]? = some run → run.stage.keeps policy = true →
    s.lock.holder = some i

theorem Turn.holds_cases (turn : Turn world s i run entries run' lock completions) :
    s.lock.holder = some i ∨ (∃ due, run.stage = .counting due) ∨
      ∃ ending, run.stage = .ended ending ∧ entries = [] ∧ lock = s.lock ∧
        run' = { run with stage := .delivered ending } := by
  cases turn with
  | bound holds | bindRefused holds | bindCrashed holds | lit holds | lightCrashed holds
  | zoomed holds | timed holds | zoomCrashed holds | prepared holds | unprepared holds
  | captured holds => exact Or.inl holds
  | expired stage => exact Or.inr (Or.inl ⟨_, stage⟩)
  | delivered stage => exact Or.inr (Or.inr ⟨_, stage, rfl, rfl, rfl⟩)

theorem Turn.keeps (turn : Turn world s i run entries run' lock completions)
    (keeps : run'.stage.keeps world.policy = true) :
    lock = s.lock ∧ (s.lock.holder = some i ∨ run.stage.keeps world.policy = true) := by
  cases turn with
  | bound holds | lit holds | zoomed holds | prepared holds => exact ⟨rfl, Or.inl holds⟩
  | bindRefused | bindCrashed | lightCrashed | zoomCrashed | unprepared | captured | delivered =>
    simp [Stage.keeps] at keeps
  | timed holds =>
    cases hp : world.policy with
    | exclusive => exact ⟨rfl, Or.inl holds⟩
    | unsynchronized => simp [Stage.keeps, hp] at keeps
  | expired stage =>
    cases hp : world.policy with
    | exclusive => exact ⟨rfl, Or.inr (by simp [stage, Stage.keeps])⟩
    | unsynchronized => simp [Stage.keeps, hp] at keeps

/-- While another run holds the session, a turn leaves it to that run. -/
theorem Turn.holder_kept (turn : Turn world s i run entries run' lock completions)
    (holds : s.lock.holder = some j) (other : j ≠ i) : lock.holder = some j := by
  rcases turn.lock_cases with ⟨rfl, -⟩ | ⟨-, mine, -⟩ | ⟨-, rfl, -⟩
  · exact holds
  · rw [holds] at mine
    exact absurd (Option.some.inj mine) other
  · exact Lock.ask_holder holds i

theorem holds_requested {p : Run → Bool}
    (held : ∀ (i : Nat) run, s.runs[i]? = some run → p run = true → s.lock.holder = some i)
    (request : Request) (fresh : p { request := request } = false) :
    ∀ (i : Nat) run, (s.requested request).runs[i]? = some run → p run = true →
      (s.requested request).lock.holder = some i := by
  intro i run here keep
  rcases requested_cases here with ⟨rfl, rfl⟩ | here
  · rw [fresh] at keep
    cases keep
  · exact Lock.ask_holder (held i run here keep) s.runs.length

theorem Advances.holds {p : Run → Bool}
    (held : ∀ (i : Nat) run, s.runs[i]? = some run → p run = true → s.lock.holder = some i)
    (here : s.runs[i]? = some run) (advances : Advances world s s' i run entries run')
    (kept : p run' = true →
      s'.lock = s.lock ∧ (s.lock.holder = some i ∨ p run = true)) :
    ∀ (j : Nat) r, s'.runs[j]? = some r → p r = true → s'.lock.holder = some j := by
  intro j r there keep
  rcases advances.run_cases here there with ⟨rfl, rfl⟩ | ⟨other, there⟩
  · obtain ⟨lock, holds | before⟩ := kept keep
    · rw [lock, holds]
    · rw [lock, held j run here before]
  · exact advances.turn.holder_kept (held j r there keep) other

theorem Held.requested {policy : Session.Policy} (held : s.Held policy) (request : Request) :
    (s.requested request).Held policy :=
  holds_requested (p := fun run => run.stage.keeps policy) held request rfl

theorem Held.advances (held : s.Held world.policy) (here : s.runs[i]? = some run)
    (advances : Advances world s s' i run entries run') : s'.Held world.policy :=
  Advances.holds (p := fun run => run.stage.keeps world.policy) held here advances
    advances.turn.keeps

theorem reach_held (reach : Reach world (openedOn camera bound files) events s) :
    s.Held world.policy := by
  apply reach.induction (P := fun _ s => s.Held world.policy)
  · intro i run here
    simp [openedOn] at here
  · intro _ _ _ _ _ ih change
    cases change with
    | request request => exact ih.requested request
    | advance later => exact ih
    | act here advances => exact ih.advances here advances

end Studio

end PhotoCapture
