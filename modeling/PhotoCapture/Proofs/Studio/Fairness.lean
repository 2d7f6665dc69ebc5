import PhotoCapture.Proofs.Studio.Holding

namespace PhotoCapture

def Stage.isCounting : Stage → Bool
  | .counting _ => true
  | _ => false

namespace Studio

open Session (Entry Lock)

variable {σ : Type} {world : World σ} {start s s' : Studio σ} {i : Nat} {run run' : Run}
  {entries : List Entry} {lock : Lock Nat} {completions : List Completion} {events : List Event}
  {camera : σ} {bound : Option Facing} {files : Files}

/-- What is told by the events of a course, one after the other. -/
def along {α : Type} (world : World σ) (tell : Studio σ → Event → Studio σ → Option α) :
    Studio σ → List Event → List α
  | _, [] => []
  | s, event :: events =>
    match s.next? world event with
    | none => []
    | some s' => (tell s event s').toList ++ along world tell s' events

theorem along_concat {α : Type} {tell : Studio σ → Event → Studio σ → Option α} {event : Event}
    (reach : Reach world start events s) (next : s.next? world event = some s') :
    along world tell start (events ++ [event]) =
      along world tell start events ++ (tell s event s').toList := by
  have ran := reach_iff_after?.mp reach
  clear reach
  induction events generalizing start with
  | nil =>
    obtain rfl : start = s := Option.some.inj ran
    simp [along, next]
  | cons first events ih =>
    obtain ⟨middle, step, rest⟩ := Option.bind_eq_some_iff.mp ran
    simp only [List.cons_append, along, step, ih rest, List.append_assoc]

/-- The run that asks for the session at an event: a new run, or one that has given the session up
for its timer. -/
def asker? (policy : Session.Policy) (s : Studio σ) : Event → Option Nat
  | .request _ => some s.runs.length
  | .advance _ => none
  | .act i =>
    if policy = .unsynchronized ∧ s.runs[i]?.any (·.stage.isCounting) then some i else none

def asks (world : World σ) : Studio σ → List Event → List Nat :=
  along world fun s event _ => s.asker? world.policy event

def grants (world : World σ) : Studio σ → List Event → List Nat :=
  along world fun s _ s' => s.lock.passedTo s'.lock

theorem asker?_of_turn (here : s.runs[i]? = some run)
    (turn : Turn world s i run entries run' lock completions) :
    (lock = s.lock ∨ lock = s.lock.release i ∧ s.lock.holder = some i) ∧
        s.asker? world.policy (.act i) = none ∨
      lock = s.lock.ask i ∧ s.asker? world.policy (.act i) = some i ∧
        run.stage.wants world.policy = false := by
  cases turn with
  | bound _ stage | lit _ stage | zoomed _ stage | prepared _ stage | delivered stage =>
    exact Or.inl ⟨Or.inl rfl, by simp [asker?, here, stage, Stage.isCounting]⟩
  | bindRefused holds stage | bindCrashed holds stage | lightCrashed holds stage
  | zoomCrashed holds stage | unprepared holds stage | captured holds stage =>
    exact Or.inl ⟨Or.inr ⟨rfl, holds⟩, by simp [asker?, here, stage, Stage.isCounting]⟩
  | timed holds stage =>
    have silent : s.asker? world.policy (.act i) = none := by
      simp [asker?, here, stage, Stage.isCounting]
    cases policy : world.policy with
    | exclusive => exact Or.inl ⟨Or.inl rfl, policy ▸ silent⟩
    | unsynchronized => exact Or.inl ⟨Or.inr ⟨rfl, holds⟩, policy ▸ silent⟩
  | expired stage =>
    cases policy : world.policy with
    | exclusive => exact Or.inl ⟨Or.inl rfl, by simp [asker?]⟩
    | unsynchronized =>
      have asks : s.asker? .unsynchronized (.act i) = some i := by
        simp [asker?, here, stage, Stage.isCounting]
      exact Or.inr ⟨rfl, asks, by simp [stage, Stage.wants]⟩

/-- At every event, those who wait and the one who asks are the one who gets the session and those
who wait then, in this order. -/
theorem Change.waiting {event : Event} (queued : s.Queued world.policy)
    (change : Change world s event s') :
    s.lock.waiting ++ (s.asker? world.policy event).toList =
      (s.lock.passedTo s'.lock).toList ++ s'.lock.waiting := by
  cases change with
  | request request =>
    have fresh : s.runs.length ∉ s.lock.queue := fun h => by simpa using queued.known _ h
    exact Lock.ask_passedTo queued.sound fresh
  | advance later => simp [asker?, Lock.passedTo_self]
  | @act i run entries run' _ here advances =>
    rcases asker?_of_turn here advances.turn with
      ⟨same | ⟨given, holds⟩, silent⟩ | ⟨asked, asker, calm⟩
    · simp [same, silent, Lock.passedTo_self]
    · rw [given, silent, Option.toList_none, List.append_nil]
      exact Lock.release_passedTo queued.sound holds
    · have out : i ∉ s.lock.queue := by simp [queued.wants i run here, calm]
      rw [asked, asker]
      exact Lock.ask_passedTo queued.sound out

theorem reach_fair (reach : Reach world (openedOn camera bound files) events s) :
    asks world (openedOn camera bound files) events =
      grants world (openedOn camera bound files) events ++ s.lock.waiting := by
  induction reach with
  | start => rfl
  | @next events event s s' reach next ih =>
    have waiting := (next_change next).waiting (reach_queued reach)
    rw [asks, along_concat reach next, grants, along_concat reach next, List.append_assoc,
      ← waiting, ← List.append_assoc]
    exact congrArg (· ++ _) ih

end Studio

end PhotoCapture
