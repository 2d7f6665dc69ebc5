import PhotoCapture.Proofs.Studio.Turn

namespace PhotoCapture

def Stage.ending? : Stage → Option Ending
  | .ended ending | .delivered ending => some ending
  | _ => none

namespace Studio

open Session (Entry Lock)

variable {σ : Type}

/-- A studio is reached from another by events in a row, each of which could happen. -/
inductive Reach (world : World σ) (start : Studio σ) : List Event → Studio σ → Prop
  | start : Reach world start [] start
  | next {events event s s'} : Reach world start events s → s.next? world event = some s' →
      Reach world start (events ++ [event]) s'

/-- A studio that opens with a camera for which the session has bound a facing already, or not. -/
def openedOn (camera : σ) (bound : Option Facing) (files : Files) : Studio σ :=
  { session := { camera := camera, bound := bound }, files := files }

def requested (s : Studio σ) (request : Request) : Studio σ :=
  { s with runs := s.runs ++ [{ request := request }], lock := s.lock.ask s.runs.length }

/-- What an event does to a studio. -/
inductive Change (world : World σ) (s : Studio σ) : Event → Studio σ → Prop
  | request (request) : Change world s (.request request) (s.requested request)
  | advance {time} (later : s.now < time) : Change world s (.advance time) { s with now := time }
  | act {i run entries run' s'} (here : s.runs[i]? = some run)
      (advances : Advances world s s' i run entries run') : Change world s (.act i) s'

variable {world : World σ} {start s s' : Studio σ} {i j : Nat} {run run' : Run}
  {entries : List Entry} {lock : Lock Nat} {completions : List Completion} {events : List Event}

theorem next_change {event : Event} (h : s.next? world event = some s') :
    Change world s event s' := by
  cases event with
  | request request =>
    obtain rfl : s.requested request = s' := Option.some.inj h
    exact .request request
  | advance time =>
    obtain ⟨later, rfl⟩ : s.now < time ∧ { s with now := time } = s' := by
      simpa [Studio.next?] using h
    exact .advance later
  | act i =>
    obtain ⟨run, here, h⟩ := Option.bind_eq_some_iff.mp h
    obtain ⟨entries, run', advances⟩ := act_advances h
    exact .act here advances

theorem Reach.induction {P : List Event → Studio σ → Prop} (reach : Reach world start events s)
    (first : P [] start)
    (step : ∀ {events event s s'}, Reach world start events s → P events s →
      Change world s event s' → P (events ++ [event]) s') : P events s := by
  induction reach with
  | start => exact first
  | next reach h ih => exact step reach ih (next_change h)

/-- The studio after events in a row, if each of them can happen. -/
def after? (world : World σ) (s : Studio σ) (events : List Event) : Option (Studio σ) :=
  events.foldlM (fun s event => s.next? world event) s

theorem after?_concat (world : World σ) (s : Studio σ) (events : List Event) (event : Event) :
    s.after? world (events ++ [event]) =
      (s.after? world events).bind fun s => s.next? world event := by
  simp [after?, List.foldlM_append]

theorem reach_iff_after? : Reach world start events s ↔ start.after? world events = some s := by
  constructor
  · intro reach
    induction reach with
    | start => rfl
    | next reach h ih => rw [after?_concat, ih, Option.bind_some, h]
  · intro h
    induction events using List.reverseRecOn generalizing s with
    | nil =>
      obtain rfl := Option.some.inj h
      exact .start
    | append_singleton events event ih =>
      rw [after?_concat] at h
      obtain ⟨s', before, last⟩ := Option.bind_eq_some_iff.mp h
      exact (ih before).next last

theorem Reach.split {earlier later : List Event} (reach : Reach world start (earlier ++ later) s) :
    ∃ middle, Reach world start earlier middle ∧ Reach world middle later s := by
  have ran := reach_iff_after?.mp reach
  rw [after?, List.foldlM_append] at ran
  obtain ⟨middle, first, last⟩ := Option.bind_eq_some_iff.mp ran
  exact ⟨middle, reach_iff_after?.mpr first, reach_iff_after?.mpr last⟩

theorem Reach.unique (reach : Reach world start events s) (other : Reach world start events s') :
    s = s' :=
  Option.some.inj ((reach_iff_after?.mp reach).symm.trans (reach_iff_after?.mp other))

def requests (s : Studio σ) : List Request := s.runs.map (·.request)

def Event.request? : Event → Option Request
  | .request r => some r
  | _ => none

theorem requested_getElem? (s : Studio σ) (request : Request) (j : Nat) :
    (s.requested request).runs[j]? =
      if j = s.runs.length then some { request := request } else s.runs[j]? := by
  simp only [requested, List.getElem?_append]
  rcases Nat.lt_trichotomy j s.runs.length with h | h | h
  · simp [h, Nat.ne_of_lt h]
  · simp [h]
  · have : j - s.runs.length ≠ 0 := by omega
    simp [Nat.not_lt.mpr (Nat.le_of_lt h), Nat.ne_of_gt h, this]

theorem requested_of_getElem? (here : s.runs[i]? = some run) (request : Request) :
    (s.requested request).runs[i]? = some run := by
  have := (List.getElem?_eq_some_iff.mp here).1
  rw [requested_getElem?, if_neg (Nat.ne_of_lt this), here]

theorem requested_cases {request : Request} (here : (s.requested request).runs[i]? = some run) :
    i = s.runs.length ∧ run = { request := request } ∨ s.runs[i]? = some run := by
  rw [requested_getElem?] at here
  split at here
  next last => exact Or.inl ⟨last, (Option.some.inj here).symm⟩
  next => exact Or.inr here

theorem requests_requested {made : Request} (h : s.requests[i]? = some made) (request : Request) :
    (s.requested request).requests[i]? = some made := by
  have := (List.getElem?_eq_some_iff.mp h).1
  rw [requests, requested, List.map_append]
  exact (List.getElem?_append_left this).trans h

theorem Turn.request_eq (turn : Turn world s i run entries run' lock completions) :
    run'.request = run.request := by cases turn <;> rfl

theorem Advances.getElem? (advances : Advances world s s' i run entries run')
    (here : s.runs[i]? = some run) (j : Nat) :
    s'.runs[j]? = if j = i then some run' else s.runs[j]? := by
  have hi := (List.getElem?_eq_some_iff.mp here).1
  rw [advances.runs]
  by_cases hj : j = i
  · simp [hj, hi]
  · simp [hj, List.getElem?_set_ne (Ne.symm hj)]

theorem Advances.mine (advances : Advances world s s' i run entries run')
    (here : s.runs[i]? = some run) : s'.runs[i]? = some run' := by
  rw [advances.getElem? here, if_pos rfl]

theorem Advances.run_cases {r : Run} (advances : Advances world s s' i run entries run')
    (here : s.runs[i]? = some run) (there : s'.runs[j]? = some r) :
    j = i ∧ r = run' ∨ j ≠ i ∧ s.runs[j]? = some r := by
  rw [advances.getElem? here] at there
  split at there
  next same => exact Or.inl ⟨same, (Option.some.inj there).symm⟩
  next other => exact Or.inr ⟨other, there⟩

theorem Advances.length (advances : Advances world s s' i run entries run') :
    s'.runs.length = s.runs.length := by simp [advances.runs]

theorem Advances.requests_eq (advances : Advances world s s' i run entries run')
    (here : s.runs[i]? = some run) : s'.requests = s.requests := by
  obtain ⟨hi, rfl⟩ := List.getElem?_eq_some_iff.mp here
  apply List.ext_getElem?
  intro j
  simp only [requests, List.getElem?_map, advances.getElem? here]
  by_cases hj : j = i
  · simp [hj, hi, advances.turn.request_eq]
  · simp [hj]

theorem Reach.requests_eq (reach : Reach world start events s) :
    s.requests = start.requests ++ events.filterMap Event.request? := by
  apply reach.induction (P := fun events s =>
    s.requests = start.requests ++ events.filterMap Event.request?)
  · simp
  · intro _ _ _ _ _ ih change
    cases change with
    | request request =>
      simp only [requests] at ih
      simp [requested, requests, Event.request?, ih]
    | advance later =>
      simp only [requests] at ih
      simp [requests, Event.request?, ih]
    | act here advances =>
      rw [advances.requests_eq here, ih]
      simp [Event.request?]

end Studio

end PhotoCapture
