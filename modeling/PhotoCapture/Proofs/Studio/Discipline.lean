import PhotoCapture.Proofs.Studio.Fairness
import PhotoCapture.Proofs.Studio.Report
import PhotoCapture.Proofs.Studio.Rest

namespace PhotoCapture

/-- Whether a run has the session at the point that it has come to. A run that is to prepare its
photo has it unless it gave it up for its timer. -/
def Run.hasSession (policy : Session.Policy) (run : Run) : Bool :=
  match run.stage with
  | .lighting | .zooming | .capturing _ => true
  | .counting _ => policy = .exclusive
  | .preparing => policy = .exclusive || run.request.timer = 0
  | .binding | .ended _ | .delivered _ => false

namespace Studio

open Session (Entry Lock)

variable {σ : Type} {world : World σ} {start middle s s' : Studio σ} {i j : Nat} {run run' : Run}
  {entries : List Entry} {lock : Lock Nat} {completions : List Completion} {events : List Event}
  {event : Event} {camera : σ} {bound : Option Facing} {files : Files}

theorem Turn.hasSession (turn : Turn world s i run entries run' lock completions)
    (recorded : run.Recorded) (has : run'.hasSession world.policy = true) :
    lock = s.lock ∧ (s.lock.holder = some i ∨ run.hasSession world.policy = true) := by
  cases turn with
  | bound holds | lit holds | zoomed holds | prepared holds => exact ⟨rfl, Or.inl holds⟩
  | bindRefused | bindCrashed | lightCrashed | zoomCrashed | unprepared | captured | delivered =>
    simp [Run.hasSession] at has
  | timed holds =>
    cases hp : world.policy with
    | exclusive => exact ⟨rfl, Or.inl holds⟩
    | unsynchronized => simp [Run.hasSession, hp] at has
  | expired stage =>
    -- only a run with a timer waits for it, and such a run does not have the session back yet
    have timer : run.request.timer ≠ 0 := by
      simp only [Run.Recorded, stage] at recorded
      exact recorded.1
    cases hp : world.policy with
    | exclusive => exact ⟨rfl, Or.inr (by simp [stage, Run.hasSession])⟩
    | unsynchronized => simp [Run.hasSession, hp, timer] at has

theorem reach_hasSession (reach : Reach world (openedOn camera bound files) events s) :
    ∀ (i : Nat) run, s.runs[i]? = some run → run.hasSession world.policy = true →
      s.lock.holder = some i := by
  apply reach.induction (P := fun _ s => ∀ (i : Nat) run, s.runs[i]? = some run →
    run.hasSession world.policy = true → s.lock.holder = some i)
  · simp [openedOn]
  · intro _ _ _ _ reach ih change
    cases change with
    | request request => exact holds_requested ih request rfl
    | advance later => exact ih
    | act here advances =>
      have recorded := reach_recorded reach _ _ here
      exact advances.holds ih here (advances.turn.hasSession recorded)

theorem Turn.capture_ends (turn : Turn world s i run entries run' lock completions) {e : Entry}
    (he : e ∈ entries) (photo : e.isCapture = true) : run'.stage.ending? ≠ none := by
  obtain ⟨-, ⟨path, stage⟩, -⟩ := turn.capture_cases he photo
  cases turn with
  | captured => simp [Stage.ending?]
  | bound _ other | bindRefused _ other | bindCrashed _ other | lit _ other
  | lightCrashed _ other | zoomed _ other | timed _ other | zoomCrashed _ other | expired other
  | prepared _ other | unprepared _ other | delivered other =>
    rw [stage] at other
    cases other

theorem Turn.saved_by_capture (turn : Turn world s i run entries run' lock completions)
    {ending : Ending} (ended : run'.stage.ending? = some ending)
    (saved : (ending.outcome i).isSaved = true) :
    run.stage.ending? = some ending ∨ ∃ e ∈ entries, e.isCapture = true := by
  cases turn with
  | bound | lit | zoomed | timed | expired | prepared => simp [Stage.ending?] at ended
  | bindRefused | bindCrashed | lightCrashed | zoomCrashed | unprepared =>
    obtain rfl := Option.some.inj ended
    simp [Ending.outcome, report, Outcome.isSaved] at saved
  | captured _ _ passed =>
    obtain rfl := Option.some.inj ended
    cases passed with
    | withheld =>
      simp [Ending.outcome, report, Session.captureResult, captureOutcome, Outcome.isSaved] at saved
    | @answered e _ same =>
      refine Or.inr ⟨e, by simp, ?_⟩
      simp [Entry.isCapture, same, Camera.Command.isCapture]
  | delivered stage =>
    obtain rfl := Option.some.inj ended
    exact Or.inl (by simp [stage, Stage.ending?])

/-- The photos in the log are those of runs that have ended, and no run has a photo that is not in
the log. -/
structure Photographed (s : Studio σ) : Prop where
  ended : ∀ e ∈ s.session.log, e.isCapture = true →
    ∃ run, s.runs[e.client]? = some run ∧ run.stage.ending? ≠ none
  taken : ∀ (i : Nat) run, s.runs[i]? = some run → ∀ ending, run.stage.ending? = some ending →
    (ending.outcome i).isSaved = true → ∃ e ∈ s.session.log, e.client = i ∧ e.isCapture = true

theorem Photographed.requested (taken : s.Photographed) (request : Request) :
    (s.requested request).Photographed := by
  constructor
  · intro e he photo
    obtain ⟨run, here, ended⟩ := taken.ended e he photo
    exact ⟨run, requested_of_getElem? here request, ended⟩
  · intro i run here ending ended saved
    rcases requested_cases here with ⟨-, rfl⟩ | here
    · cases ended
    · exact taken.taken i run here ending ended saved

theorem Photographed.advances (taken : s.Photographed) (here : s.runs[i]? = some run)
    (advances : Advances world s s' i run entries run') : s'.Photographed := by
  have log := advances.session.log
  have own : ∀ e ∈ entries, e.client = i := fun e he => (advances.session.stamped e he).2
  constructor
  · intro e he photo
    rw [advances.getElem? here]
    rw [log] at he
    rcases List.mem_append.mp he with old | new
    · obtain ⟨r, there, ended⟩ := taken.ended e old photo
      split
      next same =>
        rw [same, here] at there
        obtain rfl := Option.some.inj there
        obtain ⟨ending, ended⟩ := Option.ne_none_iff_exists'.mp ended
        exact ⟨run', rfl, by simp [advances.turn.ending_kept ended]⟩
      next => exact ⟨r, there, ended⟩
    · rw [if_pos (own e new)]
      exact ⟨run', rfl, advances.turn.capture_ends new photo⟩
  · have kept : ∀ e ∈ s.session.log, e ∈ s'.session.log := by
      intro e he
      rw [log]
      exact List.mem_append_left _ he
    intro j r there ending ended saved
    rcases advances.run_cases here there with ⟨rfl, rfl⟩ | ⟨-, there⟩
    · rcases advances.turn.saved_by_capture ended saved with before | ⟨e, new, photo⟩
      · obtain ⟨e, he, mine⟩ := taken.taken j run here ending before saved
        exact ⟨e, kept e he, mine⟩
      · exact ⟨e, by simp [log, new], own e new, photo⟩
    · obtain ⟨e, he, mine⟩ := taken.taken j r there ending ended saved
      exact ⟨e, kept e he, mine⟩

theorem reach_photographed (reach : Reach world (openedOn camera bound files) events s) :
    s.Photographed := by
  apply reach.induction (P := fun _ s => s.Photographed)
  · exact ⟨by simp [openedOn], by simp [openedOn]⟩
  · intro _ _ _ _ _ ih change
    cases change with
    | request request => exact ih.requested request
    | advance later => exact ⟨ih.ended, ih.taken⟩
    | act here advances => exact ih.advances here advances

def HasEnded (s : Studio σ) (i : Nat) : Prop :=
  ∃ run, s.runs[i]? = some run ∧ run.stage.ending? ≠ none

theorem Change.ended_kept (change : Change world s event s') (ended : s.HasEnded i) :
    s'.HasEnded i := by
  obtain ⟨run, here, gone⟩ := ended
  cases change with
  | request request => exact ⟨run, requested_of_getElem? here request, gone⟩
  | advance later => exact ⟨run, here, gone⟩
  | @act j r entries r' _ there advances =>
    by_cases same : i = j
    · subst same
      obtain rfl := Option.some.inj (here.symm.trans there)
      obtain ⟨ending, gone⟩ := Option.ne_none_iff_exists'.mp gone
      exact ⟨r', advances.mine here, by simp [advances.turn.ending_kept gone]⟩
    · exact ⟨run, by rw [advances.getElem? there, if_neg same, here], gone⟩

/-- When every request keeps the session to itself, whoever holds the session loses it only by
ending. -/
theorem Change.keeps (exclusive : world.policy = .exclusive) (change : Change world s event s')
    (holds : s.lock.holder = some i) : s'.lock.holder = some i ∨ s'.HasEnded i := by
  cases change with
  | request request => exact Or.inl (Lock.ask_holder holds s.runs.length)
  | advance later => exact Or.inl holds
  | @act j run entries run' _ here advances =>
    by_cases same : i = j
    · subst same
      rcases advances.turn.lock_cases with ⟨lock, -⟩ | ⟨-, -, idle⟩ | ⟨shared, -⟩
      · exact Or.inl (lock ▸ holds)
      · refine Or.inr ⟨run', advances.mine here, ?_⟩
        cases stage : run'.stage with
        | ended ending | delivered ending => simp [Stage.ending?]
        | _ => simp [stage, exclusive, Stage.wants] at idle
      · rw [exclusive] at shared
        cases shared
    · exact Or.inl (advances.turn.holder_kept holds same)

theorem Reach.keeps (exclusive : world.policy = .exclusive) (reach : Reach world middle events s)
    (holds : middle.lock.holder = some i) : s.lock.holder = some i ∨ s.HasEnded i := by
  apply reach.induction (P := fun _ s => s.lock.holder = some i ∨ s.HasEnded i)
  · exact Or.inl holds
  · intro _ _ _ _ _ ih change
    rcases ih with holds | ended
    · exact change.keeps exclusive holds
    · exact Or.inr (change.ended_kept ended)

theorem Turn.holds_or_silent (turn : Turn world s i run entries run' lock completions) :
    s.lock.holder = some i ∨ entries = [] := by
  cases turn with
  | bound holds | bindRefused holds | bindCrashed holds | lit holds | lightCrashed holds
  | zoomed holds | timed holds | zoomCrashed holds | prepared holds | unprepared holds
  | captured holds => exact Or.inl holds
  | expired | delivered => exact Or.inr rfl

theorem commands_by_holder (next : s.next? world event = some s')
    (given : s'.session.log ≠ s.session.log) :
    ∃ i, event = .act i ∧ s.lock.holder = some i := by
  cases next_change next with
  | request request => exact absurd rfl given
  | advance later => exact absurd rfl given
  | @act i run entries run' _ here advances =>
    rcases advances.turn.holds_or_silent with holds | rfl
    · exact ⟨i, rfl, holds⟩
    · simp [advances.session.log] at given

/-- Somebody can take a step now, or a timer is running. -/
def CanGoOn (world : World σ) (s : Studio σ) : Prop :=
  (∃ i, s.next? world (.act i) ≠ none) ∨
    ∃ (i : Nat) (run : Run) (due : Nat),
      s.runs[i]? = some run ∧ run.stage = .counting due ∧ s.now < due

theorem canGoOn_of_later {time : Nat}
    (act : ({ s with now := time } : Studio σ).next? world (.act i) ≠ none) : s.CanGoOn world := by
  obtain ⟨s', next⟩ := Option.ne_none_iff_exists'.mp act
  obtain ⟨run, here, next⟩ := Option.bind_eq_some_iff.mp next
  replace here : s.runs[i]? = some run := here
  cases stage : run.stage with
  | counting due =>
    rcases Nat.lt_or_ge s.now due with early | late
    · exact Or.inr ⟨i, run, due, here, stage, early⟩
    · exact Or.inl ⟨i, by simp [Studio.next?, here, Studio.act?, stage, late]⟩
  | ended ending => exact Or.inl ⟨i, by simp [Studio.next?, here, Studio.act?, stage]⟩
  | delivered ending => simp [Studio.act?, Studio.actHolding?, stage] at next
  | binding | lighting | zooming | preparing | capturing =>
    have holds : s.lock.holder = some i := by
      by_contra other
      simp [Studio.act?, stage, other] at next
    exact Or.inl ⟨i, by simp [Studio.next?, here, Studio.act?, Studio.actHolding?, stage, holds]⟩

theorem preparing_of_awaiting (recorded : run.Recorded)
    (awaiting : run.states.getLast? = some .awaitingTimer) :
    run.stage = .preparing ∨ run.stage.isCounting = true ∨ run.stage.ending? ≠ none := by
  unfold Run.Recorded at recorded
  cases stage : run.stage with
  | counting | preparing | ended | delivered => simp [Stage.isCounting, Stage.ending?]
  | binding | lighting | zooming =>
    simp only [stage] at recorded
    simp [recorded.1] at awaiting
  | capturing path =>
    simp only [stage] at recorded
    rw [recorded.1, Request.passage, List.getLast?_concat] at awaiting
    cases awaiting

theorem not_hasSession_of_awaiting (recorded : run.Recorded)
    (awaiting : run.states.getLast? = some .awaitingTimer) :
    run.hasSession .unsynchronized = false := by
  rcases preparing_of_awaiting recorded awaiting with stage | counting | gone
  · have timer : run.request.timer ≠ 0 := by
      intro untimed
      simp only [Run.Recorded, stage, Request.passage, untimed, if_true] at recorded
      rw [List.append_cancel_right recorded.1] at awaiting
      cases awaiting
    simp [Run.hasSession, stage, timer]
  · cases stage : run.stage with
    | counting => simp [Run.hasSession, stage]
    | _ => simp [stage, Stage.isCounting] at counting
  · cases stage : run.stage with
    | ended | delivered => simp [Run.hasSession, stage]
    | _ => simp [stage, Stage.ending?] at gone

/-- The runs share the session in good order. -/
structure Disciplined (world : World σ) (start : Studio σ) (events : List Event) (s : Studio σ) :
    Prop where
  holds : ∀ (i : Nat) run, s.runs[i]? = some run → run.hasSession world.policy = true →
    s.lock.holder = some i
  alone : ∀ (i j : Nat) run run', s.runs[i]? = some run → s.runs[j]? = some run' →
    run.hasSession world.policy = true → run'.hasSession world.policy = true → i = j
  /-- Nobody else commands the camera. -/
  commands : ∀ event s', s.next? world event = some s' → s'.session.log ≠ s.session.log →
    ∃ i, event = .act i ∧ s.lock.holder = some i
  fair : asks world start events = grants world start events ++ s.lock.waiting
  unbroken : world.policy = .exclusive → ∀ earlier later middle i, events = earlier ++ later →
    Reach world start earlier middle → middle.lock.holder = some i →
    s.lock.holder = some i ∨ s.HasEnded i
  photographed : s.Photographed
  released : ∀ i, s.HasEnded i → i ∉ s.lock.queue
  /-- A run neither has the session nor waits for it while its timer runs. As long as awaiting the
  timer is its last state it does not have the session, and it leaves that state as soon as it goes
  on with the session. -/
  timing : world.policy = .unsynchronized → ∀ (i : Nat) run, s.runs[i]? = some run →
    (run.stage.isCounting = true → i ∉ s.lock.queue) ∧
      (run.states.getLast? = some .awaitingTimer → run.hasSession world.policy = false) ∧
      (run.states.getLast? = some .awaitingTimer → s.lock.holder = some i →
        run.stage = .preparing)
  live : ∀ (i : Nat) run, s.runs[i]? = some run → (∀ ending, run.stage ≠ .delivered ending) →
    s.CanGoOn world

/-- Whatever the camera answers, and however the runs take turns: one run at a time has the session
and commands the camera, the runs get the session in the order of asking, none gives it up before
its end but for its timer, none has it after its end, and while a run is not completed somebody
can go on. -/
theorem session_is_shared_in_turn
    (reach : Reach world (openedOn camera bound files) events s) :
    Disciplined world (openedOn camera bound files) events s := by
  have queued := reach_queued reach
  have holds := reach_hasSession reach
  have released : ∀ i, s.HasEnded i → i ∉ s.lock.queue := by
    rintro i ⟨run, here, gone⟩ waits
    exact gone (Stage.ending?_of_wants ((queued.wants i run here).mp waits))
  constructor
  case holds => exact holds
  case alone =>
    intro i j run run' here there has has'
    have first := holds i run here has
    have second := holds j run' there has'
    exact Option.some.inj (first.symm.trans second)
  case commands => exact fun event s' next given => commands_by_holder next given
  case fair => exact reach_fair reach
  case unbroken =>
    rintro exclusive earlier later middle i rfl before holds
    obtain ⟨middle', first, last⟩ := reach.split
    obtain rfl := first.unique before
    exact last.keeps exclusive holds
  case photographed => exact reach_photographed reach
  case released => exact released
  case timing =>
    intro shared i run here
    have calm : run.stage.isCounting = true → i ∉ s.lock.queue := by
      intro counting waits
      rw [queued.wants i run here, shared] at waits
      cases stage : run.stage with
      | counting => simp [stage, Stage.wants] at waits
      | _ => simp [stage, Stage.isCounting] at counting
    have recorded := reach_recorded reach i run here
    refine ⟨calm, ?_, ?_⟩
    · intro awaiting
      rw [shared]
      exact not_hasSession_of_awaiting recorded awaiting
    · intro awaiting holds
      have waits := Lock.holder_mem holds
      rcases preparing_of_awaiting recorded awaiting with stage | counting | gone
      · exact stage
      · exact absurd waits (calm counting)
      · exact absurd waits (released i ⟨run, here, gone⟩)
  case live =>
    intro i run here undelivered
    obtain ⟨time, j, -, act⟩ := exists_act queued here undelivered
    exact canGoOn_of_later act

/-- While the timer of a request runs, two others come; when it has run, its run asks again. -/
def queueing : List Event :=
  [.request { Request.standard with timer := 1 }, .act 0, .act 0, .act 0, .request .standard,
    .request .standard, .advance 1000, .act 0]

theorem queueing_in_turn :
    ∃ s, Reach sharing (openedOn { sensor := ⟨4, 3, 80⟩ } none .root) queueing s ∧
      s.lock.waiting = [2, 0] ∧
      grants sharing (openedOn { sensor := ⟨4, 3, 80⟩ } none .root) queueing = [0, 1] ∧
      asks sharing (openedOn { sensor := ⟨4, 3, 80⟩ } none .root) queueing = [0, 1, 2, 0] := by
  have waiting : ((openedOn { sensor := ⟨4, 3, 80⟩ } none .root).after? sharing queueing).map
      (·.lock.waiting) = some [2, 0] := by decide +kernel
  have granted : grants sharing (openedOn { sensor := ⟨4, 3, 80⟩ } none .root) queueing =
      [0, 1] := by decide +kernel
  obtain ⟨s, reached, waiting⟩ := Option.map_eq_some_iff.mp waiting
  have reach := reach_iff_after?.mpr reached
  refine ⟨s, reach, waiting, granted, ?_⟩
  have fair := (session_is_shared_in_turn reach).fair
  rw [granted, waiting] at fair
  exact fair

end Studio

end PhotoCapture
