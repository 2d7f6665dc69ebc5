import PhotoCapture.Proofs.Studio.Photos
import Mathlib.Data.List.Chain

namespace PhotoCapture

/-- The states that a run of a request passes through on its way to a photo. -/
def Request.passage (r : Request) : List CaptureState :=
  [.idle, .bindingDevice, .applyingParameters] ++
    (if r.timer = 0 then [] else [.awaitingTimer]) ++ [.capturing]

def Request.matrix (r : Request) : ColorMatrix Single := (Filter.ofDescription r.filter).matrix

def CaptureState.Allowed (states : List CaptureState) : Prop :=
  states.IsChain fun a b => a.precedes b = true

instance (states : List CaptureState) : Decidable (CaptureState.Allowed states) :=
  inferInstanceAs (Decidable (states.IsChain fun a b => a.precedes b = true))

/-- The parts of a report agree with one another and with the request. The filter is missing only
when the camera could not be bound, and the timer is passed through only when there is one. -/
structure Coherent (request : Request) (report : Report) : Prop where
  starts : report.states.head? = some .idle
  ends : ∃ last, report.states.getLast? = some last ∧ last.isTerminal = true
  allowed : CaptureState.Allowed report.states
  succeeds : report.states.getLast? = some .succeeded ↔ report.outcome.isSaved = true
  unfiltered : report.filter = none ↔ ∃ message, report.outcome = .failed (.bind message)
  unbound : report.filter = none → report.states = [.idle, .bindingDevice, .failed]
  filtered : report.filter ≠ none → report.filter = some request.matrix ∧
    report.states.count .awaitingTimer = if request.timer = 0 then 0 else 1
  controls : report.controls = request.controls

structure Request.Passed (r : Request) (states : List CaptureState) : Prop where
  starts : states.head? = some .idle
  part : states <+: r.passage

/-- What a run has noted of itself by its stage. It has the filter once it has set the camera. -/
def Run.Recorded (run : Run) : Prop :=
  match run.stage with
  | .binding => run.states = [.idle, .bindingDevice] ∧ run.filter = none
  | .lighting | .zooming =>
    run.states = [.idle, .bindingDevice, .applyingParameters] ∧ run.filter = none
  | .counting _ => run.request.timer ≠ 0 ∧ run.states ++ [.capturing] = run.request.passage ∧
      run.filter = some run.request.matrix
  | .preparing => run.states ++ [.capturing] = run.request.passage ∧
      run.filter = some run.request.matrix
  | .capturing _ => run.states = run.request.passage ∧ run.filter = some run.request.matrix
  | .ended ending | .delivered ending =>
    run.request.Passed run.states ∧
      ∀ report, ending = .reported report → Coherent run.request report

section

variable {request : Request} {run : Run} {outcome : Outcome}

theorem Request.passage_allowed (r : Request) (last : CaptureState)
    (final : last = .succeeded ∨ last = .failed) :
    CaptureState.Allowed (r.passage ++ [last]) := by
  rcases final with rfl | rfl <;> by_cases untimed : r.timer = 0
  · simp only [passage, untimed, if_true]; decide
  · simp only [passage, untimed, if_false]; decide
  · simp only [passage, untimed, if_true]; decide
  · simp only [passage, untimed, if_false]; decide

theorem Request.count_passage (r : Request) :
    r.passage.count .awaitingTimer = if r.timer = 0 then 0 else 1 := by
  by_cases untimed : r.timer = 0
  · simp only [passage, untimed, if_true]; decide
  · simp only [passage, untimed, if_false]; decide

theorem Request.Passed.of_concat {states : List CaptureState}
    (way : states ++ [.capturing] = request.passage) : request.Passed states := by
  refine ⟨?_, ⟨_, way⟩⟩
  cases states with
  | nil => simp [Request.passage] at way
  | cons first rest =>
    simp only [Request.passage, List.cons_append, List.cons.injEq] at way
    simp [way.1]

theorem Run.Recorded.passed (recorded : run.Recorded) : run.request.Passed run.states := by
  have start : run.request.passage = .idle :: run.request.passage.tail := by
    simp [Request.passage]
  have settled : [.idle, .bindingDevice, .applyingParameters] <+: run.request.passage :=
    ⟨_, (List.append_assoc _ _ _).symm⟩
  have opening : [CaptureState.idle, .bindingDevice] <+: run.request.passage :=
    List.IsPrefix.trans ⟨[.applyingParameters], rfl⟩ settled
  unfold Recorded at recorded
  cases stage : run.stage with
  | binding =>
    simp only [stage] at recorded
    exact ⟨by simp [recorded.1], recorded.1 ▸ opening⟩
  | lighting | zooming =>
    simp only [stage] at recorded
    exact ⟨by simp [recorded.1], recorded.1 ▸ settled⟩
  | counting due =>
    simp only [stage] at recorded
    exact .of_concat recorded.2.1
  | preparing =>
    simp only [stage] at recorded
    exact .of_concat recorded.1
  | capturing path =>
    simp only [stage] at recorded
    exact ⟨by rw [recorded.1, start]; rfl, recorded.1 ▸ List.prefix_refl _⟩
  | ended ending | delivered ending =>
    simp only [stage] at recorded
    exact recorded.1

theorem coherent_of_unbound (states : run.states = [.idle, .bindingDevice])
    (filter : run.filter = none) (message : String) :
    Coherent run.request (Studio.report run (.failed (.bind message))) := by
  have whole : (Studio.report run (.failed (.bind message))).states =
      [.idle, .bindingDevice, .failed] := by
    simp [Studio.report, states, Outcome.isSaved]
  constructor
  · rw [whole]; rfl
  · exact ⟨.failed, by rw [whole]; rfl, rfl⟩
  · rw [whole]
    unfold CaptureState.Allowed
    decide
  · rw [whole]
    simp [Studio.report, Outcome.isSaved]
  · exact ⟨fun _ => ⟨message, rfl⟩, fun _ => filter⟩
  · exact fun _ => whole
  · exact fun filtered => absurd filter filtered
  · rfl

theorem coherent_of_passage (states : run.states = run.request.passage)
    (filter : run.filter = some run.request.matrix)
    (bound : ∀ message, outcome ≠ .failed (.bind message)) :
    Coherent run.request (Studio.report run outcome) := by
  obtain ⟨last, final, saved, whole⟩ : ∃ last : CaptureState,
      (last = .succeeded ∨ last = .failed) ∧ (last = .succeeded ↔ outcome.isSaved = true) ∧
        (Studio.report run outcome).states = run.request.passage ++ [last] := by
    cases outcome with
    | saved path => exact ⟨.succeeded, Or.inl rfl, by simp [Outcome.isSaved], by
        simp [Studio.report, states, Outcome.isSaved]⟩
    | failed reason => exact ⟨.failed, Or.inr rfl, by simp [Outcome.isSaved], by
        simp [Studio.report, states, Outcome.isSaved]⟩
  constructor
  · rw [whole]
    simp [Request.passage]
  · refine ⟨last, by simp [whole], ?_⟩
    rcases final with rfl | rfl <;> rfl
  · rw [whole]
    exact run.request.passage_allowed last final
  · rw [whole]
    simpa [Studio.report] using saved
  · constructor
    · intro missing
      simp [Studio.report, filter] at missing
    · rintro ⟨message, failed⟩
      exact absurd failed (bound message)
  · intro missing
    simp [Studio.report, filter] at missing
  · refine fun _ => ⟨filter, ?_⟩
    rw [whole, List.count_append, run.request.count_passage]
    rcases final with rfl | rfl <;> simp
  · rfl

end

namespace Studio

open Session (Entry Lock)

variable {σ : Type} {world : World σ} {s s' : Studio σ} {i : Nat} {run run' : Run}
  {entries : List Entry} {lock : Lock Nat} {completions : List Completion} {events : List Event}
  {camera : σ} {bound : Option Facing} {files : Files}

theorem captureOutcome_ne_bind (path : String) (result : Except Camera.Error Unit)
    (message : String) : captureOutcome path result ≠ .failed (.bind message) := by
  cases result with
  | ok => simp [captureOutcome]
  | error error => cases error <;> simp [captureOutcome]

theorem captureOutcome_ne_storage (path : String) (result : Except Camera.Error Unit)
    (message : String) : captureOutcome path result ≠ .failed (.storage message) := by
  cases result with
  | ok => simp [captureOutcome]
  | error error => cases error <;> simp [captureOutcome]

theorem Turn.recorded (turn : Turn world s i run entries run' lock completions)
    (recorded : run.Recorded) : run'.Recorded := by
  have before := recorded.passed
  unfold Run.Recorded at recorded ⊢
  cases turn with
  | bound _ stage =>
    simp only [stage] at recorded ⊢
    simp [recorded.1, recorded.2]
  | bindRefused _ stage =>
    simp only [stage] at recorded ⊢
    refine ⟨before, ?_⟩
    rintro report ⟨⟩
    exact coherent_of_unbound recorded.1 recorded.2 _
  | lit _ stage => simpa only [stage] using recorded
  | bindCrashed | lightCrashed | zoomCrashed => exact ⟨before, by simp⟩
  | zoomed _ stage _ _ untimed =>
    simp only [stage] at recorded ⊢
    simp [recorded.1, Request.passage, untimed, Request.matrix]
  | timed _ stage _ _ timer =>
    simp only [stage] at recorded ⊢
    simp [recorded.1, Request.passage, timer, Request.matrix]
  | expired stage =>
    simp only [stage] at recorded ⊢
    exact recorded.2
  | prepared _ stage =>
    simp only [stage] at recorded ⊢
    exact recorded
  | unprepared _ stage =>
    simp only [stage] at recorded ⊢
    have whole : run.states ++ [.capturing] <+: run.request.passage :=
      recorded.1.symm ▸ List.prefix_refl _
    refine ⟨⟨by simp [before.starts], whole⟩, ?_⟩
    rintro report ⟨⟩
    have states : ({ run with states := run.states ++ [.capturing] } : Run).states =
        run.request.passage := recorded.1
    exact coherent_of_passage states recorded.2 (by simp)
  | captured _ stage =>
    simp only [stage] at recorded ⊢
    refine ⟨before, ?_⟩
    rintro report ⟨⟩
    exact coherent_of_passage recorded.1 recorded.2 (captureOutcome_ne_bind _ _)
  | delivered stage => simpa only [stage] using recorded

theorem reach_recorded (reach : Reach world (openedOn camera bound files) events s) :
    ∀ (i : Nat) run, s.runs[i]? = some run → run.Recorded := by
  apply reach.induction (P := fun _ s => ∀ (i : Nat) run, s.runs[i]? = some run → run.Recorded)
  · simp [openedOn]
  · intro _ _ _ _ _ ih change i run here
    cases change with
    | request request =>
      rcases requested_cases here with ⟨-, rfl⟩ | here
      · exact ⟨rfl, rfl⟩
      · exact ih i run here
    | advance later => exact ih i run here
    | act before advances =>
      rcases advances.run_cases before here with ⟨rfl, rfl⟩ | ⟨-, there⟩
      · exact advances.turn.recorded (ih _ _ before)
      · exact ih i run there

/-- Whatever the camera answers and however the runs take turns, no run enters a state that may
not follow the one it is in, also when it breaks off, and every report is coherent. -/
theorem reports_are_coherent (reach : Reach world (openedOn camera bound files) events s) :
    ∀ (i : Nat) run, s.runs[i]? = some run →
      (events.filterMap Event.request?)[i]? = some run.request ∧
        run.states.head? = some .idle ∧ CaptureState.Allowed run.states ∧
        ∀ report, run.stage.ending? = some (.reported report) → Coherent run.request report := by
  intro i run here
  have recorded := reach_recorded reach i run here
  have requests : s.requests = events.filterMap Event.request? := by
    simpa [openedOn, Studio.requests] using reach.requests_eq
  have way := recorded.passed
  refine ⟨by simp [← requests, Studio.requests, here], way.starts, ?_, ?_⟩
  · have whole := run.request.passage_allowed .failed (Or.inr rfl)
    exact whole.left_of_append.prefix way.part
  · intro report ended
    unfold Run.Recorded at recorded
    cases stage : run.stage with
    | ended ending | delivered ending =>
      simp only [stage] at recorded
      rw [stage] at ended
      exact recorded.2 report (Option.some.inj ended)
    | _ => simp [stage, Stage.ending?] at ended

def reportedStates (s : Studio σ) (i : Nat) : List CaptureState :=
  match s.runs[i]?.bind fun run => run.stage.ending? with
  | some (.reported report) => report.states
  | _ => []

theorem interrupted_run_is_coherent :
    ∃ s run report, Reach sharing (openedOn { sensor := ⟨4, 3, 80⟩ } none .root) interruption s ∧
      s.runs[0]? = some run ∧ run.stage.ending? = some (.reported report) ∧
      report.states = [.idle, .bindingDevice, .applyingParameters, .awaitingTimer, .capturing,
        .succeeded] ∧ Coherent run.request report := by
  have states : ((openedOn { sensor := ⟨4, 3, 80⟩ } none .root).after? sharing interruption).map
      (reportedStates · 0) = some [.idle, .bindingDevice, .applyingParameters, .awaitingTimer,
        .capturing, .succeeded] := by decide +kernel
  obtain ⟨s, reached, states⟩ := Option.map_eq_some_iff.mp states
  have reach := reach_iff_after?.mpr reached
  cases here : s.runs[0]? with
  | none => simp [reportedStates, here] at states
  | some run =>
    cases ended : run.stage.ending? with
    | none => simp [reportedStates, here, ended] at states
    | some ending =>
      cases ending with
      | brokenOff message => simp [reportedStates, here, ended] at states
      | reported report =>
        have coherent := (reports_are_coherent reach 0 run here).2.2.2 report ended
        have passed : report.states = [.idle, .bindingDevice, .applyingParameters, .awaitingTimer,
            .capturing, .succeeded] := by simpa [reportedStates, here, ended] using states
        exact ⟨s, run, report, reach, here, ended, passed, coherent⟩

end Studio

end PhotoCapture
