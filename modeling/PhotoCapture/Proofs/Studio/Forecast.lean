import PhotoCapture.Proofs.Studio.Exclusive
import PhotoCapture.Proofs.Studio.Policies
import PhotoCapture.Proofs.Studio.Prospect

namespace PhotoCapture

/-- The session and the files that runs leave, and how they end. -/
structure Forecast (σ : Type) where
  session : Session σ
  files : Files
  endings : List Ending

namespace Studio

open Session (Entry Lock)

variable {σ : Type}

/-- What comes of runs that have the session one after the other, the first with a number. -/
def forecast (world : World σ) (names : Nat → String) :
    Nat → List Run → Session σ → Files → Forecast σ
  | _, [], session, files => ⟨session, files, []⟩
  | i, run :: runs, session, files =>
    let first := Prospect.ofRun world i (names i) run session files
    let rest := forecast world names (i + 1) runs first.session first.files
    { rest with endings := first.ending :: rest.endings }

def forecastOf (world : World σ) (names : Nat → String) (camera : σ) (bound : Option Facing)
    (files : Files) (requests : List Request) : Forecast σ :=
  forecast world names 0 (requests.map fun request => { request := request })
    { camera := camera, bound := bound } files

def World.nameAt (world : World σ) (time : Nat) : String :=
  Photo.fileName { world.opening with second := world.opening.second + time / 1000 } world.offset

/-- The photos of the runs get these names. -/
def Named (world : World σ) (start : Studio σ) (events : List Event) (names : Nat → String) :
    Prop :=
  ∀ earlier i s run, earlier ++ [.act i] <+: events → Reach world start earlier s →
    s.runs[i]? = some run → run.stage = .preparing → s.photoName world = names i

variable {world : World σ} {names : Nat → String} {start s s' : Studio σ} {i k : Nat}
  {run run' : Run} {runs before after : List Run} {events : List Event}
  {session session' : Session σ} {camera : σ} {bound : Option Facing} {files files' : Files}

theorem forecast_append :
    forecast world names i (before ++ after) session files =
      let first := forecast world names i before session files
      let rest := forecast world names (i + before.length) after first.session first.files
      { rest with endings := first.endings ++ rest.endings } := by
  induction before generalizing i session files with
  | nil => simp [forecast]
  | cons run before ih =>
    have next : i + (before.length + 1) = i + 1 + before.length := by omega
    simp only [List.cons_append, forecast, ih, List.length_cons, next]

theorem forecast_of_ended (ended : ∀ run ∈ runs, run.stage.ending? ≠ none) :
    forecast world names i runs session files =
      ⟨session, files, runs.filterMap fun run => run.stage.ending?⟩ := by
  induction runs generalizing i with
  | nil => rfl
  | cons run runs ih =>
    have ih := @ih (i + 1) fun r hr => ended r (List.mem_cons_of_mem _ hr)
    have gone := ended run List.mem_cons_self
    cases stage : run.stage with
    | ended ending | delivered ending =>
      simp only [forecast, Prospect.ofRun, stage, ih]
      simp [stage, Stage.ending?]
    | _ => simp [stage, Stage.ending?] at gone

theorem forecast_step (ended : ∀ run ∈ before, run.stage.ending? ≠ none)
    (same : Prospect.ofRun world before.length (names before.length) run' session' files' =
      Prospect.ofRun world before.length (names before.length) run session files) :
    forecast world names 0 (before ++ run' :: after) session' files' =
      forecast world names 0 (before ++ run :: after) session files := by
  rw [forecast_append, forecast_append, forecast_of_ended ended, forecast_of_ended ended]
  simp only [forecast, Nat.zero_add, same]

theorem forecast_deliver {ending : Ending} (stage : run.stage = .ended ending) :
    forecast world names i (before ++ { run with stage := .delivered ending } :: after)
        session files =
      forecast world names i (before ++ run :: after) session files := by
  rw [forecast_append, forecast_append]
  simp only [forecast, Prospect.ofRun, stage]

theorem Named.upTo {earlier : List Event} (named : Named world start events names)
    (part : earlier <+: events) : Named world start earlier names :=
  fun sooner i s run first => named sooner i s run (first.trans part)

theorem Served.ended (exclusive : world.policy = .exclusive) (queued : s.Queued world.policy)
    (served : Served world start bound events s k) (here : s.runs[i]? = some run) (hi : i < k) :
    run.stage.ending? ≠ none := by
  have out : i ∉ s.lock.queue := by
    rw [served.queue, List.mem_range'_1]
    omega
  rw [queued.wants i run here, exclusive] at out
  cases stage : run.stage with
  | ended | delivered => simp [Stage.ending?]
  | _ => simp [stage, Stage.wants] at out

theorem forecast_requested (s : Studio σ) (request : Request)
    (same : forecast world names 0 s.runs s.session.untimed s.files =
      forecastOf world names camera bound files s.requests) :
    forecast world names 0 (s.requested request).runs s.session.untimed s.files =
      forecastOf world names camera bound files (s.requested request).requests := by
  rw [forecastOf] at same
  simp only [forecastOf, Studio.requested, Studio.requests, List.map_append, List.map_singleton]
  rw [forecast_append, forecast_append, same]
  simp [Studio.requests]

/-- When requests keep the session to themselves, what comes of all is decided when they are
made. -/
theorem reach_forecast (exclusive : world.policy = .exclusive)
    (reach : Reach world (openedOn camera bound files) events s)
    (named : Named world (openedOn camera bound files) events names) :
    forecast world names 0 s.runs s.session.untimed s.files =
      forecastOf world names camera bound files s.requests := by
  induction reach with
  | start => rfl
  | @next events event s s' reach next ih =>
    have ih := ih (named.upTo (List.prefix_append _ _))
    cases event with
    | request request =>
      obtain rfl : s.requested request = s' := Option.some.inj next
      exact forecast_requested s request ih
    | advance time =>
      obtain ⟨-, rfl⟩ : s.now < time ∧ { s with now := time } = s' := by
        simpa [Studio.next?] using next
      exact ih
    | act i =>
      obtain ⟨run, here, act⟩ := Option.bind_eq_some_iff.mp next
      obtain ⟨entries, run', advances⟩ := act_advances act
      have queued := reach_queued reach
      obtain ⟨k, served⟩ := reach_served exclusive reach
      obtain ⟨hi, at_i⟩ := List.getElem?_eq_some_iff.mp here
      rw [advances.requests_eq here, ← ih]
      -- the runs before the one at work have ended, and those behind it have not begun
      rcases served.actor exclusive queued here advances.turn with rfl | ⟨ending, stage, -⟩
      · obtain ⟨run', runs, same⟩ := act_foreseen
          (fun stage => named events i s run (List.prefix_refl _) reach here stage) act
        obtain ⟨before, after, hs, length, hs'⟩ := @List.exists_of_set Run i run' s.runs hi
        subst length
        have ended : ∀ r ∈ before, r.stage.ending? ≠ none := by
          intro r hr
          obtain ⟨j, hj, at_j⟩ := List.getElem_of_mem hr
          refine served.ended exclusive queued ?_ hj
          rw [hs, List.getElem?_append_left hj, List.getElem?_eq_getElem hj, at_j]
        rw [runs, hs', hs, at_i]
        exact forecast_step ended same
      · obtain rfl : s.deliver i run ending = s' := by simpa [Studio.act?, stage] using act
        obtain ⟨before, after, hs, -, hs'⟩ :=
          @List.exists_of_set Run i { run with stage := .delivered ending } s.runs hi
        simp only [Studio.deliver, Studio.setRun]
        rw [hs', hs, at_i]
        exact forecast_deliver stage

theorem forecast_under (policy : Session.Policy) :
    forecast (world.under policy) names i runs session files =
      forecast world names i runs session files := by
  induction runs generalizing i session files with
  | nil => rfl
  | cons run runs ih =>
    simp only [forecast, ih]
    rfl

theorem Named.under {p q : Session.Policy}
    (reach : Reach (world.under p) (openedOn camera bound files) events s)
    (apart : Apart (world.under p) (openedOn camera bound files) events)
    (named : Named (world.under p) (openedOn camera bound files) events names) :
    Named (world.under q) (openedOn camera bound files) events names := by
  intro earlier i t run part before here stage
  obtain ⟨m, before', runs, now⟩ :=
    reach.same_runs apart ((List.prefix_append _ _).trans part) before
  rw [← named earlier i m run part before' (runs ▸ here) stage]
  simp only [Studio.photoName, now]
  rfl

theorem Orderly.decided {p : Session.Policy}
    (orderly : Orderly (world.under p) (openedOn camera bound files) events s)
    (named : Named (world.under p) (openedOn camera bound files) events names) :
    forecastOf world names camera bound files (events.filterMap Event.request?) =
      ⟨s.session.untimed, s.files, s.runs.filterMap fun run => run.stage.ending?⟩ := by
  obtain ⟨reach, apart, rest⟩ := orderly
  obtain ⟨exclusive, -⟩ := reach.under (q := .exclusive) apart rest
  have ended : ∀ run ∈ s.runs, run.stage.ending? ≠ none := by
    intro run hr
    obtain ⟨ending, stage⟩ := rest.delivered (reach_queued reach) run hr
    simp [stage, Stage.ending?]
  have decided := reach_forecast rfl exclusive (named.under reach apart)
  rw [forecast_of_ended ended, forecastOf, forecast_under, reach.requests_eq] at decided
  exact decided.symm

theorem Reach.last_event {event : Event} (reach : Reach world start (events ++ [event]) s') :
    ∃ s, Reach world start events s ∧ s.next? world event = some s' := by
  have ran := reach_iff_after?.mp reach
  rw [after?_concat] at ran
  obtain ⟨s, first, last⟩ := Option.bind_eq_some_iff.mp ran
  exact ⟨s, reach_iff_after?.mpr first, last⟩

theorem Reach.rank_le (reach : Reach world start events s) (here : start.runs[i]? = some run) :
    ∃ run', s.runs[i]? = some run' ∧ run.stage.rank ≤ run'.stage.rank := by
  apply reach.induction (P := fun _ s =>
    ∃ run', s.runs[i]? = some run' ∧ run.stage.rank ≤ run'.stage.rank)
  · exact ⟨run, here, Nat.le_refl _⟩
  · intro _ _ _ _ _ ih change
    obtain ⟨r, there, far⟩ := ih
    cases change with
    | request request => exact ⟨r, requested_of_getElem? there request, far⟩
    | advance later => exact ⟨r, there, far⟩
    | @act j x _ x' _ at_j advances =>
      by_cases same : i = j
      · subst same
        obtain rfl := Option.some.inj (there.symm.trans at_j)
        have further := advances.turn.rank_lt
        exact ⟨x', advances.mine at_j, by omega⟩
      · exact ⟨r, by rw [advances.getElem? at_j, if_neg same, there], far⟩

theorem Reach.prepares_once {earlier : List Event} {middle : Studio σ}
    (reach : Reach world start events s) (part : earlier ++ [.act i] <+: events)
    (before : Reach world start earlier middle) (at_first : middle.runs[i]? = some run)
    (stage : run.stage = .preparing) (here : s.runs[i]? = some run') : run'.stage ≠ .preparing := by
  obtain ⟨later, rfl⟩ := part
  obtain ⟨next, first, rest⟩ := reach.split
  obtain ⟨middle', before', act⟩ := first.last_event
  obtain rfl := before'.unique before
  cases next_change act with
  | act at_i advances =>
    obtain rfl := Option.some.inj (at_i.symm.trans at_first)
    obtain ⟨r, there, far⟩ := rest.rank_le (advances.mine at_i)
    obtain rfl := Option.some.inj (there.symm.trans here)
    have further := advances.turn.rank_lt
    intro again
    rw [stage] at further
    rw [again] at far
    simp only [Stage.rank] at further far
    omega

theorem Named.concat {event : Event} (named : Named world start events names)
    (reach : Reach world start events s)
    (last : ∀ i run, event = .act i → s.runs[i]? = some run → run.stage = .preparing →
      s.photoName world = names i) : Named world start (events ++ [event]) names := by
  intro earlier j m r part before there stage
  rcases List.prefix_concat_iff.mp part with whole | sooner
  · obtain ⟨rfl, same⟩ := List.append_inj' whole rfl
    obtain rfl := before.unique reach
    exact last j r (List.singleton_inj.mp same).symm there stage
  · exact named earlier j m r sooner before there stage

/-- A run that is about to prepare its photo has no name for it yet. -/
theorem Named.rename {names' : Nat → String} (named : Named world start events names)
    (reach : Reach world start events s) (here : s.runs[i]? = some run)
    (stage : run.stage = .preparing) (others : ∀ j, j ≠ i → names' j = names j) :
    Named world start events names' := by
  intro earlier j m r part before there stage'
  by_cases same : j = i
  · subst same
    exact absurd stage (reach.prepares_once part before there stage' here)
  · rw [others j same]
    exact named earlier j m r part before there stage'

/-- The name of every photo is that of a time that has come. -/
theorem Reach.exists_names (reach : Reach world start events s) :
    ∃ times : Nat → Nat, (∀ i, times i ≤ s.now) ∧
      Named world start events fun i => world.nameAt (times i) := by
  induction reach with
  | start => exact ⟨fun _ => 0, fun _ => Nat.zero_le _, fun _ _ _ _ part => by simp at part⟩
  | @next events event s s' reach next ih =>
    obtain ⟨times, past, named⟩ := ih
    have later : s.now ≤ s'.now := by
      cases next_change next with
      | request request => exact Nat.le_refl _
      | advance later => exact Nat.le_of_lt later
      | act _ advances => exact Nat.le_of_eq advances.now.symm
    -- a photo gets the time at which its run prepares it; the other photos keep theirs
    by_cases prepares : ∃ i run, event = .act i ∧ s.runs[i]? = some run ∧ run.stage = .preparing
    · obtain ⟨i, run, rfl, here, stage⟩ := prepares
      refine ⟨fun j => if j = i then s.now else times j, ?_, ?_⟩
      · intro j
        have := past j
        dsimp only
        split <;> omega
      · refine (named.rename reach here stage fun j other => by simp only [if_neg other]).concat
          reach ?_
        rintro j r ⟨⟩ there _
        simp only [if_true]
        rfl
    · refine ⟨times, fun i => Nat.le_trans (past i) later, named.concat reach ?_⟩
      intro i run acts here stage
      exact absurd ⟨i, run, acts, here, stage⟩ prepares

end Studio

end PhotoCapture
