import PhotoCapture.Proofs.Studio.Holding
import PhotoCapture.Proofs.Studio.Settings

namespace PhotoCapture.Studio

open Session (Entry Throughout boundAfter)

variable {σ : Type} {world : World σ} {s s' : Studio σ} {i j : Nat} {run run' : Run}
  {entries : List Entry} {lock : Session.Lock Nat} {completions : List Completion}
  {events : List Event}

/-- The log ends with what a run has set so far, if one is setting the camera; else, with the
settings of one request and the photos that were taken since. -/
structure Tuned (policy : Session.Policy) (s : Studio σ) : Prop where
  setting : ∀ (i : Nat) run, s.runs[i]? = some run → ∀ commands, run.setting? = some commands →
    EndsWith run.request i commands s.session.log
  set : (∀ (i : Nat) run, s.runs[i]? = some run → run.setting? = none) →
    ∀ (i : Nat) run, s.runs[i]? = some run → run.stage.hasSet = true →
      ∃ j request, s.requests[j]? = some request ∧ LastSet request j s.session.log ∧
        (policy = .exclusive → j = i)

theorem keeps_of_setting {policy : Session.Policy} {commands : List Camera.Command}
    (h : run.setting? = some commands) : run.stage.keeps policy = true := by
  unfold Run.setting? at h
  cases stage : run.stage with
  | lighting | zooming => rfl
  | _ => simp [stage] at h

theorem keeps_of_hasSet (h : run.stage.hasSet = true) : run.stage.keeps .exclusive = true := by
  cases stage : run.stage with
  | counting | preparing | capturing => rfl
  | _ => simp [stage, Stage.hasSet] at h

theorem Held.setting_alone {policy : Session.Policy} (held : s.Held policy)
    (holds : s.lock.holder = some i) (here : s.runs[j]? = some run) (other : j ≠ i) :
    run.setting? = none := by
  cases h : run.setting? with
  | none => rfl
  | some commands =>
    have := held j run here (keeps_of_setting h)
    rw [holds] at this
    exact absurd (Option.some.inj this).symm other

theorem Tuned.advances (tuned : s.Tuned world.policy) (held : s.Held world.policy)
    (here : s.runs[i]? = some run) (advances : Advances world s s' i run entries run')
    (bound : s.session.bound = boundAfter none s.session.log)
    (sound : ∀ e ∈ entries, ∀ message, e.reply ≠ .crashed message)
    (binds : ∀ e ∈ entries, ∀ facing, e.command = .control (.bind facing) → e.reply = .done) :
    s'.Tuned world.policy := by
  have log := advances.session.log
  have own : ∀ e ∈ entries, e.client = i := fun e he => (advances.session.stamped e he).2
  have requests := advances.requests_eq here
  have mine := advances.mine here
  rcases advances.turn.setting_cases bound own sound binds (tuned.setting i run here) with
    ⟨holds, commands, busy, ends⟩ | ⟨holds, idle, done, last⟩ | ⟨idle, idle', kept, photos⟩
  -- run `i` is setting the camera; or it has set all; or it does something else
  · constructor
    · intro j r there given h
      rcases advances.run_cases here there with ⟨rfl, rfl⟩ | ⟨other, there⟩
      · obtain rfl := Option.some.inj (busy.symm.trans h)
        exact log ▸ ends
      · rw [held.setting_alone holds there other] at h
        cases h
    · intro none
      rw [none i run' mine] at busy
      cases busy
  · constructor
    · intro j r there given h
      rcases advances.run_cases here there with ⟨rfl, rfl⟩ | ⟨other, there⟩
      · rw [idle] at h
        cases h
      · rw [held.setting_alone holds there other] at h
        cases h
    · intro _ j r there set
      refine ⟨i, run'.request, by simp [Studio.requests, mine], log ▸ last, ?_⟩
      intro exclusive
      have held' := held.advances here advances
      rw [exclusive] at held'
      have first := held' i run' mine (keeps_of_hasSet done)
      have second := held' j r there (keeps_of_hasSet set)
      exact Option.some.inj (first.symm.trans second)
  · constructor
    · intro j r there given h
      rcases advances.run_cases here there with ⟨rfl, rfl⟩ | ⟨other, there⟩
      · rw [idle'] at h
        cases h
      · have ends := tuned.setting j r there given h
        rcases photos with rfl | ⟨holds, -⟩
        · rwa [log, List.append_nil]
        · rw [held.setting_alone holds there other] at h
          cases h
    · intro none j r there set
      have before : ∀ (k : Nat) x, s.runs[k]? = some x → x.setting? = Option.none := by
        intro k x hk
        by_cases same : k = i
        · subst same
          obtain rfl := Option.some.inj (here.symm.trans hk)
          exact idle
        · exact none k x (by rw [advances.getElem? here, if_neg same, hk])
      have old : ∃ x, s.runs[j]? = some x ∧ x.stage.hasSet = true := by
        rcases advances.run_cases here there with ⟨rfl, rfl⟩ | ⟨-, there⟩
        · exact ⟨run, here, kept set⟩
        · exact ⟨r, there, set⟩
      have photos : ∀ e ∈ entries, ∃ path, e.command = .capture path := by
        rcases photos with rfl | ⟨-, photos⟩
        · simp
        · exact photos
      obtain ⟨x, hx, set⟩ := old
      obtain ⟨k, request, made, last, own⟩ := tuned.set before j x hx set
      exact ⟨k, request, requests ▸ made, log ▸ last.append photos, own⟩

theorem Tuned.requested {policy : Session.Policy} (tuned : s.Tuned policy) (request : Request) :
    (s.requested request).Tuned policy := by
  constructor
  · intro i run here commands h
    rcases requested_cases here with ⟨-, rfl⟩ | here
    · cases h
    · exact tuned.setting i run here commands h
  · intro none i run here set
    rcases requested_cases here with ⟨-, rfl⟩ | here
    · cases set
    · obtain ⟨j, r, made, last, own⟩ :=
        tuned.set (fun k x hk => none k x (requested_of_getElem? hk request)) i run here set
      exact ⟨j, r, requests_requested made request, last, own⟩

/-- A photo in a log was taken with the settings of one request, which are the latest settings
before it, and its own when requests keep the session to themselves. -/
def TakenWith (policy : Session.Policy) (requests : List Request) (earlier : List Entry)
    (e : Entry) : Prop :=
  ∃ j request, requests[j]? = some request ∧ LastSet request j earlier ∧
    (policy = .exclusive → j = e.client)

theorem Turn.capture_cases (turn : Turn world s i run entries run' lock completions) {e : Entry}
    (he : e ∈ entries) (photo : e.isCapture = true) :
    s.lock.holder = some i ∧ (∃ path, run.stage = .capturing path) ∧ entries = [e] := by
  have control : ∀ c, e.command ≠ .control c := by
    intro c hc
    simp [Entry.isCapture, hc, Camera.Command.isCapture] at photo
  cases turn with
  | captured holds stage passed => exact ⟨holds, ⟨_, stage⟩, (passed.mem he).1⟩
  | bound _ _ asked | bindRefused _ _ asked | bindCrashed _ _ asked =>
    have := asked.rebinds e he
    obtain ⟨_, _, command, _, _⟩ := e
    cases command with
    | control c => exact absurd rfl (control c)
    | capture path => simp [Entry.rebinds, Camera.Command.rebinds] at this
  | lit _ _ passed | lightCrashed _ _ passed | zoomed _ _ passed | timed _ _ passed
  | zoomCrashed _ _ passed =>
    exact absurd (passed.mem he).2.1 (control _)
  | expired | prepared | unprepared | delivered => simp at he

theorem Tuned.photo (tuned : s.Tuned world.policy) (held : s.Held world.policy)
    (here : s.runs[i]? = some run) (advances : Advances world s s' i run entries run') :
    Throughout (fun earlier e => e.isCapture = true →
      TakenWith world.policy s.requests (s.session.log ++ earlier) e) entries := by
  intro earlier e later he photo
  obtain ⟨holds, ⟨path, stage⟩, only⟩ := advances.turn.capture_cases (by simp [he]) photo
  obtain rfl : earlier = [] := by
    rw [he] at only
    cases earlier with
    | nil => rfl
    | cons x earlier => simp at only
  have idle : ∀ (j : Nat) r, s.runs[j]? = some r → r.setting? = none := by
    intro j r there
    by_cases same : j = i
    · subst same
      obtain rfl := Option.some.inj (here.symm.trans there)
      simp [Run.setting?, stage]
    · exact held.setting_alone holds there same
  obtain ⟨j, request, made, last, own⟩ := tuned.set idle i run here (by simp [stage, Stage.hasSet])
  have client : e.client = i := (advances.session.stamped e (by simp [he])).2
  exact ⟨j, request, made, by simpa using last, fun exclusive => (own exclusive).trans client.symm⟩

structure Sees (world : World Camera.Virtual) (camera : Camera.Virtual)
    (s : Studio Camera.Virtual) : Prop where
  faithful : s.session.Faithful world.device camera none
  tuned : s.Tuned world.policy
  photos : Throughout (fun earlier e => e.isCapture = true →
    TakenWith world.policy s.requests earlier e) s.session.log

theorem reach_sees {world : World Camera.Virtual} {camera : Camera.Virtual} {files : Files}
    {s : Studio Camera.Virtual} (virtual : world.device = Camera.Virtual.device)
    (pixels : camera.HasPixels) (reach : Reach world (openedOn camera none files) events s) :
    Sees world camera s := by
  apply reach.induction (P := fun _ s => Sees world camera s)
  · refine ⟨.start world.device camera none, ⟨?_, ?_⟩, Session.throughout_nil⟩
    · simp [openedOn]
    · simp [openedOn]
  · intro events event s s' reach ih change
    cases change with
    | request request =>
      refine ⟨ih.faithful, ih.tuned.requested request, ?_⟩
      intro earlier e later hl photo
      obtain ⟨j, r, made, last, own⟩ := ih.photos earlier e later hl photo
      exact ⟨j, r, requests_requested made request, last, own⟩
    | advance later => exact ⟨ih.faithful, ⟨ih.tuned.setting, ih.tuned.set⟩, ih.photos⟩
    | @act i run entries run' _ here advances =>
      have held := reach_held reach
      have sound : ∀ e ∈ entries, ∀ message, e.reply ≠ .crashed message := by
        have ran := advances.session.ran
        rw [virtual] at ran
        exact Camera.Virtual.ran_sound ran
      have binds : ∀ e ∈ entries, ∀ facing, e.command = .control (.bind facing) →
          e.reply = .done := by
        have ran := advances.session.ran
        have before := ih.faithful.ran
        rw [virtual] at ran before
        refine Camera.Virtual.ran_binds ran ?_
        rw [Camera.Virtual.HasPixels, Camera.Virtual.ran_sensor before]
        exact pixels
      refine ⟨ih.faithful.extends advances.session,
        ih.tuned.advances held here advances ih.faithful.bound sound binds, ?_⟩
      rw [advances.session.log, advances.requests_eq here]
      exact Session.throughout_append ih.photos (ih.tuned.photo held here advances)

/-- A virtual camera whose sensor has pixels takes every photo with the settings of one request:
the one that was the latest to set the camera, and the request for the photo itself when requests
keep the session to themselves. -/
theorem photos_see_one_request {world : World Camera.Virtual} {camera : Camera.Virtual}
    {files : Files} {s : Studio Camera.Virtual} (virtual : world.device = Camera.Virtual.device)
    (pixels : camera.HasPixels) (reach : Reach world (openedOn camera none files) events s) :
    ∀ earlier e later, s.session.log = earlier ++ e :: later → e.isCapture = true →
      ∃ j request, (events.filterMap Event.request?)[j]? = some request ∧
        e.before = request.controls.state ∧ LastSet request j earlier ∧
        (world.policy = .exclusive → j = e.client) := by
  intro earlier e later hl photo
  have sees := reach_sees virtual pixels reach
  obtain ⟨j, request, made, last, own⟩ := sees.photos earlier e later hl photo
  have ran := sees.faithful.ran
  rw [hl, virtual] at ran
  obtain ⟨camera', first, rest⟩ := ran.split
  have requests : s.requests = events.filterMap Event.request? := by
    simpa [openedOn, Studio.requests] using reach.requests_eq
  refine ⟨j, request, requests ▸ made, ?_, last, own⟩
  rw [rest.before_eq]
  exact last.state first

/-- A studio with a virtual camera that requests give up while their timers run. -/
def sharing : World Camera.Virtual where
  device := Camera.Virtual.device
  policy := .unsynchronized
  directory := "/photos"
  opening := ⟨0, false⟩
  offset := .zero

/-- While the timer of a request with light runs, another one takes its photo without. -/
def interruption : List Event :=
  [.request { Request.standard with flash := .on, timer := 1 }, .act 0, .act 0, .act 0,
    .request .standard, .act 1, .act 1, .act 1, .act 1, .act 1, .advance 1000, .act 0, .act 0,
    .act 0]

theorem interruption_sees_one_request : ∃ s earlier e,
    Reach sharing (openedOn { sensor := ⟨4, 3, 80⟩ } none .root) interruption s ∧
      s.session.log = earlier ++ [e] ∧ e.client = 0 ∧ e.before.torch = false ∧
      ∃ j request, (interruption.filterMap Event.request?)[j]? = some request ∧
        e.before = request.controls.state ∧ LastSet request j earlier := by
  have ended : ((openedOn { sensor := ⟨4, 3, 80⟩ } none .root).after? sharing interruption).map
      (fun s => s.session.log.getLast?.map fun e => (e.isCapture, e.client, e.before.torch)) =
        some (some (true, 0, false)) := by decide +kernel
  obtain ⟨s, reached, ended⟩ := Option.map_eq_some_iff.mp ended
  obtain ⟨e, last, found⟩ := Option.map_eq_some_iff.mp ended
  obtain ⟨photo, client, torch⟩ : e.isCapture = true ∧ e.client = 0 ∧ e.before.torch = false := by
    simpa using found
  obtain ⟨earlier, hl⟩ := List.getLast?_eq_some_iff.mp last
  have reach := reach_iff_after?.mpr reached
  obtain ⟨j, request, made, state, set, -⟩ :=
    photos_see_one_request rfl ⟨by decide, by decide⟩ reach earlier e [] hl photo
  exact ⟨s, earlier, e, reach, hl, client, torch, j, request, made, state, set⟩

end PhotoCapture.Studio
