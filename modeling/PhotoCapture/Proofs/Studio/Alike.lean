import PhotoCapture.Proofs.Session.Alike
import PhotoCapture.Proofs.Studio.Forecast

namespace PhotoCapture

open Camera (Likeness)

/-- Two outcomes are the same, but for the path of the photo. -/
inductive Outcome.Like (paths : String → String → Prop) : Outcome → Outcome → Prop
  | saved {path path'} (same : paths path path') : Like paths (.saved path) (.saved path')
  | failed (reason) : Like paths (.failed reason) (.failed reason)

structure Report.Like (paths : String → String → Prop) (report report' : Report) : Prop where
  outcome : report.outcome.Like paths report'.outcome
  controls : report.controls = report'.controls
  states : report.states = report'.states

inductive Ending.Like (paths : String → String → Prop) : Ending → Ending → Prop
  | reported {report report'} (like : report.Like paths report') :
      Like paths (.reported report) (.reported report')
  | brokenOff (message) : Like paths (.brokenOff message) (.brokenOff message)

/-- Two runs have come equally far, and set the camera to the same. -/
structure Run.Like (run run' : Run) : Prop where
  controls : run.request.controls = run'.request.controls
  timer : run.request.timer = run'.request.timer
  states : run.states = run'.states

inductive Photo.Placed (paths : String → String → Prop) :
    Except Files.Problem String → Except Files.Problem String → Prop
  | ok {path path'} (same : paths path path') : Placed paths (.ok path) (.ok path')
  | error (problem) : Placed paths (.error problem) (.error problem)

structure Prospect.Like {σ τ : Type} (l : Likeness σ τ) (prospect : Prospect σ)
    (prospect' : Prospect τ) : Prop where
  session : prospect.session.Like l.paths l.done prospect.files prospect'.session prospect'.files
  ending : prospect.ending.Like l.paths prospect'.ending

namespace Studio

variable {σ τ : Type} {l : Likeness σ τ} {world : World σ} {world' : World τ} {i : Nat}
  {name name' : String} {run run' : Run} {session : Session σ} {session' : Session τ}
  {files files' : Files}

/-- Photos with these names find their places alike. -/
structure AlikePlaces (l : Likeness σ τ) (directory directory' name name' : String) : Prop where
  place : ∀ {c f c' f'}, l.working c f c' f' →
    Photo.Placed l.paths (Photo.prepare f directory name).1 (Photo.prepare f' directory' name').1
  files : ∀ {c f c' f'}, l.working c f c' f' →
    l.working c (Photo.prepare f directory name).2 c' (Photo.prepare f' directory' name').2

theorem alikePlaces_of_files {directory : String}
    (one : ∀ {c f c' f'}, l.working c f c' f' → f = f')
    (any : ∀ {c f c' g}, l.working c f c' f → l.working c g c' g)
    (same : ∀ dir, l.paths (Files.join dir name) (Files.join dir name')) :
    AlikePlaces l directory directory name name' := by
  have placed : ∀ files, Photo.Placed l.paths (Photo.prepare files directory name).1
        (Photo.prepare files directory name').1 ∧
      (Photo.prepare files directory name).2 = (Photo.prepare files directory name').2 := by
    intro files
    unfold Photo.prepare
    rcases files.makeAll directory with ⟨made, left⟩
    cases made with
    | error problem => exact ⟨.error problem, rfl⟩
    | ok =>
      dsimp only
      cases left.canonical directory with
      | error problem => exact ⟨.error problem, rfl⟩
      | ok dir => exact ⟨.ok (same dir), rfl⟩
  constructor
  · intro c f c' f' working
    obtain rfl := one working
    exact (placed f).1
  · intro c f c' f' working
    obtain rfl := one working
    rw [(placed f).2]
    exact any working

theorem report_like {outcome outcome' : Outcome} {paths : String → String → Prop}
    (like : run.Like run') (same : outcome.Like paths outcome') :
    (report run outcome).Like paths (report run' outcome') := by
  refine ⟨same, like.controls, ?_⟩
  cases same with
  | saved => simp [report, Outcome.isSaved, like.states]
  | failed => simp [report, Outcome.isSaved, like.states]

theorem captureOutcome_like {paths : String → String → Prop} {path path' : String}
    (same : paths path path') (result : Except Camera.Error Unit) :
    (captureOutcome path result).Like paths (captureOutcome path' result) := by
  cases result with
  | ok => exact .saved same
  | error error => cases error <;> exact .failed _

theorem ofCapturing_like {path path' : String}
    (alike : Camera.Alike l world.device world'.device) (like : run.Like run')
    (same : l.paths path path')
    (sessions : session.Like l.paths l.working files session' files') :
    (Prospect.ofCapturing world i run path session files).Like l
      (Prospect.ofCapturing world' i run' path' session' files') := by
  obtain ⟨told, after⟩ := sessions.capture ⟨0, i⟩ alike same
  unfold Prospect.ofCapturing
  rcases hc : session.capture world.device ⟨0, i⟩ path files with ⟨result, left, files⟩
  rcases hc' : session'.capture world'.device ⟨0, i⟩ path' files' with ⟨result', left', files'⟩
  rw [hc, hc'] at told after
  obtain rfl := told
  exact ⟨after, .reported (report_like like (captureOutcome_like same _))⟩

theorem ofPreparing_like (alike : Camera.Alike l world.device world'.device)
    (places : AlikePlaces l world.directory world'.directory name name') (like : run.Like run')
    (sessions : session.Like l.paths l.working files session' files') :
    (Prospect.ofPreparing world i name run session files).Like l
      (Prospect.ofPreparing world' i name' run' session' files') := by
  have place := places.place sessions.cameras
  have filed := places.files sessions.cameras
  have like' : ({ run with states := run.states ++ [.capturing] } : Run).Like
      { run' with states := run'.states ++ [.capturing] } :=
    ⟨like.controls, like.timer, congrArg (· ++ [.capturing]) like.states⟩
  unfold Prospect.ofPreparing
  rcases hp : Photo.prepare files world.directory name with ⟨found, left⟩
  rcases hp' : Photo.prepare files' world'.directory name' with ⟨found', left'⟩
  rw [hp, hp'] at place filed
  have sessions : session.Like l.paths l.working left session' left' :=
    ⟨sessions.bound, filed, sessions.log⟩
  cases place with
  | ok same => exact ofCapturing_like alike like' same sessions
  | error problem =>
    exact ⟨⟨sessions.bound, alike.ends filed, sessions.log⟩,
      .reported (report_like like' (.failed _))⟩

theorem crash_cases {reply reply' : Camera.Reply}
    (crash : ∀ m, reply = .crashed m ↔ reply' = .crashed m) :
    (∃ m, reply = .crashed m ∧ reply' = .crashed m) ∨
      (∀ m, reply ≠ .crashed m) ∧ ∀ m, reply' ≠ .crashed m := by
  by_cases crashed : ∃ m, reply = .crashed m
  · obtain ⟨m, rfl⟩ := crashed
    exact Or.inl ⟨m, rfl, (crash m).mp rfl⟩
  · have sound : ∀ m, reply ≠ .crashed m := fun m told => crashed ⟨m, told⟩
    exact Or.inr ⟨sound, fun m told => sound m ((crash m).mpr told)⟩

theorem ofZooming_like (alike : Camera.Alike l world.device world'.device)
    (places : AlikePlaces l world.directory world'.directory name name') (like : run.Like run')
    (sessions : session.Like l.paths l.working files session' files') :
    (Prospect.ofZooming world i name run session files).Like l
      (Prospect.ofZooming world' i name' run' session' files') := by
  obtain ⟨crash, after⟩ := sessions.set ⟨0, i⟩ alike
    (.linearZoom run.request.controls.linearZoom) rfl
  unfold Prospect.ofZooming Session.setZoom
  rw [← like.controls, ← like.timer]
  rcases hz : session.set world.device ⟨0, i⟩ (.linearZoom run.request.controls.linearZoom) with
    ⟨reply, left⟩
  rcases hz' : session'.set world'.device ⟨0, i⟩
    (.linearZoom run.request.controls.linearZoom) with ⟨reply', left'⟩
  rw [hz, hz'] at crash after
  have waited : ({ run with
      states := run.states ++ if run.request.timer = 0 then [] else [.awaitingTimer]
      filter := some (Filter.ofDescription run.request.filter).matrix } : Run).Like
      { run' with
        states := run'.states ++ if run.request.timer = 0 then [] else [.awaitingTimer]
        filter := some (Filter.ofDescription run'.request.filter).matrix } :=
    ⟨like.controls, like.timer, by simp only [like.states]⟩
  rcases crash_cases crash with ⟨message, rfl, rfl⟩ | ⟨sound, sound'⟩
  · exact ⟨⟨after.bound, alike.ends after.cameras, after.log⟩, .brokenOff message⟩
  · have next := ofPreparing_like (i := i) alike places waited after
    cases reply with
    | crashed message => exact absurd rfl (sound message)
    | done | refused =>
      cases reply' with
      | crashed message => exact absurd rfl (sound' message)
      | done | refused => exact next

theorem ofLighting_like (alike : Camera.Alike l world.device world'.device)
    (places : AlikePlaces l world.directory world'.directory name name') (like : run.Like run')
    (sessions : session.Like l.paths l.working files session' files') :
    (Prospect.ofLighting world i name run session files).Like l
      (Prospect.ofLighting world' i name' run' session' files') := by
  obtain ⟨crash, after⟩ := sessions.set ⟨0, i⟩ alike (.torch run.request.controls.torch) rfl
  unfold Prospect.ofLighting Session.setTorch
  rw [← like.controls]
  rcases ht : session.set world.device ⟨0, i⟩ (.torch run.request.controls.torch) with
    ⟨reply, left⟩
  rcases ht' : session'.set world'.device ⟨0, i⟩ (.torch run.request.controls.torch) with
    ⟨reply', left'⟩
  rw [ht, ht'] at crash after
  rcases crash_cases crash with ⟨message, rfl, rfl⟩ | ⟨sound, sound'⟩
  · exact ⟨⟨after.bound, alike.ends after.cameras, after.log⟩, .brokenOff message⟩
  · have next := ofZooming_like (i := i) alike places like after
    cases reply with
    | crashed message => exact absurd rfl (sound message)
    | done | refused =>
      cases reply' with
      | crashed message => exact absurd rfl (sound' message)
      | done | refused => exact next

theorem ofBinding_like (alike : Camera.Alike l world.device world'.device)
    (places : AlikePlaces l world.directory world'.directory name name') (like : run.Like run')
    (sessions : session.Like l.paths l.working files session' files') :
    (Prospect.ofBinding world i name run session files).Like l
      (Prospect.ofBinding world' i name' run' session' files') := by
  obtain ⟨told, after⟩ := sessions.ensureBound ⟨0, i⟩ alike run.request.controls.facing
  unfold Prospect.ofBinding
  rw [← like.controls]
  rcases hb : session.ensureBound world.device ⟨0, i⟩ run.request.controls.facing with ⟨how, left⟩
  rcases hb' : session'.ensureBound world'.device ⟨0, i⟩ run.request.controls.facing with
    ⟨how', left'⟩
  rw [hb, hb'] at told after
  obtain rfl := told
  have ended : left.Like l.paths l.done files left' files' :=
    ⟨after.bound, alike.ends after.cameras, after.log⟩
  have bound : ({ run with states := run.states ++ [.applyingParameters] } : Run).Like
      { run' with states := run'.states ++ [.applyingParameters] } :=
    ⟨like.controls, like.timer, congrArg (· ++ [.applyingParameters]) like.states⟩
  have next := ofLighting_like (i := i) alike places bound after
  cases how with
  | kept => exact next
  | asked reply =>
    cases reply with
    | done => exact next
    | refused error => exact ⟨ended, .reported (report_like like (.failed _))⟩
    | crashed message => exact ⟨ended, .brokenOff message⟩

/-- What comes of requests that ask for the same is the same with either camera, one after the
other. -/
theorem forecast_like {names names' : Nat → String}
    (alike : Camera.Alike l world.device world'.device) (again : l.done = l.working)
    (places : ∀ i, AlikePlaces l world.directory world'.directory (names i) (names' i))
    (requests : List Request) (sessions : session.Like l.paths l.working files session' files') :
    let runs := requests.map fun request => ({ request := request } : Run)
    let all := forecast world names i runs session files
    let all' := forecast world' names' i runs session' files'
    all.session.Like l.paths l.working all.files all'.session all'.files ∧
      List.Forall₂ (Ending.Like l.paths) all.endings all'.endings := by
  induction requests generalizing i session session' files files' with
  | nil => exact ⟨sessions, .nil⟩
  | cons request requests ih =>
    have like : ({ request := request } : Run).Like { request := request } := ⟨rfl, rfl, rfl⟩
    have first := ofBinding_like (i := i) alike (places i) like sessions
    have after := first.session
    rw [again] at after
    obtain ⟨last, endings⟩ := @ih (i + 1) _ _ _ _ after
    exact ⟨last, .cons first.ending endings⟩

end Studio

end PhotoCapture
