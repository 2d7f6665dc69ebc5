import PhotoCapture.Proofs.Session.Untimed
import PhotoCapture.Proofs.Studio.Turn

namespace PhotoCapture

/-- The session and the files that a run leaves, and how it ends. -/
structure Prospect (σ : Type) where
  session : Session σ
  files : Files
  ending : Ending

namespace Prospect

variable {σ : Type}

section

variable (world : Studio.World σ) (i : Nat) (name : String)

def ofCapturing (run : Run) (path : String) (session : Session σ) (files : Files) : Prospect σ :=
  let (result, session, files) := session.capture world.device ⟨0, i⟩ path files
  ⟨session, files, .reported (Studio.report run (Studio.captureOutcome path result))⟩

def ofPreparing (run : Run) (session : Session σ) (files : Files) : Prospect σ :=
  let run := { run with states := run.states ++ [.capturing] }
  match Photo.prepare files world.directory name with
  | (.ok path, files) => ofCapturing world i run path session files
  | (.error problem, files) =>
    ⟨session, files, .reported (Studio.report run (.failed (.storage problem.message)))⟩

def ofZooming (run : Run) (session : Session σ) (files : Files) : Prospect σ :=
  match session.setZoom world.device ⟨0, i⟩ run.request.controls.linearZoom with
  | (.crashed message, session) => ⟨session, files, .brokenOff message⟩
  | (_, session) =>
    let waited := if run.request.timer = 0 then [] else [.awaitingTimer]
    ofPreparing world i name
      { run with
        states := run.states ++ waited
        filter := some (Filter.ofDescription run.request.filter).matrix }
      session files

def ofLighting (run : Run) (session : Session σ) (files : Files) : Prospect σ :=
  match session.setTorch world.device ⟨0, i⟩ run.request.controls.torch with
  | (.crashed message, session) => ⟨session, files, .brokenOff message⟩
  | (_, session) => ofZooming world i name run session files

def ofBinding (run : Run) (session : Session σ) (files : Files) : Prospect σ :=
  match session.ensureBound world.device ⟨0, i⟩ run.request.controls.facing with
  | (.kept, session) | (.asked .done, session) =>
    ofLighting world i name { run with states := run.states ++ [.applyingParameters] } session files
  | (.asked (.refused error), session) =>
    ⟨session, files, .reported (Studio.report run (.failed (.bind error.message)))⟩
  | (.asked (.crashed message), session) => ⟨session, files, .brokenOff message⟩

def ofRun (run : Run) (session : Session σ) (files : Files) : Prospect σ :=
  match run.stage with
  | .binding => ofBinding world i name run session files
  | .lighting => ofLighting world i name run session files
  | .zooming => ofZooming world i name run session files
  | .counting _ | .preparing => ofPreparing world i name run session files
  | .capturing path => ofCapturing world i run path session files
  | .ended ending | .delivered ending => ⟨session, files, ending⟩

end

end Prospect

namespace Studio

variable {σ : Type} {world : World σ} {name : String} {s s' : Studio σ} {i : Nat} {run : Run}

/-- A step of a run does not change what comes of it. -/
def Foreseen (world : World σ) (name : String) (s : Studio σ) (i : Nat) (run : Run)
    (s' : Studio σ) : Prop :=
  ∃ run', s'.runs = s.runs.set i run' ∧
    Prospect.ofRun world i name run' s'.session.untimed s'.files =
      Prospect.ofRun world i name run s.session.untimed s.files

theorem bind_foreseen (stage : run.stage = .binding) :
    Foreseen world name s i run (s.bind world i run) := by
  have untimed := s.session.ensureBound_untimed world.device s.now i
    run.request.controls.facing
  have whole : Prospect.ofRun world i name run s.session.untimed s.files =
      Prospect.ofBinding world i name run s.session.untimed s.files := by
    simp only [Prospect.ofRun, stage]
  unfold Foreseen Studio.bind Studio.stamp
  rw [Prospect.ofBinding, untimed] at whole
  rcases hb : s.session.ensureBound world.device ⟨s.now, i⟩ run.request.controls.facing with
    ⟨how, session⟩
  rw [hb] at whole
  cases how with
  | kept => exact ⟨_, rfl, whole.symm⟩
  | asked reply => cases reply <;> exact ⟨_, rfl, whole.symm⟩

theorem light_foreseen (stage : run.stage = .lighting) :
    Foreseen world name s i run (s.light world i run) := by
  have untimed := s.session.set_untimed world.device s.now i
    (.torch run.request.controls.torch)
  have whole : Prospect.ofRun world i name run s.session.untimed s.files =
      Prospect.ofLighting world i name run s.session.untimed s.files := by
    simp only [Prospect.ofRun, stage]
  unfold Foreseen Studio.light Studio.stamp
  rw [Prospect.ofLighting, Session.setTorch, untimed] at whole
  rw [Session.setTorch]
  rcases ht : s.session.set world.device ⟨s.now, i⟩ (.torch run.request.controls.torch) with
    ⟨reply, session⟩
  rw [ht] at whole
  cases reply <;> exact ⟨_, rfl, whole.symm⟩

/-- A run that waits for its timer has as much before it as one that does not. -/
theorem startTimer_foreseen (world : World σ) (name : String) (s : Studio σ) (i : Nat) (run : Run) :
    ∃ run', (s.startTimer world i run).runs = s.runs.set i run' ∧
      (s.startTimer world i run).session = s.session ∧
      (s.startTimer world i run).files = s.files ∧
      ∀ session files, Prospect.ofRun world i name run' session files =
        Prospect.ofPreparing world i name
          { run with
            states := run.states ++ if run.request.timer = 0 then [] else [.awaitingTimer] }
          session files := by
  unfold Studio.startTimer
  split
  next => exact ⟨_, rfl, rfl, rfl, fun _ _ => by simp [Prospect.ofRun, Prospect.ofPreparing,
      Prospect.ofCapturing, Studio.report]⟩
  next =>
    cases world.policy with
    | exclusive => exact ⟨_, rfl, rfl, rfl, fun _ _ => rfl⟩
    | unsynchronized => exact ⟨_, rfl, rfl, rfl, fun _ _ => rfl⟩

theorem zoom_foreseen (stage : run.stage = .zooming) :
    Foreseen world name s i run (s.zoom world i run) := by
  have untimed := s.session.set_untimed world.device s.now i
    (.linearZoom run.request.controls.linearZoom)
  have whole : Prospect.ofRun world i name run s.session.untimed s.files =
      Prospect.ofZooming world i name run s.session.untimed s.files := by
    simp only [Prospect.ofRun, stage]
  unfold Foreseen Studio.zoom Studio.stamp
  rw [Prospect.ofZooming, Session.setZoom, untimed] at whole
  rw [Session.setZoom]
  rcases hz : s.session.set world.device ⟨s.now, i⟩
    (.linearZoom run.request.controls.linearZoom) with ⟨reply, session⟩
  rw [hz] at whole
  cases reply with
  | crashed message => exact ⟨_, rfl, whole.symm⟩
  | done | refused =>
    obtain ⟨run', runs, kept, files, same⟩ := startTimer_foreseen world name
      { s with session := session } i
      { run with filter := some (Filter.ofDescription run.request.filter).matrix }
    refine ⟨run', runs, ?_⟩
    dsimp only
    rw [kept, files, same]
    exact whole.symm

theorem endTimer_foreseen {due : Nat} (stage : run.stage = .counting due) :
    Foreseen world name s i run (s.endTimer world i run) := by
  have whole : Prospect.ofRun world i name run s.session.untimed s.files =
      Prospect.ofPreparing world i name run s.session.untimed s.files := by
    simp only [Prospect.ofRun, stage]
  unfold Foreseen Studio.endTimer
  cases world.policy with
  | exclusive => exact ⟨_, rfl, whole.symm⟩
  | unsynchronized => exact ⟨_, rfl, whole.symm⟩

theorem prepare_foreseen (stage : run.stage = .preparing) (named : s.photoName world = name) :
    Foreseen world name s i run (s.prepare world i run) := by
  have whole : Prospect.ofRun world i name run s.session.untimed s.files =
      Prospect.ofPreparing world i name run s.session.untimed s.files := by
    simp only [Prospect.ofRun, stage]
  unfold Foreseen Studio.prepare
  rw [Prospect.ofPreparing] at whole
  rw [named]
  rcases hp : Photo.prepare s.files world.directory name with ⟨place, files⟩
  rw [hp] at whole
  cases place with
  | ok path => exact ⟨_, rfl, whole.symm⟩
  | error problem => exact ⟨_, rfl, whole.symm⟩

theorem capture_foreseen {path : String} (stage : run.stage = .capturing path) :
    Foreseen world name s i run (s.capture world i run path) := by
  have untimed := s.session.capture_untimed world.device s.now i path s.files
  have whole : Prospect.ofRun world i name run s.session.untimed s.files =
      Prospect.ofCapturing world i run path s.session.untimed s.files := by
    simp only [Prospect.ofRun, stage]
  unfold Foreseen Studio.capture Studio.stamp
  rw [Prospect.ofCapturing, untimed] at whole
  exact ⟨_, rfl, whole.symm⟩

theorem act_foreseen (named : run.stage = .preparing → s.photoName world = name)
    (act : s.act? world i run = some s') : Foreseen world name s i run s' := by
  cases act_cases act with
  | bind _ stage => exact bind_foreseen stage
  | light _ stage => exact light_foreseen stage
  | zoom _ stage => exact zoom_foreseen stage
  | endTimer stage => exact endTimer_foreseen stage
  | prepare _ stage => exact prepare_foreseen stage (named stage)
  | capture _ stage => exact capture_foreseen stage
  | deliver stage =>
    exact ⟨_, rfl, by simp [Prospect.ofRun, stage, Studio.deliver, Studio.setRun]⟩

end Studio

end PhotoCapture
