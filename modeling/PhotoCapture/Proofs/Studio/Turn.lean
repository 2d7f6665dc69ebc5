import PhotoCapture.Proofs.Session.Binding
import PhotoCapture.Studio.Step

namespace PhotoCapture.Studio

open Session (Entry Asked Extends)

variable {σ : Type} {world : World σ} {s s' : Studio σ} {i : Nat} {run : Run}

/-- A command is withheld while nothing is bound, or the camera answers it. -/
inductive Passed (command : Camera.Command) (bound : Option Facing) :
    List Entry → Camera.Reply → Prop
  | withheld (unbound : bound = none) : Passed command bound [] (.refused .notBound)
  | answered {e : Entry} (some : bound ≠ none) (same : e.command = command) :
      Passed command bound [e] e.reply

theorem Passed.mem {command : Camera.Command} {bound : Option Facing} {entries : List Entry}
    {reply : Camera.Reply} (passed : Passed command bound entries reply) {e : Entry}
    (he : e ∈ entries) : entries = [e] ∧ e.command = command ∧ e.reply = reply := by
  cases passed with
  | withheld => simp at he
  | answered _ same =>
    obtain rfl := List.mem_singleton.mp he
    exact ⟨rfl, same, rfl⟩

/-- What a run does in a step: what the log gets, what becomes of the run, who holds the session
and waits for it then, and which endings are delivered. -/
inductive Turn (world : World σ) (s : Studio σ) (i : Nat) (run : Run) :
    List Entry → Run → Session.Lock Nat → List Completion → Prop
  | bound {entries how} (holds : s.lock.holder = some i) (stage : run.stage = .binding)
      (asked : Asked run.request.facing s.session.bound entries how)
      (agreed : how = .kept ∨ how = .asked .done) :
      Turn world s i run entries
        { run with stage := .lighting, states := run.states ++ [.applyingParameters] }
        s.lock s.completions
  | bindRefused {entries error} (holds : s.lock.holder = some i) (stage : run.stage = .binding)
      (asked : Asked run.request.facing s.session.bound entries (.asked (.refused error))) :
      Turn world s i run entries
        { run with stage := .ended (.reported (report run (.failed (.bind error.message)))) }
        (s.lock.release i) s.completions
  | bindCrashed {entries message} (holds : s.lock.holder = some i) (stage : run.stage = .binding)
      (asked : Asked run.request.facing s.session.bound entries (.asked (.crashed message))) :
      Turn world s i run entries { run with stage := .ended (.brokenOff message) }
        (s.lock.release i) s.completions
  | lit {entries reply} (holds : s.lock.holder = some i) (stage : run.stage = .lighting)
      (passed : Passed (.control (.torch run.request.controls.torch)) s.session.bound entries reply)
      (sound : ∀ message, reply ≠ .crashed message) :
      Turn world s i run entries { run with stage := .zooming } s.lock s.completions
  | lightCrashed {entries message} (holds : s.lock.holder = some i) (stage : run.stage = .lighting)
      (passed : Passed (.control (.torch run.request.controls.torch)) s.session.bound entries
        (.crashed message)) :
      Turn world s i run entries { run with stage := .ended (.brokenOff message) }
        (s.lock.release i) s.completions
  | zoomed {entries reply} (holds : s.lock.holder = some i) (stage : run.stage = .zooming)
      (passed : Passed (.control (.linearZoom run.request.controls.linearZoom)) s.session.bound
        entries reply)
      (sound : ∀ message, reply ≠ .crashed message) (untimed : run.request.timer = 0) :
      Turn world s i run entries
        { run with
          stage := .preparing
          filter := some (Filter.ofDescription run.request.filter).matrix }
        s.lock s.completions
  | timed {entries reply} (holds : s.lock.holder = some i) (stage : run.stage = .zooming)
      (passed : Passed (.control (.linearZoom run.request.controls.linearZoom)) s.session.bound
        entries reply)
      (sound : ∀ message, reply ≠ .crashed message) (timer : run.request.timer ≠ 0) :
      Turn world s i run entries
        { run with
          stage := .counting (s.now + 1000 * world.sleep run.request.timer.toNat)
          states := run.states ++ [.awaitingTimer]
          filter := some (Filter.ofDescription run.request.filter).matrix }
        (match world.policy with
          | .exclusive => s.lock
          | .unsynchronized => s.lock.release i)
        s.completions
  | zoomCrashed {entries message} (holds : s.lock.holder = some i) (stage : run.stage = .zooming)
      (passed : Passed (.control (.linearZoom run.request.controls.linearZoom)) s.session.bound
        entries (.crashed message)) :
      Turn world s i run entries { run with stage := .ended (.brokenOff message) }
        (s.lock.release i) s.completions
  | expired {due} (stage : run.stage = .counting due) (late : due ≤ s.now) :
      Turn world s i run [] { run with stage := .preparing }
        (match world.policy with
          | .exclusive => s.lock
          | .unsynchronized => s.lock.ask i)
        s.completions
  | prepared {path files} (holds : s.lock.holder = some i) (stage : run.stage = .preparing)
      (place : Photo.prepare s.files world.directory (s.photoName world) = (.ok path, files)) :
      Turn world s i run []
        { run with stage := .capturing path, states := run.states ++ [.capturing] }
        s.lock s.completions
  | unprepared {problem files} (holds : s.lock.holder = some i) (stage : run.stage = .preparing)
      (place : Photo.prepare s.files world.directory (s.photoName world) =
        (.error problem, files)) :
      Turn world s i run []
        { run with
          stage := .ended (.reported (report { run with states := run.states ++ [.capturing] }
            (.failed (.storage problem.message))))
          states := run.states ++ [.capturing] }
        (s.lock.release i) s.completions
  | captured {entries reply path} (holds : s.lock.holder = some i)
      (stage : run.stage = .capturing path)
      (passed : Passed (.capture path) s.session.bound entries reply) :
      Turn world s i run entries
        { run with
          stage := .ended (.reported (report run
            (captureOutcome path (Session.captureResult i reply)))) }
        (s.lock.release i) s.completions
  | delivered {ending} (stage : run.stage = .ended ending) :
      Turn world s i run [] { run with stage := .delivered ending } s.lock
        (s.completions ++ [⟨i, s.now, ending⟩])

/-- A step of a run: its turn, which changes no other run, and takes no time. -/
structure Advances (world : World σ) (s s' : Studio σ) (i : Nat) (run : Run)
    (entries : List Entry) (run' : Run) : Prop where
  turn : Turn world s i run entries run' s'.lock s'.completions
  runs : s'.runs = s.runs.set i run'
  now : s'.now = s.now
  session : Extends world.device (s.stamp i) s.session s'.session entries

theorem bind_advances (holds : s.lock.holder = some i) (stage : run.stage = .binding) :
    ∃ entries run', Advances world s (s.bind world i run) i run entries run' := by
  obtain ⟨entries, step, asked⟩ := Session.ensureBound_extends world.device (s.stamp i)
    run.request.controls.facing s.session
  unfold Studio.bind
  rcases hb : s.session.ensureBound world.device (s.stamp i) run.request.controls.facing with
    ⟨how, session⟩
  rw [hb] at step asked
  cases how with
  | kept => exact ⟨entries, _, .bound holds stage asked (Or.inl rfl), rfl, rfl, step⟩
  | asked reply =>
    cases reply with
    | done => exact ⟨entries, _, .bound holds stage asked (Or.inr rfl), rfl, rfl, step⟩
    | refused error => exact ⟨entries, _, .bindRefused holds stage asked, rfl, rfl, step⟩
    | crashed message => exact ⟨entries, _, .bindCrashed holds stage asked, rfl, rfl, step⟩

theorem set_passed (device : Camera.Device σ) (stamp : Session.Stamp) {c : Camera.Control}
    (setting : (Camera.Command.control c).rebinds = false) (session : Session σ) :
    ∃ entries, Extends device stamp session (session.set device stamp c).2 entries ∧
      Passed (.control c) session.bound entries (session.set device stamp c).1 := by
  rcases Session.set_cases device stamp setting session with ⟨unbound, h⟩ | ⟨some, e, h, hc, hr, -⟩
  · rw [h]
    exact ⟨[], .refl device stamp session, .withheld unbound⟩
  · exact ⟨[e], h, hr ▸ .answered some hc⟩

theorem light_advances (holds : s.lock.holder = some i) (stage : run.stage = .lighting) :
    ∃ entries run', Advances world s (s.light world i run) i run entries run' := by
  obtain ⟨entries, step, passed⟩ := set_passed world.device (s.stamp i)
    (c := .torch run.request.controls.torch) rfl s.session
  unfold Studio.light
  rcases ht : s.session.setTorch world.device (s.stamp i) run.request.controls.torch with
    ⟨reply, session⟩
  rw [Session.setTorch] at ht
  rw [ht] at step passed
  cases reply with
  | crashed message =>
    exact ⟨entries, _, .lightCrashed holds stage passed, rfl, rfl, step⟩
  | done => exact ⟨entries, _, .lit holds stage passed (by simp), rfl, rfl, step⟩
  | refused error => exact ⟨entries, _, .lit holds stage passed (by simp), rfl, rfl, step⟩

theorem zoomed_advances {session : Session σ} {entries : List Entry} {reply : Camera.Reply}
    (holds : s.lock.holder = some i) (stage : run.stage = .zooming)
    (step : Extends world.device (s.stamp i) s.session session entries)
    (passed : Passed (.control (.linearZoom run.request.controls.linearZoom)) s.session.bound
      entries reply)
    (sound : ∀ message, reply ≠ .crashed message) :
    ∃ run', Advances world s
      ({ s with session := session }.startTimer world i
        { run with filter := some (Filter.ofDescription run.request.filter).matrix })
      i run entries run' := by
  unfold Studio.startTimer
  split
  next untimed => exact ⟨_, .zoomed holds stage passed sound untimed, rfl, rfl, step⟩
  next timer =>
    have turn : Turn world s i run entries _ _ _ := .timed holds stage passed sound timer
    cases hp : world.policy with
    | exclusive =>
      rw [hp] at turn
      exact ⟨_, turn, rfl, rfl, step⟩
    | unsynchronized =>
      rw [hp] at turn
      exact ⟨_, turn, rfl, rfl, step⟩

theorem zoom_advances (holds : s.lock.holder = some i) (stage : run.stage = .zooming) :
    ∃ entries run', Advances world s (s.zoom world i run) i run entries run' := by
  obtain ⟨entries, step, passed⟩ := set_passed world.device (s.stamp i)
    (c := .linearZoom run.request.controls.linearZoom) rfl s.session
  unfold Studio.zoom
  rcases hz : s.session.setZoom world.device (s.stamp i) run.request.controls.linearZoom with
    ⟨reply, session⟩
  rw [Session.setZoom] at hz
  rw [hz] at step passed
  cases reply with
  | crashed message =>
    exact ⟨entries, _, .zoomCrashed holds stage passed, rfl, rfl, step⟩
  | done => exact ⟨entries, zoomed_advances holds stage step passed (by simp)⟩
  | refused error => exact ⟨entries, zoomed_advances holds stage step passed (by simp)⟩

theorem endTimer_advances {due : Nat} (stage : run.stage = .counting due) (late : due ≤ s.now) :
    ∃ entries run', Advances world s (s.endTimer world i run) i run entries run' := by
  have turn : Turn world s i run _ _ _ _ := .expired stage late
  have step := Extends.refl world.device (s.stamp i) s.session
  unfold Studio.endTimer
  cases hp : world.policy with
  | exclusive =>
    rw [hp] at turn
    exact ⟨[], _, turn, rfl, rfl, step⟩
  | unsynchronized =>
    rw [hp] at turn
    exact ⟨[], _, turn, rfl, rfl, step⟩

theorem prepare_advances (holds : s.lock.holder = some i) (stage : run.stage = .preparing) :
    ∃ entries run', Advances world s (s.prepare world i run) i run entries run' := by
  have step := Extends.refl world.device (s.stamp i) s.session
  unfold Studio.prepare
  rcases hp : Photo.prepare s.files world.directory (s.photoName world) with ⟨place, files⟩
  cases place with
  | ok path => exact ⟨[], _, .prepared holds stage hp, rfl, rfl, step⟩
  | error problem => exact ⟨[], _, .unprepared holds stage hp, rfl, rfl, step⟩

theorem capture_advances {path : String} (holds : s.lock.holder = some i)
    (stage : run.stage = .capturing path) :
    ∃ entries run', Advances world s (s.capture world i run path) i run entries run' := by
  unfold Studio.capture
  rcases hc : s.session.capture world.device (s.stamp i) path s.files with
    ⟨result, session, files⟩
  rcases Session.capture_cases world.device (s.stamp i) path s.session s.files with
    ⟨unbound, h⟩ | ⟨some, e, step, command, told, -⟩
  · obtain ⟨rfl, rest⟩ := Prod.mk.inj (hc.symm.trans h)
    obtain ⟨rfl, rfl⟩ := Prod.mk.inj rest
    have step := Extends.refl world.device (s.stamp i) s.session
    exact ⟨[], _, .captured holds stage (.withheld unbound), rfl, rfl, step⟩
  · rw [hc] at step told
    subst told
    exact ⟨[e], _, .captured holds stage (.answered some command), rfl, rfl, step⟩

theorem deliver_advances {ending : Ending} (stage : run.stage = .ended ending) :
    ∃ entries run', Advances world s (s.deliver i run ending) i run entries run' :=
  ⟨[], _, .delivered stage, rfl, rfl, .refl world.device (s.stamp i) s.session⟩

/-- The steps of a run: which one it takes is told by its stage, and it needs the session for all
but the end of its timer and the delivery of its ending. -/
inductive Acted (world : World σ) (s : Studio σ) (i : Nat) (run : Run) : Studio σ → Prop
  | bind (holds : s.lock.holder = some i) (stage : run.stage = .binding) :
      Acted world s i run (s.bind world i run)
  | light (holds : s.lock.holder = some i) (stage : run.stage = .lighting) :
      Acted world s i run (s.light world i run)
  | zoom (holds : s.lock.holder = some i) (stage : run.stage = .zooming) :
      Acted world s i run (s.zoom world i run)
  | endTimer {due} (stage : run.stage = .counting due) (late : due ≤ s.now) :
      Acted world s i run (s.endTimer world i run)
  | prepare (holds : s.lock.holder = some i) (stage : run.stage = .preparing) :
      Acted world s i run (s.prepare world i run)
  | capture {path} (holds : s.lock.holder = some i) (stage : run.stage = .capturing path) :
      Acted world s i run (s.capture world i run path)
  | deliver {ending} (stage : run.stage = .ended ending) :
      Acted world s i run (s.deliver i run ending)

theorem act_cases (h : s.act? world i run = some s') : Acted world s i run s' := by
  unfold Studio.act? at h
  cases stage : run.stage with
  | counting due =>
    obtain ⟨late, rfl⟩ : due ≤ s.now ∧ s.endTimer world i run = s' := by simpa [stage] using h
    exact .endTimer stage late
  | ended ending =>
    obtain rfl : s.deliver i run ending = s' := by simpa [stage] using h
    exact .deliver stage
  | delivered ending => simp [stage, Studio.actHolding?] at h
  | binding =>
    obtain ⟨holds, rfl⟩ : s.lock.holder = some i ∧ s.bind world i run = s' := by
      simpa [stage, Studio.actHolding?] using h
    exact .bind holds stage
  | lighting =>
    obtain ⟨holds, rfl⟩ : s.lock.holder = some i ∧ s.light world i run = s' := by
      simpa [stage, Studio.actHolding?] using h
    exact .light holds stage
  | zooming =>
    obtain ⟨holds, rfl⟩ : s.lock.holder = some i ∧ s.zoom world i run = s' := by
      simpa [stage, Studio.actHolding?] using h
    exact .zoom holds stage
  | preparing =>
    obtain ⟨holds, rfl⟩ : s.lock.holder = some i ∧ s.prepare world i run = s' := by
      simpa [stage, Studio.actHolding?] using h
    exact .prepare holds stage
  | capturing path =>
    obtain ⟨holds, rfl⟩ : s.lock.holder = some i ∧ s.capture world i run path = s' := by
      simpa [stage, Studio.actHolding?] using h
    exact .capture holds stage

theorem act_advances (h : s.act? world i run = some s') :
    ∃ entries run', Advances world s s' i run entries run' := by
  cases act_cases h with
  | bind holds stage => exact bind_advances holds stage
  | light holds stage => exact light_advances holds stage
  | zoom holds stage => exact zoom_advances holds stage
  | endTimer stage late => exact endTimer_advances stage late
  | prepare holds stage => exact prepare_advances holds stage
  | capture holds stage => exact capture_advances holds stage
  | deliver stage => exact deliver_advances stage

end PhotoCapture.Studio
