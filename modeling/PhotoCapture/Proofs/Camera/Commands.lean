import PhotoCapture.Proofs.Camera.Virtual
import PhotoCapture.Proofs.Control.Zoom

namespace PhotoCapture.Camera.Virtual

/-- The reply to a command that finds some files, and the camera afterwards. -/
def answer (command : Command) (files : Files) (camera : Virtual) : Reply × Virtual :=
  match command with
  | .control c => device.control c camera
  | .capture path =>
    let (reply, camera, _) := device.capture path camera files
    (reply, camera)

/-- How commands in a row are answered, each of which finds files of its own, and the camera
afterwards. -/
def answers : List (Command × Files) → Virtual → List (Command × Reply) × Virtual
  | [], camera => ([], camera)
  | (command, files) :: commands, camera =>
    let (reply, next) := camera.answer command files
    let (replies, last) := answers commands next
    ((command, reply) :: replies, last)

/-- What a command does to a camera. -/
inductive Obeys (camera : Virtual) : Command → Reply → Virtual → Prop
  | refused (command error) : Obeys camera command (.refused error) camera
  | freed : Obeys camera (.control .unbindAll) .done { camera with state := {} }
  | bound (facing) (pixels : camera.HasPixels) : Obeys camera (.control (.bind facing)) .done
      { camera with state := { camera.state with facing := some facing } }
  | lit (on) (bound : camera.state.facing ≠ none) : Obeys camera (.control (.torch on)) .done
      { camera with state := { camera.state with torch := on } }
  | zoomed (x) (bound : camera.state.facing ≠ none) (low : 0 ≤ x) (high : x ≤ 1) :
      Obeys camera (.control (.linearZoom x)) .done
        { camera with state := { camera.state with linearZoom := x } }
  | taken (path) (bound : camera.state.facing ≠ none) : Obeys camera (.capture path) .done
      { camera with captures := camera.captures + 1 }

section

variable {camera next : Virtual} {command : Command} {reply : Reply}

theorem control_obeys (c : Control) (camera : Virtual) :
    camera.Obeys (.control c) (control c camera).1 (control c camera).2 := by
  cases c with
  | unbindAll => exact .freed
  | bind facing =>
    simp only [control]
    split
    next => exact .refused _ _
    next pixels => exact .bound facing (not_or.mp pixels)
  | torch on =>
    simp only [control]
    split
    next => exact .refused _ _
    next bound => exact .lit on (by simpa using bound)
  | linearZoom x =>
    simp only [control]
    split
    next => exact .refused _ _
    next bound =>
      split
      next range => exact .zoomed x (by simpa using bound) range.1 range.2
      next => exact .refused _ _

theorem photo_bound {header : Photo.Header} (h : camera.photo = .ok header) :
    camera.state.facing ≠ none := by
  intro unbound
  simp [photo, unbound] at h

theorem capture_obeys (path : String) (camera : Virtual) (files : Files) :
    camera.Obeys (.capture path) (Virtual.capture path camera files).1
      (Virtual.capture path camera files).2.1 := by
  unfold Virtual.capture
  split
  next => exact .refused _ _
  next header photo =>
    split
    next => exact .refused _ _
    next => exact .taken path (photo_bound photo)

theorem answer_obeys (command : Command) (files : Files) (camera : Virtual) :
    camera.Obeys command (camera.answer command files).1 (camera.answer command files).2 := by
  cases command with
  | control c => exact control_obeys c camera
  | capture path => exact capture_obeys path camera files

theorem Obeys.unchanged (obeys : camera.Obeys command reply next) (failed : reply ≠ .done) :
    next = camera := by
  cases obeys with
  | refused => rfl
  | freed | bound | lit | zoomed | taken => exact absurd rfl failed

theorem Obeys.sensor (obeys : camera.Obeys command reply next) : next.sensor = camera.sensor := by
  cases obeys <;> rfl

def isPhoto : Command × Reply → Bool
  | (.capture _, .done) => true
  | _ => false

theorem Obeys.captures (obeys : camera.Obeys command reply next) :
    next.captures = camera.captures + [(command, reply)].countP isPhoto := by
  cases obeys with
  | refused command error => cases command <;> rfl
  | freed | bound | lit | zoomed | taken => rfl

/-- What holds of a virtual camera at all times. -/
structure Sound (camera : Virtual) : Prop where
  number : camera.state.linearZoom.isNan = false
  low : 0 ≤ camera.state.linearZoom
  high : camera.state.linearZoom ≤ 1
  unbound : camera.state.facing = none →
    camera.state.torch = false ∧ camera.state.linearZoom = 0
  pixels : ¬ camera.HasPixels → camera.state.facing = none

theorem sound_freed (camera : Virtual) : ({ camera with state := {} } : Virtual).Sound := by
  have least : (0 : Single) ≤ 0 := by decide
  have bounds : (0 : Single) ≤ 1 := by decide
  exact ⟨rfl, least, bounds, fun _ => ⟨rfl, rfl⟩, fun _ => rfl⟩

theorem Sound.obeys (sound : camera.Sound) (obeys : camera.Obeys command reply next) :
    next.Sound := by
  obtain ⟨number, low, high, unbound, pixels⟩ := sound
  cases obeys with
  | refused => exact ⟨number, low, high, unbound, pixels⟩
  | freed => exact sound_freed camera
  | bound facing present => exact ⟨number, low, high, nofun, fun absent => absurd present absent⟩
  | lit on held => exact ⟨number, low, high, fun free => absurd free held, pixels⟩
  | zoomed x held low' high' =>
    obtain ⟨a, -, place, -, -⟩ := Binary.le_iff.mp high'
    exact ⟨Binary.isNan_of_place place, low', high', fun free => absurd free held, pixels⟩
  | taken => exact ⟨number, low, high, unbound, pixels⟩

end

section

variable {camera : Virtual}

theorem answers_cons (command : Command) (files : Files) (commands : List (Command × Files))
    (camera : Virtual) : answers ((command, files) :: commands) camera =
      ((command, (camera.answer command files).1) ::
        (answers commands (camera.answer command files).2).1,
        (answers commands (camera.answer command files).2).2) := rfl

theorem answers_sensor (commands : List (Command × Files)) (camera : Virtual) :
    (answers commands camera).2.sensor = camera.sensor := by
  induction commands generalizing camera with
  | nil => rfl
  | cons given commands ih =>
    have step := answer_obeys given.1 given.2 camera
    exact (ih _).trans step.sensor

theorem answers_sound (commands : List (Command × Files)) (sound : camera.Sound) :
    (answers commands camera).2.Sound := by
  induction commands generalizing camera with
  | nil => exact sound
  | cons given commands ih =>
    have step := answer_obeys given.1 given.2 camera
    exact ih (sound.obeys step)

theorem answers_captures (commands : List (Command × Files)) (camera : Virtual) :
    (answers commands camera).2.captures =
      camera.captures + (answers commands camera).1.countP isPhoto := by
  induction commands generalizing camera with
  | nil => rfl
  | cons given commands ih =>
    obtain ⟨command, files⟩ := given
    have step := (answer_obeys command files camera).captures
    have rest := ih (camera.answer command files).2
    rw [answers_cons, rest, step, Nat.add_assoc, ← List.countP_append]
    rfl

/-- A camera keeps its settings in their ranges under any commands, counts the pictures that it
agreed to take, and is left as it was by a command that fails. -/
theorem commands_keep_camera_sound (sensor : Sensor) (commands : List (Command × Files)) :
    let (replies, camera) := answers commands { sensor := sensor }
    camera.Sound ∧ camera.sensor = sensor ∧ camera.captures = replies.countP isPhoto ∧
      ∀ command files, (camera.answer command files).1 ≠ .done →
        (camera.answer command files).2 = camera := by
  have counted := answers_captures commands { sensor := sensor }
  have unbound : ({ sensor := sensor } : Virtual).Sound := sound_freed { sensor := sensor }
  refine ⟨answers_sound commands unbound, answers_sensor commands _, by simpa using counted, ?_⟩
  intro command files failed
  exact (answer_obeys command files _).unchanged failed

/-- Every factor gives a linear zoom that a camera takes once it is bound, and a larger factor
never gives a smaller one. -/
theorem every_zoom_is_taken_in_order :
    (∀ factor : Single, (linearZoom factor).isNan = false ∧
      0 ≤ linearZoom factor ∧ linearZoom factor ≤ 1 ∧
      ∀ camera : Virtual, camera.state.facing ≠ none →
        control (.linearZoom (linearZoom factor)) camera =
          (.done, { camera with state := { camera.state with linearZoom := linearZoom factor } })) ∧
    ∀ x y : Single, x ≤ y → linearZoom x ≤ linearZoom y := by
  constructor
  · intro factor
    obtain ⟨low, high⟩ := linearZoom_range factor
    obtain ⟨a, -, place, -, -⟩ := Binary.le_iff.mp high
    refine ⟨Binary.isNan_of_place place, low, high, ?_⟩
    intro camera bound
    obtain ⟨facing, bound⟩ := Option.ne_none_iff_exists'.mp bound
    exact zoom_done bound low high
  · intro x y h
    exact linearZoom_le_linearZoom h

end

end PhotoCapture.Camera.Virtual
