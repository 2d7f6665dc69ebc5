import PhotoCapture.Proofs.Session.Binding
import PhotoCapture.Session.Shared

namespace PhotoCapture.Session

variable {σ ι : Type} {device : Camera.Device σ} {stamp : Stamp} {session : Session σ} {camera : σ}
  {before : Option Facing}

theorem Faithful.ensureBound (faithful : session.Faithful device camera before) (facing : Facing) :
    (session.ensureBound device stamp facing).2.Faithful device camera before := by
  obtain ⟨entries, h, -⟩ := ensureBound_extends device stamp facing session
  exact faithful.extends h

theorem Faithful.set {c : Camera.Control} (setting : (Camera.Command.control c).rebinds = false)
    (faithful : session.Faithful device camera before) :
    (session.set device stamp c).2.Faithful device camera before := by
  rcases set_cases device stamp setting session with ⟨-, h⟩ | ⟨-, e, h, -⟩
  · rw [h]; exact faithful
  · exact faithful.extends h

theorem Faithful.capture (faithful : session.Faithful device camera before) (path : String)
    (files : Files) :
    (session.capture device stamp path files).2.1.Faithful device camera before := by
  rcases capture_cases device stamp path session files with ⟨-, h⟩ | ⟨-, e, h, -⟩
  · rw [h]; exact faithful
  · exact faithful.extends h

namespace Shared

variable [DecidableEq ι]

theorem run_induction {P : Session σ → Prop} (shared : Shared σ ι) (start : P shared.session)
    (bind : ∀ session facing, P session → P (session.ensureBound device {} facing).2)
    (torch : ∀ session on, P session → P (session.setTorch device {} on).2)
    (zoom : ∀ session x, P session → P (session.setZoom device {} x).2)
    (capture : ∀ session path files, P session → P (session.capture device {} path files).2.1)
    (acts : List (Act ι)) : P (shared.run device acts).session := by
  induction acts using List.reverseRecOn with
  | nil => exact start
  | append_singleton acts act ih =>
    have last : shared.run device (acts ++ [act]) = ((shared.run device acts).step device act).2 := by
      simp [run]
    rw [last]
    cases act with
    | acquire client => exact ih
    | release client => exact ih
    | use client action =>
      simp only [step]
      split
      · cases action with
        | ensureBound facing => exact bind _ facing ih
        | torch on => exact torch _ on ih
        | zoom x => exact zoom _ x ih
        | capture path => exact capture _ path _ ih
      · split <;> exact ih

/-- A session with a camera after acts of clients, none of which had asked for it before. -/
def after (device : Camera.Device σ) (camera : σ) (files : Files) (acts : List (Act ι)) :
    Session σ :=
  (run device { session := { camera := camera }, files := files } acts).session

theorem after_faithful (device : Camera.Device σ) (camera : σ) (files : Files)
    (acts : List (Act ι)) : (after device camera files acts).Faithful device camera none :=
  run_induction _ (.start device camera none) (fun _ facing h => h.ensureBound facing)
    (fun _ _ h => h.set rfl) (fun _ _ h => h.set rfl) (fun _ path files h => h.capture path files)
    acts

/-- The facing that a session remembers is the one of the latest binding that the camera was
asked for; the camera agreed to it, and was not let go of since. So it was at each setting and
each capture that was passed on to the camera. -/
structure Remembers (session : Session σ) : Prop where
  bound : ∀ facing, session.bound = some facing → HasBound session.log facing
  passedOn : ∀ earlier e later, session.log = earlier ++ e :: later → e.rebinds = false →
    ∃ facing, HasBound earlier facing

/-- Besides, the camera itself has that facing. -/
structure Agrees (device : Camera.Device σ) (session : Session σ) : Prop where
  facing : ∀ facing, session.bound = some facing →
    (device.state session.camera).facing = some facing
  passedOn : ∀ earlier e later, session.log = earlier ++ e :: later → e.rebinds = false →
    ∃ facing, HasBound earlier facing ∧ e.before.facing = some facing

theorem after_remembers (device : Camera.Device σ) (camera : σ) (files : Files)
    (acts : List (Act ι)) : Remembers (after device camera files acts) := by
  have faithful := after_faithful device camera files acts
  constructor
  · intro facing hf
    exact boundAfter_none_eq_some_iff.mp (faithful.bound ▸ hf)
  · intro earlier e later hl hr
    obtain ⟨facing, hf⟩ := Option.ne_none_iff_exists'.mp (faithful.guarded earlier e later hl hr)
    exact ⟨facing, boundAfter_none_eq_some_iff.mp hf⟩

theorem after_agrees (holds : device.HoldsFacing) (camera : σ) (files : Files)
    (acts : List (Act ι)) : Agrees device (after device camera files acts) := by
  have faithful := after_faithful device camera files acts
  constructor
  · intro facing hf
    exact faithful.ran.facing holds (by simp) facing (faithful.bound ▸ hf)
  · intro earlier e later hl hr
    obtain ⟨facing, hb, hf⟩ := faithful.seen holds hl hr
    exact ⟨facing, boundAfter_none_eq_some_iff.mp hb, hf⟩

/-- A camera that says that nothing is bound only when it is so never says it to a session. -/
theorem after_never_notBound (holds : device.HoldsFacing) (misses : device.MissesFacing)
    (camera : σ) (files : Files) (acts : List (Act ι)) :
    ∀ e ∈ (after device camera files acts).log, e.reply ≠ .refused .notBound := by
  intro e he hn
  have missing : e.rebinds = false ∧ e.before.facing = none := by
    obtain ⟨time, client, command, seen, reply⟩ := e
    obtain ⟨state, hs, ha⟩ := (after_faithful device camera files acts).ran.isAnswer _ he
    simp only at hs ha hn
    cases command with
    | control c => exact hs ▸ misses.control c state (ha ▸ hn)
    | capture path =>
      obtain ⟨there, ha⟩ := ha
      exact ⟨rfl, hs ▸ misses.capture path state there (ha ▸ hn)⟩
  obtain ⟨earlier, later, hl⟩ := List.append_of_mem he
  obtain ⟨facing, -, hf⟩ := (after_agrees holds camera files acts).passedOn earlier e later hl missing.1
  rw [missing.2] at hf
  cases hf

/-- A session that clients share agrees with its camera, after any acts of any clients and with
any answers of the camera; the two cameras here have the facing that the session remembers, with
any refusals and crashes on the way to them, and a virtual camera never says that nothing is
bound. -/
theorem session_agrees_with_camera (files : Files) (acts : List (Act ι)) :
    (∀ (σ : Type) (device : Camera.Device σ) (camera : σ),
      Remembers (after device camera files acts)) ∧
    (∀ camera, Agrees Camera.Stub.device (after Camera.Stub.device camera files acts)) ∧
    (∀ camera, Agrees Camera.Virtual.device (after Camera.Virtual.device camera files acts) ∧
      ∀ e ∈ (after Camera.Virtual.device camera files acts).log,
        e.reply ≠ .refused .notBound) ∧
    ∀ faults : List Camera.Fault, (∀ fault ∈ faults, fault.reply ≠ .done) →
      (∀ camera, Agrees (Camera.Faulty.device faults Camera.Stub.device)
        (after (Camera.Faulty.device faults Camera.Stub.device) camera files acts)) ∧
      ∀ camera, Agrees (Camera.Faulty.device faults Camera.Virtual.device)
          (after (Camera.Faulty.device faults Camera.Virtual.device) camera files acts) ∧
        ((∀ fault ∈ faults, fault.reply ≠ .refused .notBound) →
          ∀ e ∈ (after (Camera.Faulty.device faults Camera.Virtual.device) camera files acts).log,
            e.reply ≠ .refused .notBound) := by
  have stub := Camera.Stub.holdsFacing
  have virtual := Camera.Virtual.holdsFacing
  have misses := Camera.Virtual.missesFacing
  refine ⟨fun σ device camera => after_remembers device camera files acts,
    fun camera => after_agrees stub camera files acts,
    fun camera => ⟨after_agrees virtual camera files acts,
      after_never_notBound virtual misses camera files acts⟩, ?_⟩
  intro faults failing
  refine ⟨fun camera => after_agrees (Camera.Faulty.holdsFacing stub failing) camera files acts,
    fun camera => ⟨after_agrees (Camera.Faulty.holdsFacing virtual failing) camera files acts, ?_⟩⟩
  intro others
  exact after_never_notBound (Camera.Faulty.holdsFacing virtual failing)
    (Camera.Faulty.missesFacing misses others) camera files acts

end Shared

end PhotoCapture.Session
