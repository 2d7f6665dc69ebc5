import PhotoCapture.Proofs.Session.Answers
import Mathlib.Data.List.Forall2

namespace PhotoCapture

/-- How two cameras with their files compare, before and after a photo is taken, and which paths
are those of the same photo. -/
structure Camera.Likeness (σ τ : Type) where
  working : σ → Files → τ → Files → Prop
  done : σ → Files → τ → Files → Prop
  paths : String → String → Prop

namespace Camera

variable {σ τ : Type}

/-- Two kinds of cameras keep a likeness. They crash at the same settings, but may answer them
differently else. -/
structure Alike (l : Likeness σ τ) (device : Device σ) (device' : Device τ) : Prop where
  binds : ∀ {c f c' f'} k, (Command.control k).rebinds = true → l.working c f c' f' →
    (device.control k c).1 = (device'.control k c').1 ∧
      l.working (device.control k c).2 f (device'.control k c').2 f'
  sets : ∀ {c f c' f'} k, (Command.control k).rebinds = false → l.working c f c' f' →
    (∀ m, (device.control k c).1 = .crashed m ↔ (device'.control k c').1 = .crashed m) ∧
      l.working (device.control k c).2 f (device'.control k c').2 f'
  captures : ∀ {c f c' f' path path'}, l.paths path path' → l.working c f c' f' →
    (device.capture path c f).1 = (device'.capture path' c' f').1 ∧
      l.done (device.capture path c f).2.1 (device.capture path c f).2.2
        (device'.capture path' c' f').2.1 (device'.capture path' c' f').2.2
  ends : ∀ {c f c' f'}, l.working c f c' f' → l.done c f c' f'

/-- A camera is like itself, if it does not tell the paths of the same photo apart. -/
def Likeness.equal (paths : String → String → Prop) : Likeness σ σ where
  working := fun c f c' f' => c = c' ∧ f = f'
  done := fun c f c' f' => c = c' ∧ f = f'
  paths := paths

theorem alike_equal {device : Device σ} {paths : String → String → Prop}
    (blind : ∀ {path path'}, paths path path' → device.capture path = device.capture path') :
    Alike (.equal paths) device device := by
  constructor
  · rintro c f c' f' k - ⟨rfl, rfl⟩
    exact ⟨rfl, rfl, rfl⟩
  · rintro c f c' f' k - ⟨rfl, rfl⟩
    exact ⟨fun _ => Iff.rfl, rfl, rfl⟩
  · rintro c f c' f' path path' same ⟨rfl, rfl⟩
    rw [blind same]
    exact ⟨rfl, rfl, rfl⟩
  · exact id

inductive Command.Like (paths : String → String → Prop) : Command → Command → Prop
  | control (k) : Like paths (.control k) (.control k)
  | capture {path path'} (same : paths path path') : Like paths (.capture path) (.capture path')

end Camera

namespace Session

open Camera (Likeness Alike)

variable {σ τ : Type} {l : Likeness σ τ} {device : Camera.Device σ} {device' : Camera.Device τ}
  {stamp : Stamp} {session : Session σ} {session' : Session τ} {files files' : Files}

structure Entry.Like (paths : String → String → Prop) (e e' : Entry) : Prop where
  client : e.client = e'.client
  command : e.command.Like paths e'.command

/-- Two sessions have bound the same facing and have given their cameras the same commands, and the
cameras and their files compare in some way. -/
structure Like (paths : String → String → Prop) (cameras : σ → Files → τ → Files → Prop)
    (session : Session σ) (files : Files) (session' : Session τ) (files' : Files) : Prop where
  bound : session.bound = session'.bound
  cameras : cameras session.camera files session'.camera files'
  log : List.Forall₂ (Entry.Like paths) session.log session'.log

theorem Like.answered {paths : String → String → Prop}
    {cameras cameras' : σ → Files → τ → Files → Prop}
    {command command' : Camera.Command} {reply reply' : Camera.Reply} {camera : σ} {camera' : τ}
    {left left' : Files} (like : session.Like paths cameras files session' files')
    (same : command.Like paths command') (next : cameras' camera left camera' left') :
    (session.answered device stamp command reply camera).Like paths cameras' left
      (session'.answered device' stamp command' reply' camera') left' :=
  ⟨like.bound, next, List.rel_append like.log (.cons ⟨rfl, same⟩ .nil)⟩

theorem Like.give_binding (stamp : Stamp)
    (like : session.Like l.paths l.working files session' files')
    (alike : Alike l device device') (k : Camera.Control)
    (rebinds : (Camera.Command.control k).rebinds = true) :
    (give device stamp k session).1 = (give device' stamp k session').1 ∧
      (give device stamp k session).2.Like l.paths l.working files
        (give device' stamp k session').2 files' := by
  obtain ⟨reply, next⟩ := alike.binds k rebinds like.cameras
  exact ⟨reply, like.answered (.control k) next⟩

theorem Like.set (stamp : Stamp) (like : session.Like l.paths l.working files session' files')
    (alike : Alike l device device') (k : Camera.Control)
    (setting : (Camera.Command.control k).rebinds = false) :
    (∀ m, (session.set device stamp k).1 = .crashed m ↔
        (session'.set device' stamp k).1 = .crashed m) ∧
      (session.set device stamp k).2.Like l.paths l.working files
        (session'.set device' stamp k).2 files' := by
  unfold Session.set
  rw [like.bound]
  split
  next => exact ⟨fun _ => Iff.rfl, like⟩
  next =>
    obtain ⟨crash, next⟩ := alike.sets k setting like.cameras
    exact ⟨crash, like.answered (.control k) next⟩

theorem Like.ensureBound (stamp : Stamp)
    (like : session.Like l.paths l.working files session' files')
    (alike : Alike l device device') (facing : Facing) :
    (session.ensureBound device stamp facing).1 = (session'.ensureBound device' stamp facing).1 ∧
      (session.ensureBound device stamp facing).2.Like l.paths l.working files
        (session'.ensureBound device' stamp facing).2 files' := by
  unfold Session.ensureBound
  rw [like.bound]
  split
  next => exact ⟨rfl, like⟩
  next =>
    have freed : { session with bound := none }.Like l.paths l.working files
        { session' with bound := none } files' := ⟨rfl, like.cameras, like.log⟩
    obtain ⟨reply, unbound⟩ := freed.give_binding stamp alike .unbindAll rfl
    rcases hu : give device stamp .unbindAll { session with bound := none } with ⟨answer, free⟩
    rcases hu' : give device' stamp .unbindAll { session' with bound := none } with
      ⟨answer', free'⟩
    rw [hu, hu'] at reply unbound
    obtain rfl := reply
    obtain ⟨reply, bound⟩ := unbound.give_binding stamp alike (.bind facing) rfl
    rcases hb : give device stamp (.bind facing) free with ⟨agreed, taken⟩
    rcases hb' : give device' stamp (.bind facing) free' with ⟨agreed', taken'⟩
    rw [hb, hb'] at reply bound
    obtain rfl := reply
    cases answer with
    | crashed message => exact ⟨rfl, unbound⟩
    | done | refused =>
      simp only [hb, hb']
      cases agreed with
      | done => exact ⟨rfl, rfl, bound.cameras, bound.log⟩
      | refused | crashed => exact ⟨rfl, bound⟩

theorem Like.capture (stamp : Stamp) {path path' : String}
    (like : session.Like l.paths l.working files session' files')
    (alike : Alike l device device') (same : l.paths path path') :
    (session.capture device stamp path files).1 = (session'.capture device' stamp path' files').1 ∧
      (session.capture device stamp path files).2.1.Like l.paths l.done
        (session.capture device stamp path files).2.2
        (session'.capture device' stamp path' files').2.1
        (session'.capture device' stamp path' files').2.2 := by
  unfold Session.capture
  rw [like.bound]
  split
  next => exact ⟨rfl, like.bound, alike.ends like.cameras, like.log⟩
  next =>
    obtain ⟨told, next⟩ := alike.captures same like.cameras
    rcases ha : device.capture path session.camera files with ⟨reply, camera, left⟩
    rcases ha' : device'.capture path' session'.camera files' with ⟨reply', camera', left'⟩
    rw [ha, ha'] at told next
    obtain rfl := told
    exact ⟨rfl, like.answered (.capture same) next⟩

end Session

end PhotoCapture
