import PhotoCapture.Proofs.Session.Bound

namespace PhotoCapture.Session

variable {σ : Type} {device : Camera.Device σ}

/-- An entry tells the state of a camera, and how that camera answered the command. -/
def Entry.IsAnswer (device : Camera.Device σ) (e : Entry) : Prop :=
  ∃ camera, e.before = device.state camera ∧
    match e.command with
    | .control c => e.reply = (device.control c camera).1
    | .capture path => ∃ files, e.reply = (device.capture path camera files).1

/-- A camera that is given the commands of some entries answers them as the entries say. -/
inductive Ran (device : Camera.Device σ) : σ → List Entry → σ → Prop
  | nothing (camera) : Ran device camera [] camera
  | control {camera next last e c entries} (command : e.command = .control c)
      (before : e.before = device.state camera) (answer : device.control c camera = (e.reply, next))
      (rest : Ran device next entries last) : Ran device camera (e :: entries) last
  | capture {camera next last e path files files' entries} (command : e.command = .capture path)
      (before : e.before = device.state camera)
      (answer : device.capture path camera files = (e.reply, next, files'))
      (rest : Ran device next entries last) : Ran device camera (e :: entries) last

theorem Ran.isAnswer {camera last : σ} {entries : List Entry}
    (ran : Ran device camera entries last) : ∀ e ∈ entries, e.IsAnswer device := by
  induction ran with
  | nothing camera => simp
  | @control camera _ _ e c _ command before answer _ ih =>
    have : e.IsAnswer device := ⟨camera, before, by simp [command, answer]⟩
    simpa [this] using ih
  | @capture camera _ _ e path files _ _ command before answer _ ih =>
    have : e.IsAnswer device := ⟨camera, before, by rw [command]; exact ⟨files, by rw [answer]⟩⟩
    simpa [this] using ih

theorem Ran.append {camera next last : σ} {entries more : List Entry}
    (ran : Ran device camera entries next) (rest : Ran device next more last) :
    Ran device camera (entries ++ more) last := by
  induction ran with
  | nothing camera => exact rest
  | control command before answer _ ih => exact .control command before answer (ih rest)
  | capture command before answer _ ih => exact .capture command before answer (ih rest)

theorem Ran.split {camera last : σ} {entries more : List Entry}
    (ran : Ran device camera (entries ++ more) last) :
    ∃ next, Ran device camera entries next ∧ Ran device next more last := by
  induction entries generalizing camera with
  | nil => exact ⟨camera, .nothing camera, ran⟩
  | cons e entries ih =>
    cases ran with
    | control command before answer rest =>
      obtain ⟨next, first, last⟩ := ih rest
      exact ⟨next, .control command before answer first, last⟩
    | capture command before answer rest =>
      obtain ⟨next, first, last⟩ := ih rest
      exact ⟨next, .capture command before answer first, last⟩

theorem Ran.before_eq {camera last : σ} {e : Entry} {later : List Entry}
    (ran : Ran device camera (e :: later) last) : e.before = device.state camera := by
  cases ran with
  | control _ before => exact before
  | capture _ before => exact before

/-- A camera that holds on to its facing has the facing that its answers leave bound. -/
theorem Ran.facing (holds : device.HoldsFacing) {camera last : σ} {bound : Option Facing}
    {entries : List Entry} (ran : Ran device camera entries last)
    (h : ∀ facing, bound = some facing → (device.state camera).facing = some facing) :
    ∀ facing, boundAfter bound entries = some facing →
      (device.state last).facing = some facing := by
  induction ran generalizing bound with
  | nothing camera => exact h
  | @control camera next _ e c _ command _ answer _ ih =>
    refine @ih (e.leaves bound) ?_
    intro facing left
    have moved : (device.control c camera).2 = next := by rw [answer]
    cases c with
    | unbindAll => simp [Entry.leaves, command] at left
    | bind wanted =>
      obtain ⟨done, rfl⟩ : e.reply = .done ∧ wanted = facing := by
        simpa [Entry.leaves, command] using left
      rw [← moved]
      exact holds.bind wanted camera (by rw [answer, done])
    | torch on =>
      rw [← moved, holds.torch]
      exact h facing (by simpa [Entry.leaves, command] using left)
    | linearZoom x =>
      rw [← moved, holds.linearZoom]
      exact h facing (by simpa [Entry.leaves, command] using left)
  | @capture camera next _ e path files _ _ command _ answer _ ih =>
    refine @ih (e.leaves bound) ?_
    intro facing left
    have moved : (device.capture path camera files).2.1 = next := by rw [answer]
    rw [← moved, holds.capture]
    exact h facing (by simpa [Entry.leaves, command] using left)

end PhotoCapture.Session
