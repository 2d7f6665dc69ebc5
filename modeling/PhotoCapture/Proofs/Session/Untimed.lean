import PhotoCapture.Session.Basic

namespace PhotoCapture.Session

variable {σ : Type}

def Entry.untimed (e : Entry) : Entry := { e with time := 0 }

/-- A session that has forgotten when its commands were given. -/
def untimed (session : Session σ) : Session σ :=
  { session with log := session.log.map Entry.untimed }

section

variable (device : Camera.Device σ) (time client : Nat) (session : Session σ)

theorem answered_untimed (command : Camera.Command) (reply : Camera.Reply) (camera : σ) :
    session.untimed.answered device ⟨0, client⟩ command reply camera =
      (session.answered device ⟨time, client⟩ command reply camera).untimed := by
  simp [answered, untimed, Entry.untimed]

theorem give_untimed (c : Camera.Control) :
    give device ⟨0, client⟩ c session.untimed =
      ((give device ⟨time, client⟩ c session).1,
        (give device ⟨time, client⟩ c session).2.untimed) :=
  congrArg (Prod.mk _) (answered_untimed device time client session (.control c) _ _)

theorem ensureBound_untimed (facing : Facing) :
    session.untimed.ensureBound device ⟨0, client⟩ facing =
      ((session.ensureBound device ⟨time, client⟩ facing).1,
        (session.ensureBound device ⟨time, client⟩ facing).2.untimed) := by
  unfold ensureBound
  by_cases same : session.bound = some facing
  · simp [untimed, same]
  · have other : session.untimed.bound ≠ some facing := same
    have unbind := give_untimed device time client { session with bound := none } .unbindAll
    change give device ⟨0, client⟩ .unbindAll { session.untimed with bound := none } = _
      at unbind
    rcases hu : give device ⟨time, client⟩ .unbindAll { session with bound := none } with
      ⟨reply, freed⟩
    rw [hu] at unbind
    have bind := give_untimed device time client freed (.bind facing)
    rw [if_neg other, if_neg same, unbind]
    rcases hb : give device ⟨time, client⟩ (.bind facing) freed with ⟨answer, taken⟩
    rw [hb] at bind
    cases reply with
    | crashed message => rfl
    | done | refused =>
      simp only [bind, hb]
      cases answer <;> rfl

theorem set_untimed (c : Camera.Control) :
    session.untimed.set device ⟨0, client⟩ c =
      ((session.set device ⟨time, client⟩ c).1,
        (session.set device ⟨time, client⟩ c).2.untimed) := by
  unfold set
  have same : session.untimed.bound = session.bound := rfl
  rw [same]
  split
  next => rfl
  next => exact give_untimed device time client session c

theorem capture_untimed (path : String) (files : Files) :
    session.untimed.capture device ⟨0, client⟩ path files =
      ((session.capture device ⟨time, client⟩ path files).1,
        (session.capture device ⟨time, client⟩ path files).2.1.untimed,
        (session.capture device ⟨time, client⟩ path files).2.2) := by
  unfold capture
  have same : session.untimed.bound = session.bound := rfl
  rw [same]
  split
  next => rfl
  next =>
    rcases ha : device.capture path session.camera files with ⟨reply, camera, left⟩
    have ha' : device.capture path session.untimed.camera files = (reply, camera, left) := ha
    rw [ha']
    exact congrArg (fun x => (_, x, left))
      (answered_untimed device time client session (.capture path) reply camera)

end

end PhotoCapture.Session
