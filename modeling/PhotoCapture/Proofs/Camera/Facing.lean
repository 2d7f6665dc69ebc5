import PhotoCapture.Camera.Fault
import PhotoCapture.Camera.Stub
import PhotoCapture.Camera.Virtual

namespace PhotoCapture.Camera

variable {σ : Type}

/-- Whether a command lets go of the camera or asks for it. -/
def Command.rebinds : Command → Bool
  | .control .unbindAll | .control (.bind _) => true
  | _ => false

/-- A camera takes the facing that it agrees to be bound for, and keeps it at other commands. -/
structure Device.HoldsFacing (device : Device σ) : Prop where
  bind : ∀ facing camera, (device.control (.bind facing) camera).1 = .done →
    (device.state (device.control (.bind facing) camera).2).facing = some facing
  torch : ∀ on camera,
    (device.state (device.control (.torch on) camera).2).facing = (device.state camera).facing
  linearZoom : ∀ x camera,
    (device.state (device.control (.linearZoom x) camera).2).facing = (device.state camera).facing
  capture : ∀ path camera files,
    (device.state (device.capture path camera files).2.1).facing = (device.state camera).facing

/-- A camera says that nothing is bound only at a setting or a capture, and only when it is so. -/
structure Device.MissesFacing (device : Device σ) : Prop where
  control : ∀ c camera, (device.control c camera).1 = .refused .notBound →
    (Command.control c).rebinds = false ∧ (device.state camera).facing = none
  capture : ∀ path camera files, (device.capture path camera files).1 = .refused .notBound →
    (device.state camera).facing = none

theorem Stub.holdsFacing : Stub.device.HoldsFacing where
  bind _ _ _ := rfl
  torch _ _ := rfl
  linearZoom _ _ := rfl
  capture path state files := by
    simp only [Stub.device, Stub.capture]
    split <;> rfl

theorem Virtual.capture_state (path : String) (camera : Virtual) (files : Files) :
    (Virtual.capture path camera files).2.1.state = camera.state := by
  unfold Virtual.capture
  split
  · rfl
  · split <;> rfl

theorem Virtual.holdsFacing : Virtual.device.HoldsFacing where
  bind facing camera h := by
    simp only [Virtual.device, Virtual.control] at h ⊢
    split at h
    · simp at h
    next hs => simp [hs]
  torch on camera := by
    simp only [Virtual.device, Virtual.control]
    split <;> rfl
  linearZoom x camera := by
    simp only [Virtual.device, Virtual.control]
    split
    · rfl
    · split <;> rfl
  capture path camera files := by simp [Virtual.device, Virtual.capture_state]

theorem Virtual.missesFacing : Virtual.device.MissesFacing where
  control c camera h := by
    cases c with
    | unbindAll => simp [Virtual.device, Virtual.control] at h
    | bind facing =>
      simp only [Virtual.device, Virtual.control] at h
      split at h <;> simp [Virtual.emptySensor] at h
    | torch on =>
      simp only [Virtual.device, Virtual.control] at h
      split at h
      next hn => exact ⟨rfl, by simpa [Virtual.device] using hn⟩
      · simp at h
    | linearZoom x =>
      simp only [Virtual.device, Virtual.control] at h
      split at h
      next hn => exact ⟨rfl, by simpa [Virtual.device] using hn⟩
      · split at h <;> simp [Virtual.zoomOutside] at h
  capture path camera files h := by
    simp only [Virtual.device, Virtual.capture] at h
    split at h
    next error hp =>
      simp only [Virtual.photo] at hp
      split at hp
      next hn => simpa [Virtual.device] using hn
      · split at hp
        · simp_all [Virtual.tooLarge]
        · simp at hp
    · split at h <;> simp at h

theorem Faulty.mem_of_fault? {faults : List Fault} {camera : Faulty σ} {kind : Command.Kind}
    {reply : Reply} (h : camera.fault? faults kind = some reply) :
    ∃ fault ∈ faults, fault.reply = reply := by
  obtain ⟨fault, hf, he⟩ := Option.map_eq_some_iff.mp h
  exact ⟨fault, List.mem_of_find?_eq_some hf, he⟩

theorem Faulty.control_cases (faults : List Fault) (device : Device σ) (c : Control)
    (camera : Faulty σ) :
    (∃ fault ∈ faults, Faulty.control faults device c camera =
        (fault.reply, camera.remember c.kind)) ∨
      Faulty.control faults device c camera = ((device.control c camera.camera).1,
        { camera.remember c.kind with camera := (device.control c camera.camera).2 }) := by
  unfold Faulty.control
  split
  next reply h =>
    obtain ⟨fault, hm, rfl⟩ := mem_of_fault? (Option.eq_some_of_filter_eq_some h)
    exact Or.inl ⟨fault, hm, rfl⟩
  next h => exact Or.inr rfl

theorem Faulty.capture_cases (faults : List Fault) (device : Device σ) (path : String)
    (camera : Faulty σ) (files : Files) :
    (∃ fault ∈ faults, Faulty.capture faults device path camera files =
        (fault.reply, camera.remember .capture, files)) ∨
      Faulty.capture faults device path camera files =
        ((device.capture path camera.camera files).1,
          { camera.remember .capture with
            camera := (device.capture path camera.camera files).2.1 },
          (device.capture path camera.camera files).2.2) := by
  unfold Faulty.capture
  split
  next reply h =>
    obtain ⟨fault, hm, rfl⟩ := mem_of_fault? h
    exact Or.inl ⟨fault, hm, rfl⟩
  next h => exact Or.inr rfl

/-- Faults that refuse commands or crash at them leave a camera's facing alone. -/
theorem Faulty.holdsFacing {device : Device σ} (holds : device.HoldsFacing) {faults : List Fault}
    (failing : ∀ fault ∈ faults, fault.reply ≠ .done) :
    (Faulty.device faults device).HoldsFacing where
  bind facing camera h := by
    rcases control_cases faults device (.bind facing) camera with ⟨fault, hm, hc⟩ | hc
    · exact absurd (by simpa [Faulty.device, hc] using h) (failing fault hm)
    · simp only [Faulty.device, hc] at h ⊢
      exact holds.bind facing camera.camera h
  torch on camera := by
    rcases control_cases faults device (.torch on) camera with ⟨fault, hm, hc⟩ | hc
    · simp [Faulty.device, hc, remember]
    · simpa [Faulty.device, hc] using holds.torch on camera.camera
  linearZoom x camera := by
    rcases control_cases faults device (.linearZoom x) camera with ⟨fault, hm, hc⟩ | hc
    · simp [Faulty.device, hc, remember]
    · simpa [Faulty.device, hc] using holds.linearZoom x camera.camera
  capture path camera files := by
    rcases capture_cases faults device path camera files with ⟨fault, hm, hc⟩ | hc
    · simp [Faulty.device, hc, remember]
    · simpa [Faulty.device, hc] using holds.capture path camera.camera files

theorem Faulty.missesFacing {device : Device σ} (misses : device.MissesFacing)
    {faults : List Fault} (others : ∀ fault ∈ faults, fault.reply ≠ .refused .notBound) :
    (Faulty.device faults device).MissesFacing where
  control c camera h := by
    rcases control_cases faults device c camera with ⟨fault, hm, hc⟩ | hc
    · exact absurd (by simpa [Faulty.device, hc] using h) (others fault hm)
    · exact misses.control c camera.camera (by simpa [Faulty.device, hc] using h)
  capture path camera files h := by
    rcases capture_cases faults device path camera files with ⟨fault, hm, hc⟩ | hc
    · exact absurd (by simpa [Faulty.device, hc] using h) (others fault hm)
    · exact misses.capture path camera.camera files (by simpa [Faulty.device, hc] using h)

end PhotoCapture.Camera
