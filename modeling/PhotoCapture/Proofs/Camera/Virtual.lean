import PhotoCapture.Camera.Virtual
import PhotoCapture.Proofs.Camera.Facing
import PhotoCapture.Proofs.Session.Binding

namespace PhotoCapture.Camera.Virtual

open Session (Entry Ran)

variable {camera last : Virtual} {entries : List Entry}

def HasPixels (camera : Virtual) : Prop := camera.sensor.width ≠ 0 ∧ camera.sensor.height ≠ 0

theorem control_sensor (c : Control) (camera : Virtual) :
    (control c camera).2.sensor = camera.sensor := by
  cases c with
  | unbindAll => rfl
  | bind facing =>
    simp only [control]
    split <;> rfl
  | torch on =>
    simp only [control]
    split <;> rfl
  | linearZoom x =>
    simp only [control]
    split
    · rfl
    · split <;> rfl

theorem capture_sensor (path : String) (camera : Virtual) (files : Files) :
    (Virtual.capture path camera files).2.1.sensor = camera.sensor := by
  unfold Virtual.capture
  split
  · rfl
  · split <;> rfl

theorem control_not_crashed (c : Control) (camera : Virtual) (message : String) :
    (control c camera).1 ≠ .crashed message := by
  cases c with
  | unbindAll => simp [control]
  | bind facing =>
    simp only [control]
    split <;> simp
  | torch on =>
    simp only [control]
    split <;> simp
  | linearZoom x =>
    simp only [control]
    split
    · simp
    · split <;> simp

theorem capture_not_crashed (path : String) (camera : Virtual) (files : Files)
    (message : String) : (Virtual.capture path camera files).1 ≠ .crashed message := by
  unfold Virtual.capture
  split
  · simp
  · split <;> simp

theorem bind_done (pixels : camera.HasPixels) (facing : Facing) :
    (control (.bind facing) camera).1 = .done := by
  simp [control, pixels.1, pixels.2]

theorem torch_done {facing : Facing} (bound : camera.state.facing = some facing) (on : Bool) :
    control (.torch on) camera =
      (.done, { camera with state := { camera.state with torch := on } }) := by
  simp [control, bound]

theorem zoom_done {facing : Facing} {x : Single} (bound : camera.state.facing = some facing)
    (low : (0 : Single) ≤ x) (high : x ≤ (1 : Single)) : control (.linearZoom x) camera =
      (.done, { camera with state := { camera.state with linearZoom := x } }) := by
  simp [control, bound, low, high]

theorem ran_sensor (ran : Ran device camera entries last) : last.sensor = camera.sensor := by
  induction ran with
  | nothing camera => rfl
  | @control camera next _ _ c _ _ _ answer _ ih =>
    have moved : (Virtual.control c camera).2 = next := congrArg Prod.snd answer
    rw [ih, ← moved, control_sensor]
  | @capture camera next _ _ path files files' _ _ _ answer _ ih =>
    have moved : (Virtual.capture path camera files).2.1 = next :=
      congrArg (fun answer => answer.2.1) answer
    rw [ih, ← moved, capture_sensor]

theorem ran_sound (ran : Ran device camera entries last) :
    ∀ e ∈ entries, ∀ message, e.reply ≠ .crashed message := by
  induction ran with
  | nothing camera => simp
  | @control camera _ _ e c _ _ _ answer _ ih =>
    have reply : (Virtual.control c camera).1 = e.reply := congrArg Prod.fst answer
    intro x hx
    rcases List.mem_cons.mp hx with rfl | hx
    · exact reply ▸ control_not_crashed c camera
    · exact ih x hx
  | @capture camera _ _ e path files _ _ _ _ answer _ ih =>
    have reply : (Virtual.capture path camera files).1 = e.reply := congrArg Prod.fst answer
    intro x hx
    rcases List.mem_cons.mp hx with rfl | hx
    · exact reply ▸ capture_not_crashed path camera files
    · exact ih x hx

theorem ran_binds (ran : Ran device camera entries last) (pixels : camera.HasPixels) :
    ∀ e ∈ entries, ∀ facing, e.command = .control (.bind facing) → e.reply = .done := by
  induction ran with
  | nothing camera => simp
  | @control camera next _ e c _ command _ answer _ ih =>
    have reply : (Virtual.control c camera).1 = e.reply := congrArg Prod.fst answer
    have moved : (Virtual.control c camera).2 = next := congrArg Prod.snd answer
    have pixels' : next.HasPixels := by
      rw [← moved, HasPixels, control_sensor]
      exact pixels
    intro x hx facing binds
    rcases List.mem_cons.mp hx with rfl | hx
    · rw [command] at binds
      obtain rfl : c = .bind facing := Command.control.inj binds
      exact reply ▸ bind_done pixels facing
    · exact ih pixels' x hx facing binds
  | @capture camera next _ e path files files' _ command _ answer _ ih =>
    have moved : (Virtual.capture path camera files).2.1 = next :=
      congrArg (fun answer => answer.2.1) answer
    have pixels' : next.HasPixels := by
      rw [← moved, HasPixels, capture_sensor]
      exact pixels
    intro x hx facing binds
    rcases List.mem_cons.mp hx with rfl | hx
    · rw [command] at binds
      cases binds
    · exact ih pixels' x hx facing binds

theorem ran_settings {t z : Entry} {facing : Facing} {on : Bool} {x : Single}
    (ran : Ran device camera [t, z] last) (bound : camera.state.facing = some facing)
    (torch : t.command = .control (.torch on)) (zoom : z.command = .control (.linearZoom x))
    (low : (0 : Single) ≤ x) (high : x ≤ (1 : Single)) : last.state = ⟨some facing, on, x⟩ := by
  cases ran with
  | capture command =>
    rw [torch] at command
    cases command
  | @control _ lit _ _ c _ command _ answer rest =>
    rw [torch] at command
    obtain rfl : .torch on = c := Command.control.inj command
    have lit_eq := (Prod.mk.inj ((torch_done bound on).symm.trans answer)).2
    cases rest with
    | capture command =>
      rw [zoom] at command
      cases command
    | @control _ _ _ _ c _ command _ answer rest =>
      rw [zoom] at command
      obtain rfl : .linearZoom x = c := Command.control.inj command
      cases rest with
      | nothing =>
        have bound' : lit.state.facing = some facing := by rw [← lit_eq, bound]
        have last_eq := (Prod.mk.inj ((zoom_done bound' low high).symm.trans answer)).2
        simp [← last_eq, ← lit_eq, bound]

theorem ran_captures (ran : Ran device camera entries last)
    (captures : ∀ e ∈ entries, ∃ path, e.command = .capture path) : last.state = camera.state := by
  induction ran with
  | nothing camera => rfl
  | @control _ _ _ e _ _ command =>
    obtain ⟨path, capture⟩ := captures e (by simp)
    rw [capture] at command
    cases command
  | @capture camera next _ e path files _ entries _ _ answer _ ih =>
    have moved : (Virtual.capture path camera files).2.1 = next :=
      congrArg (fun answer => answer.2.1) answer
    rw [ih fun x hx => captures x (by simp [hx]), ← moved, capture_state]

end PhotoCapture.Camera.Virtual
