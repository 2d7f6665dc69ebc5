import PhotoCapture.Proofs.Studio.Turn
import Mathlib.Data.List.Basic

namespace PhotoCapture

def Camera.Command.isCapture : Camera.Command → Bool
  | .capture _ => true
  | _ => false

def Session.Entry.isCapture (e : Session.Entry) : Bool := e.command.isCapture

theorem Session.Asked.no_capture {facing : Facing} {bound : Option Facing}
    {entries : List Session.Entry} {how : Session.Binding}
    (asked : Session.Asked facing bound entries how) : ∀ e ∈ entries, e.isCapture = false := by
  intro e he
  have rebinds := asked.rebinds e he
  obtain ⟨_, _, command, _, _⟩ := e
  cases command with
  | control c => rfl
  | capture path => simp [Session.Entry.rebinds, Camera.Command.rebinds] at rebinds

namespace Request

open Session (Entry Asked boundAfter)

/-- The commands that bind the camera for a request: none when its facing is bound already. -/
def binding (r : Request) (bound : Option Facing) : List Camera.Command :=
  if bound = some r.controls.facing then []
  else [.control .unbindAll, .control (.bind r.controls.facing)]

def torchCommand (r : Request) : Camera.Command := .control (.torch r.controls.torch)

def zoomCommand (r : Request) : Camera.Command := .control (.linearZoom r.controls.linearZoom)

def settings (r : Request) : List Camera.Command := [r.torchCommand, r.zoomCommand]

def commands (r : Request) (bound : Option Facing) (path : String) : List Camera.Command :=
  r.binding bound ++ (r.settings ++ [.capture path])

theorem settings_no_capture (r : Request) : ∀ c ∈ r.settings, c.isCapture = false := by
  intro c hc
  rcases List.mem_pair.mp hc with rfl | rfl <;> rfl

theorem settings_not_rebinds (r : Request) : ∀ c ∈ r.settings, c.rebinds = false := by
  intro c hc
  rcases List.mem_pair.mp hc with rfl | rfl <;> rfl

/-- The camera was given the commands that bind it for a request and some more, crashed at none,
and was bound in the end. -/
structure Given (r : Request) (before : Option Facing) (more : List Camera.Command)
    (block : List Entry) : Prop where
  commands : block.map (·.command) = r.binding before ++ more
  sound : ∀ e ∈ block, ∀ message, e.reply ≠ .crashed message
  bound : boundAfter before block = some r.controls.facing

variable {r : Request} {bound before : Option Facing} {more : List Camera.Command}
  {block entries : List Entry}

theorem Given.of_asked {how : Session.Binding}
    (asked : Asked r.controls.facing bound entries how) (agreed : how = .kept ∨ how = .asked .done) :
    r.Given bound [] entries := by
  cases asked with
  | kept same => exact ⟨by simp [binding, same], by simp, same⟩
  | brokenOff => simp at agreed
  | @answered u b other unbind sound bind =>
    have done : b.reply = .done := by simpa using agreed
    refine ⟨by simp [binding, other, unbind, bind], ?_, ?_⟩
    · intro e he message
      rcases List.mem_pair.mp he with rfl | rfl
      · exact sound message
      · simp [done]
    · simp [boundAfter, Session.Entry.leaves, bind, done]

theorem Given.passed {command : Camera.Command} {reply : Camera.Reply}
    (given : r.Given before more block) (setting : command.rebinds = false)
    (passed : Studio.Passed command (boundAfter before block) entries reply)
    (sound : ∀ message, reply ≠ .crashed message) :
    r.Given before (more ++ [command]) (block ++ entries) := by
  cases passed with
  | withheld unbound =>
    rw [given.bound] at unbound
    cases unbound
  | @answered e _ same =>
    refine ⟨by simp [given.commands, same], ?_, ?_⟩
    · intro x hx
      rcases List.mem_append.mp hx with hx | hx
      · exact given.sound x hx
      · exact List.mem_singleton.mp hx ▸ sound
    · have keeps : e.rebinds = false := by rw [Session.Entry.rebinds, same, setting]
      rw [Session.boundAfter_append, Session.boundAfter_singleton,
        Session.Entry.leaves_of_not_rebinds keeps, given.bound]

theorem Given.answered {command : Camera.Command} {reply : Camera.Reply}
    (given : r.Given before more block)
    (passed : Studio.Passed command (boundAfter before block) entries reply) :
    ∃ e, entries = [e] ∧ e.command = command ∧ e.reply = reply := by
  cases passed with
  | withheld unbound =>
    rw [given.bound] at unbound
    cases unbound
  | answered _ same => exact ⟨_, rfl, same, rfl⟩

theorem Given.prefix_commands (given : r.Given before more block) (h : more <+: r.settings)
    (path : String) : block.map (·.command) <+: r.commands before path := by
  rw [given.commands]
  exact (List.prefix_append_right_inj _).mpr (h.trans (List.prefix_append _ _))

theorem countP_isCapture (block : List Entry) :
    block.countP Session.Entry.isCapture =
      (block.map (·.command)).countP Camera.Command.isCapture := by
  rw [List.countP_map]
  rfl

theorem countP_commands (r : Request) (bound : Option Facing) (path : String) :
    (r.commands bound path).countP Camera.Command.isCapture = 1 := by
  by_cases same : bound = some r.controls.facing
  · simp [commands, binding, same, settings, torchCommand, zoomCommand, Camera.Command.isCapture]
  · simp [commands, binding, same, settings, torchCommand, zoomCommand, Camera.Command.isCapture]

theorem Given.no_capture (given : r.Given before more block)
    (h : ∀ c ∈ more, c.isCapture = false) : ∀ e ∈ block, e.isCapture = false := by
  intro e he
  have hc : e.command ∈ block.map (·.command) := List.mem_map_of_mem he
  rw [given.commands, binding] at hc
  rcases List.mem_append.mp hc with hc | hc
  · split at hc
    next => simp at hc
    next =>
      rcases List.mem_pair.mp hc with hc | hc
      · simp [Session.Entry.isCapture, hc, Camera.Command.isCapture]
      · simp [Session.Entry.isCapture, hc, Camera.Command.isCapture]
  · exact h _ hc

end Request

end PhotoCapture
