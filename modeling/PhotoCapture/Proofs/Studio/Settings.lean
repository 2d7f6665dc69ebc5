import PhotoCapture.Proofs.Camera.Virtual
import PhotoCapture.Proofs.Control.Zoom
import PhotoCapture.Proofs.Studio.Commands

namespace PhotoCapture

/-- The settings of a request, as a camera that has taken them all tells them. -/
def Controls.state (controls : Controls) : Camera.State :=
  ⟨some controls.facing, controls.torch, controls.linearZoom⟩

/-- What a run has set the camera to so far, while it is setting it. -/
def Run.setting? (run : Run) : Option (List Camera.Command) :=
  match run.stage with
  | .lighting => some []
  | .zooming => some [run.request.torchCommand]
  | _ => none

/-- Whether a run at a stage has set the camera and not yet taken its photo. -/
def Stage.hasSet : Stage → Bool
  | .counting _ | .preparing | .capturing _ => true
  | _ => false

namespace Studio

open Session (Entry Lock Ran Throughout boundAfter)

/-- A log ends with commands of a request, from its binding on, given for one client. -/
def EndsWith (request : Request) (client : Nat) (commands : List Camera.Command)
    (log : List Entry) : Prop :=
  ∃ earlier block, log = earlier ++ block ∧ (∀ e ∈ block, e.client = client) ∧
    request.Given (boundAfter none earlier) commands block

/-- The latest settings in a log are those of a request, given for one client, and only photos
were taken since. -/
def LastSet (request : Request) (client : Nat) (log : List Entry) : Prop :=
  ∃ settings captures, log = settings ++ captures ∧
    EndsWith request client request.settings settings ∧
    ∀ e ∈ captures, ∃ path, e.command = .capture path

section

variable {request : Request} {client : Nat} {log more captures : List Entry}
  {commands : List Camera.Command}

theorem EndsWith.passed {command : Camera.Command} {bound : Option Facing} {reply : Camera.Reply}
    (ends : EndsWith request client commands log) (setting : command.rebinds = false)
    (passed : Passed command bound more reply) (bound_eq : bound = boundAfter none log)
    (sound : ∀ message, reply ≠ .crashed message) (own : ∀ e ∈ more, e.client = client) :
    EndsWith request client (commands ++ [command]) (log ++ more) := by
  obtain ⟨earlier, block, rfl, mine, given⟩ := ends
  refine ⟨earlier, block ++ more, by simp, ?_, ?_⟩
  · intro e he
    rcases List.mem_append.mp he with he | he
    · exact mine e he
    · exact own e he
  · rw [bound_eq, Session.boundAfter_append] at passed
    exact given.passed setting passed sound

theorem LastSet.append (last : LastSet request client log)
    (photos : ∀ e ∈ captures, ∃ path, e.command = .capture path) :
    LastSet request client (log ++ captures) := by
  obtain ⟨settings, old, rfl, ends, olds⟩ := last
  refine ⟨settings, old ++ captures, by simp, ends, ?_⟩
  intro e he
  rcases List.mem_append.mp he with he | he
  · exact olds e he
  · exact photos e he

theorem LastSet.state {camera last : Camera.Virtual} (latest : LastSet request client log)
    (ran : Ran Camera.Virtual.device camera log last) : last.state = request.controls.state := by
  obtain ⟨settings, captures, rfl, ⟨earlier, block, rfl, -, given⟩, photos⟩ := latest
  obtain ⟨set, ran, rest⟩ := ran.split
  obtain ⟨before, first, ran⟩ := ran.split
  rw [Camera.Virtual.ran_captures rest photos]
  obtain ⟨binding, set_both, rfl, bound, both⟩ := List.map_eq_append_iff.mp given.commands
  obtain ⟨t, rest', rfl, torch, others⟩ := List.map_eq_cons_iff.mp both
  obtain ⟨z, last', rfl, zoom, nothing⟩ := List.map_eq_cons_iff.mp others
  obtain rfl := List.map_eq_nil_iff.mp nothing
  obtain ⟨bound_camera, binds, sets⟩ := ran.split
  have keeps : ∀ e ∈ [t, z], e.rebinds = false := by
    intro e he
    rcases List.mem_pair.mp he with rfl | rfl
    · rw [Entry.rebinds, torch]; rfl
    · rw [Entry.rebinds, zoom]; rfl
  have left := given.bound
  rw [Session.boundAfter_append, Session.boundAfter_of_not_rebinds keeps,
    ← Session.boundAfter_append] at left
  have facing := (first.append binds).facing Camera.Virtual.holdsFacing (by simp) _ left
  have range := linearZoom_range request.zoom
  exact Camera.Virtual.ran_settings sets facing torch zoom range.1 range.2

end

variable {σ : Type} {world : World σ} {s : Studio σ} {i : Nat} {run run' : Run}
  {entries : List Entry} {lock : Lock Nat} {completions : List Completion}

theorem asked_agrees {facing : Facing} {bound : Option Facing} {how : Session.Binding}
    (asked : Session.Asked facing bound entries how)
    (sound : ∀ e ∈ entries, ∀ message, e.reply ≠ .crashed message)
    (binds : ∀ e ∈ entries, ∀ facing, e.command = .control (.bind facing) → e.reply = .done) :
    how = .kept ∨ how = .asked .done := by
  cases asked with
  | kept => exact Or.inl rfl
  | brokenOff _ _ crash => exact absurd crash (sound _ (by simp) _)
  | @answered u b _ _ _ bind => exact Or.inr (by rw [binds b (by simp) facing bind])

theorem Passed.sound {command : Camera.Command} {bound : Option Facing} {reply : Camera.Reply}
    (passed : Passed command bound entries reply)
    (sound : ∀ e ∈ entries, ∀ message, e.reply ≠ .crashed message) (message : String) :
    reply ≠ .crashed message := by
  cases passed with
  | withheld => simp
  | answered => exact sound _ (by simp) message

/-- With a camera that agrees to be bound and does not crash, a turn goes on with the settings of
its run, or completes them, or has nothing to do with settings. -/
theorem Turn.setting_cases (turn : Turn world s i run entries run' lock completions)
    (bound : s.session.bound = boundAfter none s.session.log)
    (own : ∀ e ∈ entries, e.client = i)
    (sound : ∀ e ∈ entries, ∀ message, e.reply ≠ .crashed message)
    (binds : ∀ e ∈ entries, ∀ facing, e.command = .control (.bind facing) → e.reply = .done)
    (setting : ∀ commands, run.setting? = some commands →
      EndsWith run.request i commands s.session.log) :
    (s.lock.holder = some i ∧ ∃ commands, run'.setting? = some commands ∧
        EndsWith run'.request i commands (s.session.log ++ entries)) ∨
      (s.lock.holder = some i ∧ run'.setting? = none ∧ run'.stage.hasSet = true ∧
        LastSet run'.request i (s.session.log ++ entries)) ∨
      run.setting? = none ∧ run'.setting? = none ∧
        (run'.stage.hasSet = true → run.stage.hasSet = true) ∧
        (entries = [] ∨
          s.lock.holder = some i ∧ ∀ e ∈ entries, ∃ path, e.command = .capture path) := by
  cases turn with
  | bound holds stage asked agreed =>
    rw [bound] at asked
    have given := Request.Given.of_asked asked agreed
    exact Or.inl ⟨holds, [], rfl, s.session.log, entries, rfl, own, given⟩
  | bindRefused _ _ asked | bindCrashed _ _ asked =>
    have agreed := asked_agrees asked sound binds
    simp at agreed
  | lit holds stage passed sound' =>
    have ends := setting [] (by simp [Run.setting?, stage])
    exact Or.inl ⟨holds, _, rfl, ends.passed rfl passed bound sound' own⟩
  | zoomed holds stage passed sound' | timed holds stage passed sound' =>
    have ends := setting [run.request.torchCommand] (by simp [Run.setting?, stage])
    have whole := ends.passed rfl passed bound sound' own
    exact Or.inr (Or.inl ⟨holds, rfl, rfl, _, [], by simp, whole, by simp⟩)
  | lightCrashed _ _ passed | zoomCrashed _ _ passed =>
    exact absurd rfl (passed.sound sound _)
  | expired stage | prepared _ stage =>
    exact Or.inr (Or.inr ⟨by simp [Run.setting?, stage], rfl, by simp [stage, Stage.hasSet],
      Or.inl rfl⟩)
  | unprepared _ stage | delivered stage =>
    exact Or.inr (Or.inr ⟨by simp [Run.setting?, stage], rfl, by simp [Stage.hasSet],
      Or.inl rfl⟩)
  | captured holds stage passed =>
    exact Or.inr (Or.inr ⟨by simp [Run.setting?, stage], rfl, by simp [Stage.hasSet],
      Or.inr ⟨holds, fun e he => ⟨_, (passed.mem he).2.1⟩⟩⟩)

end Studio

end PhotoCapture
