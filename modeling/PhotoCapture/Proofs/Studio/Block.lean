import PhotoCapture.Proofs.Studio.Commands

namespace PhotoCapture.Studio

open Session (Entry Lock boundAfter)

variable {σ : Type}

/-- The timer of a request ran between the setting of the zoom and a time, unless it ends early. -/
def Waited (world : World σ) (request : Request) (time : Nat) (entries : List Entry) : Prop :=
  request.timer.toNat ≤ world.sleep request.timer.toNat →
    ∀ e ∈ entries, e.command = request.zoomCommand → e.time + 1000 * request.timer.toNat ≤ time

/-- The entries of one run: its commands up to some point. -/
structure IsBlock (world : World σ) (request : Request) (before : Option Facing)
    (entries : List Entry) : Prop where
  commands : ∃ path, entries.map (·.command) <+: request.commands before path
  waited : ∀ e ∈ entries, e.isCapture = true → Waited world request e.time entries

/-- The camera agreed to be bound, or was bound already, and did not crash before the capture. -/
structure Prepared (request : Request) (before : Option Facing) (entries : List Entry) : Prop where
  bound : before = some request.controls.facing ∨
    ∃ e ∈ entries, e.command = .control (.bind request.controls.facing) ∧ e.reply = .done
  sound : ∀ e ∈ entries, e.isCapture = false → ∀ message, e.reply ≠ .crashed message

/-- The entries of a run that has ended. -/
structure Concluded (world : World σ) (lacksPlace : Prop) (request : Request)
    (before : Option Facing) (entries : List Entry) : Prop where
  isBlock : IsBlock world request before entries
  captured : Prepared request before entries → ¬ lacksPlace →
    entries.countP Entry.isCapture = 1

/-- What the log holds of a run, by the stage that the run has come to. -/
def Filed (world : World σ) (lacksPlace : Prop) (now : Nat) (before : Option Facing) (run : Run)
    (entries : List Entry) : Prop :=
  match run.stage with
  | .binding => entries = []
  | .lighting => run.request.Given before [] entries
  | .zooming => run.request.Given before [run.request.torchCommand] entries
  | .counting due => run.request.Given before run.request.settings entries ∧
      Waited world run.request due entries
  | .preparing | .capturing _ => run.request.Given before run.request.settings entries ∧
      Waited world run.request now entries
  | .ended _ | .delivered _ => Concluded world lacksPlace run.request before entries

variable {world : World σ} {s : Studio σ} {i : Nat} {run run' : Run} {entries more : List Entry}
  {lock : Lock Nat} {completions : List Completion} {before : Option Facing} {request : Request}
  {lacksPlace lacksPlace' : Prop} {now time : Nat}

theorem Waited.mono (waited : Waited world request now entries) (later : now ≤ time) :
    Waited world request time entries := by
  intro early e he hz
  have := waited early e he hz
  omega

theorem isBlock_of_no_capture (path : String)
    (commands : entries.map (·.command) <+: request.commands before path)
    (none : ∀ e ∈ entries, e.isCapture = false) : IsBlock world request before entries := by
  refine ⟨⟨path, commands⟩, ?_⟩
  intro e he hc
  simp [none e he] at hc

theorem concluded_of_crash {e : Entry} {message : String}
    (isBlock : IsBlock world request before entries) (he : e ∈ entries)
    (setting : e.isCapture = false) (crash : e.reply = .crashed message) :
    Concluded world lacksPlace request before entries :=
  ⟨isBlock, fun prepared => absurd crash (prepared.sound e he setting message)⟩

theorem Filed.mono (filed : Filed world lacksPlace now before run entries) (later : now ≤ time)
    (lacks : lacksPlace → lacksPlace') : Filed world lacksPlace' time before run entries := by
  unfold Filed at filed ⊢
  cases stage : run.stage with
  | binding | lighting | zooming | counting => simpa [stage] using filed
  | preparing | capturing =>
    simp only [stage] at filed ⊢
    exact ⟨filed.1, filed.2.mono later⟩
  | ended | delivered =>
    simp only [stage] at filed ⊢
    exact ⟨filed.isBlock, fun prepared place => filed.captured prepared fun h => place (lacks h)⟩

theorem concluded_of_asked {how : Session.Binding}
    (asked : Session.Asked request.controls.facing before entries how)
    (failed : ∃ reply, how = .asked reply ∧ reply ≠ .done) :
    Concluded world lacksPlace request before entries := by
  have none := asked.no_capture
  obtain ⟨reply, rfl, refused⟩ := failed
  generalize hw : Session.Binding.asked reply = how at asked
  cases asked with
  | kept => cases hw
  | @brokenOff u m other unbind crash =>
    have first := List.mem_singleton_self u
    refine concluded_of_crash (isBlock_of_no_capture "" ?_ none) first (none u first) crash
    simp [unbind, Request.commands, Request.binding, other]
  | @answered u b other unbind sound bind =>
    obtain rfl : reply = b.reply := Session.Binding.asked.inj hw
    refine ⟨isBlock_of_no_capture "" ?_ none, ?_⟩
    · simp [unbind, bind, Request.commands, Request.binding, other]
    · rintro ⟨same | ⟨e, he, bound, done⟩, -⟩
      · exact absurd same other
      · rcases List.mem_pair.mp he with rfl | rfl
        · rw [unbind] at bound
          cases bound
        · exact absurd done refused

theorem concluded_of_setting {commands : List Camera.Command} {command : Camera.Command}
    {message : String} (given : request.Given before commands entries)
    (passed : Passed command (boundAfter before entries) more (.crashed message))
    (next : commands ++ [command] <+: request.settings) :
    Concluded world lacksPlace request before (entries ++ more) := by
  have settings : ∀ c ∈ commands ++ [command], c.isCapture = false :=
    fun c hc => request.settings_no_capture c (next.subset hc)
  obtain ⟨e, rfl, rfl, crash⟩ := given.answered passed
  have none : ∀ x ∈ entries ++ [e], x.isCapture = false := by
    intro x hx
    rcases List.mem_append.mp hx with hx | hx
    · exact given.no_capture (fun c hc => settings c (by simp [hc])) x hx
    · exact List.mem_singleton.mp hx ▸ settings _ (by simp)
  have last : e ∈ entries ++ [e] := by simp
  refine concluded_of_crash (isBlock_of_no_capture "" ?_ none) last (none e last) crash
  rw [List.map_append, given.commands, List.append_assoc, List.map_singleton]
  exact (List.prefix_append_right_inj _).mpr (next.trans (List.prefix_append _ _))

theorem concluded_of_capture {path : String} {reply : Camera.Reply}
    (given : request.Given before request.settings entries)
    (waited : Waited world request now entries)
    (passed : Passed (.capture path) (boundAfter before entries) more reply)
    (stamped : ∀ e ∈ more, e.time = now) :
    Concluded world lacksPlace request before (entries ++ more) := by
  obtain ⟨e, rfl, command, -⟩ := given.answered passed
  have all : (entries ++ [e]).map (·.command) = request.commands before path := by
    simp [given.commands, command, Request.commands]
  refine ⟨⟨⟨path, all ▸ List.prefix_refl _⟩, ?_⟩, ?_⟩
  · intro x hx hc early z hz zoomed
    have at_last : x = e := by
      rcases List.mem_append.mp hx with hx | hx
      · simp [given.no_capture request.settings_no_capture x hx] at hc
      · exact List.mem_singleton.mp hx
    have before_last : z ∈ entries := by
      rcases List.mem_append.mp hz with hz | hz
      · exact hz
      · rw [List.mem_singleton.mp hz, command] at zoomed
        cases zoomed
    rw [at_last, stamped e (by simp)]
    exact waited early z before_last zoomed
  · intro _ _
    rw [Request.countP_isCapture, all, Request.countP_commands]

theorem waited_of_zoom (given : request.Given before [request.torchCommand] entries)
    (stamped : ∀ e ∈ more, e.time = now)
    (late : request.timer.toNat ≤ world.sleep request.timer.toNat →
      now + 1000 * request.timer.toNat ≤ time) :
    Waited world request time (entries ++ more) := by
  intro early e he zoomed
  rcases List.mem_append.mp he with he | he
  · have other : e.command ∈ entries.map (·.command) := List.mem_map_of_mem he
    rw [given.commands, zoomed, Request.binding] at other
    split at other <;> simp [Request.zoomCommand, Request.torchCommand] at other
  · rw [stamped e he]
    exact late early

theorem Filed.turn (turn : Turn world s i run entries run' lock completions)
    {old : List Entry} (filed : Filed world lacksPlace s.now before run old)
    (bound : s.session.bound = boundAfter before old)
    (stamped : ∀ e ∈ entries, e.time = s.now)
    (lacks : ∀ problem files, s.lock.holder = some i → run.stage = .preparing →
      Photo.prepare s.files world.directory (s.photoName world) = (.error problem, files) →
      lacksPlace) :
    Filed world lacksPlace s.now before run' (old ++ entries) := by
  -- what the session has bound is what the run's own entries left, so no command is withheld
  cases turn with
  | bound _ stage asked agreed =>
    obtain rfl : old = [] := by simpa [Filed, stage] using filed
    rw [bound] at asked
    exact Request.Given.of_asked asked agreed
  | bindRefused _ stage asked | bindCrashed _ stage asked =>
    obtain rfl : old = [] := by simpa [Filed, stage] using filed
    rw [bound] at asked
    exact concluded_of_asked asked ⟨_, rfl, by simp⟩
  | lit _ stage passed sound =>
    simp only [Filed, stage] at filed ⊢
    rw [bound] at passed
    exact filed.passed rfl passed sound
  | lightCrashed _ stage passed =>
    simp only [Filed, stage] at filed ⊢
    rw [bound] at passed
    exact concluded_of_setting filed passed ⟨[run.request.zoomCommand], rfl⟩
  | zoomed _ stage passed sound untimed =>
    simp only [Filed, stage] at filed ⊢
    rw [bound] at passed
    exact ⟨filed.passed rfl passed sound, waited_of_zoom filed stamped (by simp [untimed])⟩
  | timed _ stage passed sound timer =>
    simp only [Filed, stage] at filed ⊢
    rw [bound] at passed
    exact ⟨filed.passed rfl passed sound, waited_of_zoom filed stamped (by omega)⟩
  | zoomCrashed _ stage passed =>
    simp only [Filed, stage] at filed ⊢
    rw [bound] at passed
    exact concluded_of_setting filed passed (List.prefix_refl _)
  | expired stage late =>
    simp only [Filed, stage, List.append_nil] at filed ⊢
    exact ⟨filed.1, filed.2.mono late⟩
  | prepared _ stage => simpa only [Filed, stage, List.append_nil] using filed
  | unprepared holds stage place =>
    simp only [Filed, stage, List.append_nil] at filed ⊢
    have commands := filed.1.prefix_commands (List.prefix_refl _) ""
    have none := filed.1.no_capture run.request.settings_no_capture
    exact ⟨isBlock_of_no_capture "" commands none,
      fun _ there => absurd (lacks _ _ holds stage place) there⟩
  | captured _ stage passed =>
    simp only [Filed, stage] at filed ⊢
    rw [bound] at passed
    exact concluded_of_capture filed.1 filed.2 passed stamped
  | delivered stage => simpa only [Filed, stage, List.append_nil] using filed

/-- A log without a capture, or with one at its end, is a block at every stage. -/
theorem Filed.isBlock (filed : Filed world lacksPlace now before run entries) :
    IsBlock world run.request before entries := by
  unfold Filed at filed
  have settings := run.request.settings_no_capture
  cases stage : run.stage with
  | binding =>
    obtain rfl : entries = [] := by simpa [stage] using filed
    exact isBlock_of_no_capture "" List.nil_prefix (by simp)
  | lighting =>
    simp only [stage] at filed
    exact isBlock_of_no_capture "" (filed.prefix_commands List.nil_prefix "")
      (filed.no_capture (by simp))
  | zooming =>
    simp only [stage] at filed
    have first : [run.request.torchCommand] <+: run.request.settings := ⟨[_], rfl⟩
    exact isBlock_of_no_capture "" (filed.prefix_commands first "")
      (filed.no_capture fun c hc => settings c (first.subset hc))
  | counting | preparing | capturing =>
    simp only [stage] at filed
    exact isBlock_of_no_capture "" (filed.1.prefix_commands (List.prefix_refl _) "")
      (filed.1.no_capture settings)
  | ended | delivered =>
    simp only [stage] at filed
    exact Concluded.isBlock filed

theorem IsBlock.once (isBlock : IsBlock world request before entries) :
    entries.countP Entry.isCapture ≤ 1 := by
  obtain ⟨path, commands⟩ := isBlock.commands
  rw [Request.countP_isCapture, ← Request.countP_commands request before path]
  exact commands.sublist.countP_le

end PhotoCapture.Studio
