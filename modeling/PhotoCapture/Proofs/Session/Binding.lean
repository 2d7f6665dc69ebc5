import PhotoCapture.Proofs.Session.Answers

namespace PhotoCapture.Session

variable {σ : Type} {device : Camera.Device σ} {stamp : Stamp} {session session' : Session σ}

/-- The camera answered commands that were given under one stamp: they stand behind the log, the
session has bound what they leave bound, and settings and captures came only while something
was. -/
structure Extends (device : Camera.Device σ) (stamp : Stamp) (session session' : Session σ)
    (entries : List Entry) : Prop where
  log : session'.log = session.log ++ entries
  stamped : ∀ e ∈ entries, e.time = stamp.time ∧ e.client = stamp.client
  ran : Ran device session.camera entries session'.camera
  bound : session'.bound = boundAfter session.bound entries
  guarded : Throughout
    (fun earlier e => e.rebinds = false → boundAfter session.bound earlier ≠ none) entries

theorem Extends.refl (device : Camera.Device σ) (stamp : Stamp) (session : Session σ) :
    Extends device stamp session session [] :=
  ⟨by simp, by simp, .nothing _, rfl, throughout_nil⟩

/-- How a facing is bound: it was bound already, the camera broke off when it was let go of, or
it answered the binding. -/
inductive Asked (facing : Facing) (bound : Option Facing) : List Entry → Binding → Prop
  | kept (same : bound = some facing) : Asked facing bound [] .kept
  | brokenOff {u m} (other : bound ≠ some facing) (unbind : u.command = .control .unbindAll)
      (crash : u.reply = .crashed m) : Asked facing bound [u] (.asked (.crashed m))
  | answered {u b} (other : bound ≠ some facing) (unbind : u.command = .control .unbindAll)
      (sound : ∀ m, u.reply ≠ .crashed m) (bind : b.command = .control (.bind facing)) :
      Asked facing bound [u, b] (.asked b.reply)

theorem Asked.rebinds {facing : Facing} {bound : Option Facing} {entries : List Entry}
    {how : Binding} (asked : Asked facing bound entries how) : ∀ e ∈ entries, e.rebinds = true := by
  cases asked with
  | kept => simp
  | brokenOff _ hu _ => simp [Entry.rebinds, Camera.Command.rebinds, hu]
  | answered _ hu _ hb => simp [Entry.rebinds, Camera.Command.rebinds, hu, hb]

theorem Asked.refused {facing : Facing} {bound : Option Facing}
    {entries : List Entry} {error : Camera.Error}
    (asked : Asked facing bound entries (.asked (.refused error))) :
    bound ≠ some facing ∧ ∃ u b, entries = [u, b] ∧ u.command = .control .unbindAll ∧
      b.command = .control (.bind facing) ∧ b.reply = .refused error := by
  generalize how : Binding.asked (.refused error) = answer at asked
  cases asked with
  | kept => cases how
  | brokenOff => cases how
  | @answered u b other unbind sound bind =>
    have reply := (Binding.asked.inj how).symm
    exact ⟨other, u, b, rfl, unbind, bind, reply⟩

theorem Asked.crashed {facing : Facing} {bound : Option Facing}
    {entries : List Entry} {message : String}
    (asked : Asked facing bound entries (.asked (.crashed message))) :
    ∃ e ∈ entries, e.reply = .crashed message := by
  generalize how : Binding.asked (.crashed message) = answer at asked
  cases asked with
  | kept => cases how
  | @brokenOff u m other unbind crash =>
    cases how
    exact ⟨u, by simp, crash⟩
  | @answered u b other unbind sound bind =>
    have reply := (Binding.asked.inj how).symm
    exact ⟨b, by simp, reply⟩

/-- Commands that let go of the camera or ask for it need nothing to be bound. -/
theorem Extends.of_rebinds {entries : List Entry} (log : session'.log = session.log ++ entries)
    (stamped : ∀ e ∈ entries, e.time = stamp.time ∧ e.client = stamp.client)
    (ran : Ran device session.camera entries session'.camera)
    (bound : session'.bound = boundAfter session.bound entries)
    (rebinds : ∀ e ∈ entries, e.rebinds = true) :
    Extends device stamp session session' entries := by
  refine ⟨log, stamped, ran, bound, ?_⟩
  intro earlier e later he hr
  have := rebinds e (by simp [he])
  simp [hr] at this

def entry (device : Camera.Device σ) (stamp : Stamp) (session : Session σ)
    (command : Camera.Command) (reply : Camera.Reply) : Entry :=
  ⟨stamp.time, stamp.client, command, device.state session.camera, reply⟩

theorem give_log {c : Camera.Control} {reply : Camera.Reply}
    (h : give device stamp c session = (reply, session')) :
    session'.log = session.log ++ [entry device stamp session (.control c) reply] := by
  obtain ⟨rfl, rfl⟩ := Prod.mk.inj h
  rfl

theorem give_bound {c : Camera.Control} {reply : Camera.Reply}
    (h : give device stamp c session = (reply, session')) : session'.bound = session.bound := by
  obtain ⟨-, rfl⟩ := Prod.mk.inj h
  rfl

theorem give_camera {c : Camera.Control} {reply : Camera.Reply}
    (h : give device stamp c session = (reply, session')) :
    device.control c session.camera = (reply, session'.camera) := by
  obtain ⟨rfl, rfl⟩ := Prod.mk.inj h
  rfl

theorem give_ran {c : Camera.Control} {reply : Camera.Reply} {entries : List Entry} {last : σ}
    (h : give device stamp c session = (reply, session'))
    (rest : Ran device session'.camera entries last) :
    Ran device session.camera (entry device stamp session (.control c) reply :: entries) last :=
  .control rfl rfl (give_camera h) rest

theorem ensureBound_extends (device : Camera.Device σ) (stamp : Stamp) (facing : Facing)
    (session : Session σ) :
    ∃ entries, Extends device stamp session (session.ensureBound device stamp facing).2 entries ∧
      Asked facing session.bound entries (session.ensureBound device stamp facing).1 := by
  unfold ensureBound
  split
  next same => exact ⟨[], .refl device stamp session, .kept same⟩
  next other =>
    split
    next m s hu =>
      have log := give_log hu
      have ran := give_ran hu (.nothing _)
      refine ⟨_, .of_rebinds log ?_ ?_ ?_ ?_, .brokenOff other rfl rfl⟩
      · simp [entry]
      · exact ran
      · exact give_bound hu
      · simp [entry, Entry.rebinds, Camera.Command.rebinds]
    next r s sound hu =>
      split
      next t hb =>
        have log := (give_log hb).trans (by rw [give_log hu, List.append_assoc])
        have ran := give_ran hu (give_ran hb (.nothing _))
        refine ⟨_, .of_rebinds log ?_ ?_ ?_ ?_, .answered other rfl (fun m => sound m) rfl⟩
        · simp [entry]
        · exact ran
        · simp [boundAfter, Entry.leaves, entry]
        · simp [entry, Entry.rebinds, Camera.Command.rebinds]
      next r' t hn hb =>
        have refused : r' ≠ .done := hn
        have log := (give_log hb).trans (by rw [give_log hu, List.append_assoc])
        have ran := give_ran hu (give_ran hb (.nothing _))
        refine ⟨_, .of_rebinds log ?_ ?_ ?_ ?_, .answered other rfl (fun m => sound m) rfl⟩
        · simp [entry]
        · exact ran
        · simpa [boundAfter, Entry.leaves, entry, give_bound hu, refused] using give_bound hb
        · simp [entry, Entry.rebinds, Camera.Command.rebinds]

theorem Extends.of_setting {e : Entry} (some : session.bound ≠ none)
    (log : session'.log = session.log ++ [e])
    (stamped : e.time = stamp.time ∧ e.client = stamp.client) 
    (ran : Ran device session.camera [e] session'.camera)
    (bound : session'.bound = session.bound) (setting : e.rebinds = false) :
    Extends device stamp session session' [e] := by
  refine ⟨log, by simpa using stamped, ran, ?_, throughout_singleton ?_⟩
  · simpa [Entry.leaves_of_not_rebinds setting] using bound
  · exact fun _ => some

theorem set_cases (device : Camera.Device σ) (stamp : Stamp) {c : Camera.Control}
    (setting : (Camera.Command.control c).rebinds = false) (session : Session σ) :
    session.bound = none ∧ session.set device stamp c = (.refused .notBound, session) ∨
      session.bound ≠ none ∧
        ∃ e, Extends device stamp session (session.set device stamp c).2 [e] ∧
          e.command = .control c ∧ e.reply = (session.set device stamp c).1 ∧
          e.before = device.state session.camera := by
  unfold set
  split
  next h => exact Or.inl ⟨by simpa using h, rfl⟩
  next h =>
    have some : session.bound ≠ none := by simpa using h
    exact Or.inr ⟨some, _, .of_setting some (give_log rfl) ⟨rfl, rfl⟩
      (give_ran rfl (.nothing _)) (give_bound rfl) setting, rfl, rfl, rfl⟩

/-- What a client is told of a capture that the camera answered. -/
def captureResult (client : Nat) : Camera.Reply → Except Camera.Error Unit
  | .done => .ok ()
  | .refused error => .error error
  | .crashed message => .error (.workerFailed (brokenOff client message))

theorem capture_cases (device : Camera.Device σ) (stamp : Stamp) (path : String)
    (session : Session σ) (files : Files) :
    session.bound = none ∧
        session.capture device stamp path files = (.error .notBound, session, files) ∨
      session.bound ≠ none ∧
        ∃ e, Extends device stamp session (session.capture device stamp path files).2.1 [e] ∧
          e.command = .capture path ∧
          (session.capture device stamp path files).1 = captureResult stamp.client e.reply ∧
          e.before = device.state session.camera := by
  unfold capture
  split
  next h => exact Or.inl ⟨by simpa using h, rfl⟩
  next h =>
    have some : session.bound ≠ none := by simpa using h
    cases ha : device.capture path session.camera files with
    | mk reply rest =>
      obtain ⟨camera, files'⟩ := rest
      have ran : Ran device session.camera [entry device stamp session (.capture path) reply]
          camera := .capture rfl rfl ha (.nothing _)
      refine Or.inr ⟨some, _, .of_setting some rfl ⟨rfl, rfl⟩ ran rfl rfl, rfl, ?_, rfl⟩
      cases reply <;> rfl

/-- The log of a session tells how its camera answered, the session remembers the facing that its
log leaves bound, and no setting and no capture in its log came while nothing was bound. -/
structure Faithful (device : Camera.Device σ) (camera : σ) (before : Option Facing)
    (session : Session σ) : Prop where
  ran : Ran device camera session.log session.camera
  bound : session.bound = boundAfter before session.log
  guarded : Throughout
    (fun earlier e => e.rebinds = false → boundAfter before earlier ≠ none) session.log

theorem Faithful.start (device : Camera.Device σ) (camera : σ) (bound : Option Facing) :
    ({ camera := camera, bound := bound } : Session σ).Faithful device camera bound :=
  ⟨.nothing camera, rfl, throughout_nil⟩

theorem Faithful.extends {camera : σ} {before : Option Facing} {entries : List Entry}
    (faithful : session.Faithful device camera before)
    (h : Extends device stamp session session' entries) :
    session'.Faithful device camera before := by
  refine ⟨?_, ?_, ?_⟩
  · rw [h.log]
    exact faithful.ran.append h.ran
  · rw [h.log, h.bound, boundAfter_append, faithful.bound]
  · rw [h.log]
    apply throughout_append faithful.guarded
    intro earlier e later he hr
    rw [boundAfter_append, ← faithful.bound]
    exact h.guarded earlier e later he hr

/-- At a setting or a capture, a camera that holds on to its facing has the one that is bound. -/
theorem Faithful.seen {camera : σ} (faithful : session.Faithful device camera none)
    (holds : device.HoldsFacing) {earlier later : List Entry} {e : Entry}
    (hl : session.log = earlier ++ e :: later) (hr : e.rebinds = false) :
    ∃ facing, boundAfter none earlier = some facing ∧ e.before.facing = some facing := by
  obtain ⟨facing, hf⟩ := Option.ne_none_iff_exists'.mp (faithful.guarded earlier e later hl hr)
  have ran := faithful.ran
  rw [hl] at ran
  obtain ⟨next, first, rest⟩ := ran.split
  refine ⟨facing, hf, ?_⟩
  rw [rest.before_eq]
  exact first.facing holds (by simp) facing hf

end PhotoCapture.Session
