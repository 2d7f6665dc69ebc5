import PhotoCapture.Proofs.Studio.Prospect
import PhotoCapture.Proofs.Studio.Report
import PhotoCapture.Proofs.Studio.Commands

namespace PhotoCapture

open Session (Entry Asked boundAfter)

/-- The camera was asked for a facing that was not bound, and refused. -/
def Session.Refused (facing : Facing) (bound : Option Facing) (log : List Entry)
    (error : Camera.Error) : Prop :=
  bound ≠ some facing ∧ ∃ e ∈ log, e.command = .control (.bind facing) ∧ e.reply = .refused error

def Session.BindFailed (facing : Facing) (bound : Option Facing) (log : List Entry) : Prop :=
  ∃ error, Refused facing bound log error

structure Captured (path : String) (reply : Camera.Reply) (outcome : Outcome) : Prop where
  saved : ∀ p, outcome = .saved p ↔ p = path ∧ reply = .done
  worker : ∀ m, outcome = .failed (.worker m) ↔
    reply = .refused (.workerFailed m) ∨ ∃ t, reply = .crashed t ∧ m = Session.brokenOff 0 t
  capture : ∀ m, outcome = .failed (.capture m) ↔
    ∃ error, reply = .refused error ∧ (∀ t, error ≠ .workerFailed t) ∧ m = error.message

/-- How a request comes out, and which commands it gives, by what the camera answers to them and
by the place for its photo. -/
structure Classified (request : Request) (bound : Option Facing) (files : Files)
    (place : Except Files.Problem String) (log : List Entry) (left : Files) (outcome : Outcome) :
    Prop where
  bind : ∀ m, outcome = .failed (.bind m) ↔
    ∃ error, Session.Refused request.controls.facing bound log error ∧ m = error.message
  unbound : Session.BindFailed request.controls.facing bound log →
    log.map (·.command) = request.binding bound ∧ left = files
  storage : ∀ m, outcome = .failed (.storage m) ↔
    ¬Session.BindFailed request.controls.facing bound log ∧
      ∃ problem, place = .error problem ∧ m = problem.message
  unplaced : ¬Session.BindFailed request.controls.facing bound log →
    ∀ problem, place = .error problem →
      log.map (·.command) = request.binding bound ++ request.settings
  placed : ¬Session.BindFailed request.controls.facing bound log →
    ∀ path, place = .ok path → log.map (·.command) = request.commands bound path ∧
      ∃ e, log.getLast? = some e ∧ Captured path e.reply outcome

/-- The ways in which a request comes out. -/
inductive Came (request : Request) (bound : Option Facing) (files : Files)
    (place : Except Files.Problem String) : List Entry → Files → Outcome → Prop
  | unbound {u b error} (other : bound ≠ some request.controls.facing)
      (unbind : u.command = .control .unbindAll)
      (bind : b.command = .control (.bind request.controls.facing))
      (refused : b.reply = .refused error) :
      Came request bound files place [u, b] files (.failed (.bind error.message))
  | unplaced {entries left problem} (given : request.Given bound request.settings entries)
      (missing : place = .error problem) :
      Came request bound files place entries left (.failed (.storage problem.message))
  | placed {entries left path e} (given : request.Given bound request.settings entries)
      (found : place = .ok path) (last : e.command = .capture path) :
      Came request bound files place (entries ++ [e]) left
        (Studio.captureOutcome path (Session.captureResult 0 e.reply))

variable {request : Request} {bound : Option Facing} {files left : Files}
  {place : Except Files.Problem String} {entries log : List Entry} {outcome : Outcome}
  {more : List Camera.Command}

theorem Request.Given.not_bindFailed (later : List Entry)
    (given : request.Given bound more entries) (settings : ∀ c ∈ more, c.rebinds = false)
    (rest : ∀ e ∈ later, e.rebinds = false) :
    ¬Session.BindFailed request.controls.facing bound (entries ++ later) := by
  rintro ⟨error, other, e, he, bind, refused⟩
  have rebinds : e.rebinds = true := by rw [Entry.rebinds, bind]; rfl
  have here : e ∈ entries := by
    rcases List.mem_append.mp he with he | he
    · exact he
    · simp [rest e he] at rebinds
  have commands := given.commands
  rw [Request.binding, if_neg other] at commands
  obtain ⟨u, entries, rfl, unbind, commands⟩ := List.map_eq_cons_iff.mp commands
  obtain ⟨b, entries, rfl, -, commands⟩ := List.map_eq_cons_iff.mp commands
  have after : ∀ x ∈ entries, x.rebinds = false := by
    intro x hx
    have command : x.command ∈ entries.map (·.command) := List.mem_map_of_mem hx
    rw [commands] at command
    exact settings _ command
  rcases List.mem_cons.mp here with rfl | here
  · rw [unbind] at bind
    cases bind
  · rcases List.mem_cons.mp here with rfl | here
    · have agreed : boundAfter (e.leaves (u.leaves bound)) entries = _ := given.bound
      rw [Session.boundAfter_of_not_rebinds after] at agreed
      have done := (Entry.agreed_of_leaves rebinds agreed).2
      rw [refused] at done
      cases done
    · simp [after e here] at rebinds

theorem captured_of_captureResult (path : String) (reply : Camera.Reply) :
    Captured path reply
      (Studio.captureOutcome path (Session.captureResult 0 reply)) := by
  cases reply with
  | done => constructor <;> simp [Studio.captureOutcome, Session.captureResult, eq_comm]
  | refused error =>
    constructor <;> cases error <;>
      simp [Studio.captureOutcome, Session.captureResult, eq_comm]
  | crashed message =>
    constructor <;> simp [Studio.captureOutcome, Session.captureResult, eq_comm]

theorem classified_of_bound (agreed : ¬Session.BindFailed request.controls.facing bound log)
    (other : ∀ m, outcome ≠ .failed (.bind m))
    (storage : ∀ m, outcome = .failed (.storage m) ↔
      ∃ problem, place = .error problem ∧ m = problem.message)
    (unplaced : ∀ problem, place = .error problem →
      log.map (·.command) = request.binding bound ++ request.settings)
    (placed : ∀ path, place = .ok path → log.map (·.command) = request.commands bound path ∧
      ∃ e, log.getLast? = some e ∧ Captured path e.reply outcome) :
    Classified request bound files place log left outcome := by
  refine ⟨fun m => ⟨?_, ?_⟩, ?_, fun m => ?_, fun _ => unplaced, fun _ => placed⟩
  · intro failed
    exact absurd failed (other m)
  · rintro ⟨error, refused, -⟩
    exact absurd ⟨error, refused⟩ agreed
  · intro failed
    exact absurd failed agreed
  · rw [storage m]
    exact (and_iff_right agreed).symm

theorem Came.classified (came : Came request bound files place log left outcome) :
    Classified request bound files place log left outcome := by
  cases came with
  | @unbound u b error other unbind bind refused =>
    have this : Session.Refused request.controls.facing bound [u, b] error :=
      ⟨other, b, by simp, bind, refused⟩
    have failed : Session.BindFailed request.controls.facing bound [u, b] := ⟨error, this⟩
    have only : ∀ e, Session.Refused request.controls.facing bound [u, b] e → e = error := by
      rintro e ⟨-, x, hx, command, reply⟩
      rcases List.mem_pair.mp hx with rfl | rfl
      · rw [unbind] at command
        cases command
      · rw [refused] at reply
        cases reply
        rfl
    refine ⟨fun m => ⟨?_, ?_⟩, fun _ => ⟨?_, rfl⟩, fun m => ⟨nofun, ?_⟩, absurd failed,
      absurd failed⟩
    · rintro ⟨⟩
      exact ⟨error, this, rfl⟩
    · rintro ⟨e, he, rfl⟩
      rw [only e he]
    · simp [Request.binding, other, unbind, bind]
    · rintro ⟨agreed, -⟩
      exact absurd failed agreed
  | @unplaced entries left problem given missing =>
    have agreed := given.not_bindFailed [] request.settings_not_rebinds (by simp)
    rw [List.append_nil] at agreed
    subst missing
    refine classified_of_bound agreed (by simp) (fun m => ?_) (fun _ _ => given.commands) (by simp)
    simp [eq_comm]
  | @placed entries left path e given found last =>
    have capture : e.rebinds = false := by rw [Entry.rebinds, last]; rfl
    have agreed := given.not_bindFailed [e] request.settings_not_rebinds (by simpa using capture)
    have commands : (entries ++ [e]).map (·.command) = request.commands bound path := by
      simp [given.commands, last, Request.commands]
    subst found
    refine classified_of_bound agreed (Studio.captureOutcome_ne_bind path _) (fun m => ?_)
      (by simp) ?_
    · simp [Studio.captureOutcome_ne_storage path _ m]
    · rintro _ ⟨⟩
      exact ⟨commands, e, by simp, captured_of_captureResult path e.reply⟩

theorem boundAfter_untimed (bound : Option Facing) (log : List Entry) :
    boundAfter bound (log.map Entry.untimed) = boundAfter bound log := by
  rw [boundAfter, List.foldl_map]
  rfl

theorem Request.Given.of_untimed (given : request.Given bound more (log.map Entry.untimed)) :
    request.Given bound more log where
  commands := by
    have commands := given.commands
    rw [List.map_map] at commands
    exact commands
  sound e he := given.sound e.untimed (List.mem_map_of_mem he)
  bound := (boundAfter_untimed bound log).symm.trans given.bound

theorem Came.of_untimed
    (came : Came request bound files place (log.map Entry.untimed) left outcome) :
    Came request bound files place log left outcome := by
  generalize untimed : log.map Entry.untimed = entries at came
  cases came with
  | @unbound u b error other unbind bind refused =>
    obtain ⟨u', rest, rfl, rfl, last⟩ := List.map_eq_cons_iff.mp untimed
    obtain ⟨b', rest, rfl, rfl, nothing⟩ := List.map_eq_cons_iff.mp last
    obtain rfl := List.map_eq_nil_iff.mp nothing
    exact .unbound other unbind bind refused
  | unplaced given missing =>
    subst untimed
    exact .unplaced given.of_untimed missing
  | @placed entries left path e given found last =>
    obtain ⟨first, rest, rfl, rfl, capture⟩ := List.map_eq_append_iff.mp untimed
    obtain ⟨e', rest, rfl, rfl, nothing⟩ := List.map_eq_cons_iff.mp capture
    obtain rfl := List.map_eq_nil_iff.mp nothing
    exact .placed given.of_untimed found last

/-- What comes of a run is a report of one of the ways in which its request comes out. -/
def Prospect.Comes {σ : Type} (prospect : Prospect σ) (request : Request) (bound : Option Facing)
    (files : Files) (place : Except Files.Problem String) : Prop :=
  ∃ report, prospect.ending = .reported report ∧
    Came request bound files place prospect.session.log prospect.files report.outcome

namespace Studio

variable {σ : Type} {world : World σ} {name : String} {run : Run} {session : Session σ}

theorem set_given {c : Camera.Control} (device : Camera.Device σ) (stamp : Session.Stamp)
    (given : request.Given bound more session.log)
    (remembers : session.bound = some request.controls.facing)
    (setting : (Camera.Command.control c).rebinds = false) :
    (session.set device stamp c).2.bound = some request.controls.facing ∧
      (∃ e ∈ (session.set device stamp c).2.log, e.isCapture = false ∧
        e.reply = (session.set device stamp c).1) ∧
      ((∀ m, (session.set device stamp c).1 ≠ .crashed m) →
        request.Given bound (more ++ [.control c]) (session.set device stamp c).2.log) := by
  rcases Session.set_cases device stamp setting session with ⟨unbound, -⟩ | ⟨-, e, more, same⟩
  · rw [remembers] at unbound
    cases unbound
  · obtain ⟨command, reply, -⟩ := same
    have keeps : e.rebinds = false := by rw [Entry.rebinds, command, setting]
    have no_capture : e.isCapture = false := by rw [Entry.isCapture, command]; rfl
    refine ⟨?_, ⟨e, by simp [more.log], no_capture, reply⟩, ?_⟩
    · rw [more.bound, Session.boundAfter_singleton, Entry.leaves_of_not_rebinds keeps, remembers]
    · intro sound
      have passed : Passed (.control c) (boundAfter bound session.log) [e] e.reply :=
        .answered (by simp [given.bound]) command
      rw [more.log]
      exact given.passed setting passed (by rwa [reply])

theorem ofCapturing_comes {path : String}
    (given : request.Given bound request.settings session.log)
    (remembers : session.bound = some request.controls.facing) (found : place = .ok path) :
    (Prospect.ofCapturing world 0 run path session left).Comes request bound files place := by
  rcases session.capture_cases world.device ⟨0, 0⟩ path left with ⟨unbound, -⟩ | ⟨-, e, more, same⟩
  · rw [remembers] at unbound
    cases unbound
  · obtain ⟨command, told, -⟩ := same
    unfold Prospect.ofCapturing
    rcases hc : session.capture world.device ⟨0, 0⟩ path left with ⟨result, next, kept⟩
    rw [hc] at more told
    obtain rfl : result = Session.captureResult 0 e.reply := told
    have log : next.log = session.log ++ [e] := more.log
    refine ⟨_, rfl, ?_⟩
    change Came request bound files place next.log kept _
    rw [log]
    exact .placed given found command

theorem ofPreparing_comes (given : request.Given bound request.settings session.log)
    (remembers : session.bound = some request.controls.facing) :
    (Prospect.ofPreparing world 0 name run session files).Comes request bound files
      (Photo.prepare files world.directory name).1 := by
  unfold Prospect.ofPreparing
  rcases hp : Photo.prepare files world.directory name with ⟨place, kept⟩
  cases place with
  | ok path => exact ofCapturing_comes given remembers rfl
  | error problem => exact ⟨_, rfl, .unplaced given rfl⟩

theorem ofZooming_comes (same : run.request = request)
    (given : request.Given bound [request.torchCommand] session.log)
    (remembers : session.bound = some request.controls.facing)
    (sound : ∀ e ∈ (Prospect.ofZooming world 0 name run session files).session.log,
      e.isCapture = false → ∀ m, e.reply ≠ .crashed m) :
    (Prospect.ofZooming world 0 name run session files).Comes request bound files
      (Photo.prepare files world.directory name).1 := by
  subst same
  obtain ⟨keeps, ⟨e, he, setting, told⟩, next⟩ := set_given
    (c := .linearZoom run.request.controls.linearZoom) world.device ⟨0, 0⟩ given remembers rfl
  unfold Prospect.ofZooming Session.setZoom at sound ⊢
  rcases hz : session.set world.device ⟨0, 0⟩ (.linearZoom run.request.controls.linearZoom) with
    ⟨reply, after⟩
  rw [hz] at keeps he told next sound
  -- a crash would be told in the log
  cases reply with
  | crashed message => exact absurd told (sound e he setting message)
  | done | refused => exact ofPreparing_comes (next (by simp)) keeps

theorem ofLighting_comes (same : run.request = request)
    (given : request.Given bound [] session.log)
    (remembers : session.bound = some request.controls.facing)
    (sound : ∀ e ∈ (Prospect.ofLighting world 0 name run session files).session.log,
      e.isCapture = false → ∀ m, e.reply ≠ .crashed m) :
    (Prospect.ofLighting world 0 name run session files).Comes request bound files
      (Photo.prepare files world.directory name).1 := by
  subst same
  obtain ⟨keeps, ⟨e, he, setting, told⟩, next⟩ := set_given
    (c := .torch run.request.controls.torch) world.device ⟨0, 0⟩ given remembers rfl
  unfold Prospect.ofLighting Session.setTorch at sound ⊢
  rcases ht : session.set world.device ⟨0, 0⟩ (.torch run.request.controls.torch) with
    ⟨reply, after⟩
  rw [ht] at keeps he told next sound
  cases reply with
  | crashed message => exact absurd told (sound e he setting message)
  | done | refused => exact ofZooming_comes rfl (next (by simp)) keeps sound

theorem ofBinding_comes (same : run.request = request) (empty : session.log = [])
    (sound : ∀ e ∈ (Prospect.ofBinding world 0 name run session files).session.log,
      e.isCapture = false → ∀ m, e.reply ≠ .crashed m) :
    (Prospect.ofBinding world 0 name run session files).Comes request session.bound files
      (Photo.prepare files world.directory name).1 := by
  subst same
  obtain ⟨entries, more, asked⟩ :=
    session.ensureBound_extends world.device ⟨0, 0⟩ run.request.controls.facing
  unfold Prospect.ofBinding at sound ⊢
  rcases hb : session.ensureBound world.device ⟨0, 0⟩ run.request.controls.facing with
    ⟨how, after⟩
  rw [hb] at more asked sound
  have log : after.log = entries := by
    have log : after.log = session.log ++ entries := more.log
    rwa [empty, List.nil_append] at log
  have bound : (how = .kept ∨ how = .asked .done) →
      run.request.Given session.bound [] after.log ∧
        after.bound = some run.request.controls.facing := by
    intro agreed
    have given := Request.Given.of_asked asked agreed
    exact ⟨log ▸ given, more.bound.trans given.bound⟩
  cases how with
  | kept =>
    obtain ⟨given, remembers⟩ := bound (Or.inl rfl)
    exact ofLighting_comes rfl given remembers sound
  | asked reply =>
    cases reply with
    | done =>
      obtain ⟨given, remembers⟩ := bound (Or.inr rfl)
      exact ofLighting_comes rfl given remembers sound
    | refused error =>
      obtain ⟨other, u, b, rfl, unbind, bind, refused⟩ := asked.refused
      refine ⟨_, rfl, ?_⟩
      change Came _ _ _ _ after.log _ _
      rw [log]
      exact .unbound other unbind bind refused
    | crashed message =>
      obtain ⟨e, he, crash⟩ := asked.crashed
      have setting : e.isCapture = false := asked.no_capture e he
      exact absurd crash (sound e (log ▸ he) setting message)

end Studio

end PhotoCapture
