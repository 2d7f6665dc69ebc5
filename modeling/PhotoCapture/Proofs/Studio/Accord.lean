import PhotoCapture.Proofs.Studio.Alike

namespace PhotoCapture

open Camera (Likeness)

def Ending.filter? : Ending → Option (ColorMatrix Single)
  | reported report => report.filter
  | brokenOff _ => none

/-- Two runs of the same request have come to the same, but for the path of the photo. -/
structure Run.Accords (paths : String → String → Prop) (run run' : Run) : Prop where
  request : run.request = run'.request
  ending : ∃ ending ending', run.stage = .delivered ending ∧ run'.stage = .delivered ending' ∧
    ending.Like paths ending' ∧ ending.filter? = ending'.filter?

namespace Studio

open Session (Entry)

variable {σ : Type} {world : World σ} {s s' : Studio σ} {run run' : Run} {runs runs' : List Run}
  {events events' : List Event} {camera : σ} {bound : Option Facing} {files : Files}
  {names names' : Nat → String} {p q : Session.Policy} {paths : String → String → Prop}

theorem filter_eq_of_like {request : Request} {report report' : Report}
    (coherent : Coherent request report) (coherent' : Coherent request report')
    (like : report.Like paths report') : report.filter = report'.filter := by
  have same : report.filter = none ↔ report'.filter = none := by
    rw [coherent.unfiltered, coherent'.unfiltered]
    have outcome := like.outcome
    generalize report.outcome = told, report'.outcome = told' at outcome
    cases outcome with
    | saved => simp
    | failed => exact Iff.rfl
  by_cases missing : report.filter = none
  · rw [missing, same.mp missing]
  · rw [(coherent.filtered missing).1, (coherent'.filtered fun h => missing (same.mpr h)).1]

theorem accords_of_delivered {ending ending' : Ending} (request : run.request = run'.request)
    (recorded : run.Recorded) (recorded' : run'.Recorded) (stage : run.stage = .delivered ending)
    (stage' : run'.stage = .delivered ending') (like : ending.Like paths ending') :
    run.Accords paths run' := by
  refine ⟨request, ending, ending', stage, stage', like, ?_⟩
  simp only [Run.Recorded, stage] at recorded
  simp only [Run.Recorded, stage'] at recorded'
  cases like with
  | reported like =>
    have coherent := recorded'.2 _ rfl
    rw [← request] at coherent
    exact filter_eq_of_like (recorded.2 _ rfl) coherent like
  | brokenOff message => rfl

theorem accords_of_like (delivered : ∀ run ∈ runs, ∃ ending, run.stage = .delivered ending)
    (delivered' : ∀ run ∈ runs', ∃ ending, run.stage = .delivered ending)
    (recorded : ∀ run ∈ runs, run.Recorded) (recorded' : ∀ run ∈ runs', run.Recorded)
    (requests : runs.map (·.request) = runs'.map (·.request))
    (endings : List.Forall₂ (Ending.Like paths) (runs.filterMap fun run => run.stage.ending?)
      (runs'.filterMap fun run => run.stage.ending?)) :
    List.Forall₂ (Run.Accords paths) runs runs' := by
  induction runs generalizing runs' with
  | nil =>
    obtain rfl : runs' = [] := by simpa using requests.symm
    exact .nil
  | cons run runs ih =>
    cases runs' with
    | nil => simp at requests
    | cons run' runs' =>
      rw [List.forall_mem_cons] at delivered delivered' recorded recorded'
      obtain ⟨⟨ending, stage⟩, delivered⟩ := delivered
      obtain ⟨⟨ending', stage'⟩, delivered'⟩ := delivered'
      obtain ⟨request, requests⟩ := List.cons.inj requests
      have gone : run.stage.ending? = some ending := by simp [stage, Stage.ending?]
      have gone' : run'.stage.ending? = some ending' := by simp [stage', Stage.ending?]
      simp only [List.filterMap_cons, gone, gone'] at endings
      obtain ⟨like, endings⟩ := List.forall₂_cons.mp endings
      exact .cons (accords_of_delivered request recorded.1 recorded'.1 stage stage' like)
        (ih delivered delivered' recorded.2 recorded'.2 requests endings)

theorem stages_of_delivered (delivered : ∀ run ∈ runs, ∃ ending, run.stage = .delivered ending) :
    runs.map (·.stage) = (runs.filterMap fun run => run.stage.ending?).map .delivered := by
  induction runs with
  | nil => rfl
  | cons run runs ih =>
    rw [List.forall_mem_cons] at delivered
    obtain ⟨⟨ending, stage⟩, delivered⟩ := delivered
    simp only [List.filterMap_cons, List.map_cons, stage, Stage.ending?, ih delivered]

/-- Two courses of the same requests give the camera the same commands, and their runs come to the
same, but for the paths of the photos. -/
structure Accords (paths : String → String → Prop) (s s' : Studio σ) : Prop where
  commands : List.Forall₂ (Entry.Like paths) s.session.log s'.session.log
  runs : List.Forall₂ (Run.Accords paths) s.runs s'.runs

/-- Two courses of the same requests differ in nothing but the times of their commands. -/
structure Coincides (s s' : Studio σ) : Prop where
  log : s.session.log.map Entry.untimed = s'.session.log.map Entry.untimed
  camera : s.session.camera = s'.session.camera
  bound : s.session.bound = s'.session.bound
  files : s.files = s'.files
  runs : s.runs.map (·.stage) = s'.runs.map (·.stage)

theorem coincides_of_names
    (first : Orderly (world.under p) (openedOn camera bound files) events s)
    (second : Orderly (world.under q) (openedOn camera bound files) events' s')
    (same : events'.filterMap Event.request? = events.filterMap Event.request?)
    (named : Named (world.under p) (openedOn camera bound files) events names)
    (named' : Named (world.under q) (openedOn camera bound files) events' names) :
    Coincides s s' := by
  have decided := second.decided named'
  rw [same, first.decided named] at decided
  obtain ⟨session, files, endings⟩ := Forecast.mk.inj decided
  have runs := stages_of_delivered first.delivered
  rw [endings, ← stages_of_delivered second.delivered] at runs
  exact ⟨congrArg (·.log) session, congrArg (·.camera) session, congrArg (·.bound) session, files,
    runs⟩

theorem accords_of_alike {l : Likeness σ σ}
    (first : Orderly (world.under p) (openedOn camera bound files) events s)
    (second : Orderly (world.under q) (openedOn camera bound files) events' s')
    (same : events'.filterMap Event.request? = events.filterMap Event.request?)
    (named : Named (world.under p) (openedOn camera bound files) events names)
    (named' : Named (world.under q) (openedOn camera bound files) events' names')
    (alike : Camera.Alike l world.device world.device) (again : l.done = l.working)
    (places : ∀ i, AlikePlaces l world.directory world.directory (names i) (names' i))
    (start : l.working camera files camera files) : Accords l.paths s s' := by
  have opens : ({ camera := camera, bound := bound } : Session σ).Like l.paths l.working files
      { camera := camera, bound := bound } files := ⟨rfl, start, .nil⟩
  obtain ⟨sessions, endings⟩ := forecast_like (i := 0) alike again places
    (events.filterMap Event.request?) opens
  have decided := first.decided named
  have decided' := second.decided named'
  rw [forecastOf] at decided
  rw [same, forecastOf] at decided'
  rw [decided, decided'] at sessions endings
  refine ⟨?_, ?_⟩
  · have log := List.forall₂_map_left_iff.mp (List.forall₂_map_right_iff.mp sessions.log)
    exact log.imp fun e e' like => ⟨like.client, like.command⟩
  · have requests : s.runs.map (·.request) = s'.runs.map (·.request) := by
      have made := first.reach.requests_eq
      have made' := second.reach.requests_eq
      rw [same] at made'
      exact made.trans made'.symm
    exact accords_of_like first.delivered second.delivered first.recorded second.recorded requests
      endings

/-- Where no timer lets requests overlap, the same events come to the same end under both ways of
sharing the camera. So does every other order of the events: if the photos get the same names, it
differs in the times of the commands only; if the names make no difference to the camera and to the
places for the photos, also in the paths. -/
theorem policies_agree
    (first : Orderly (world.under p) (openedOn camera bound files) events s) :
    Orderly (world.under q) (openedOn camera bound files) events s ∧
      (∃ times : Nat → Nat, (∀ i, times i ≤ s.now) ∧
        Named (world.under p) (openedOn camera bound files) events
          fun i => world.nameAt (times i)) ∧
      ∀ events' s', Orderly (world.under q) (openedOn camera bound files) events' s' →
        events'.filterMap Event.request? = events.filterMap Event.request? →
        ∀ names names', Named (world.under p) (openedOn camera bound files) events names →
          Named (world.under q) (openedOn camera bound files) events' names' →
          (names = names' → Coincides s s') ∧
            ∀ l : Likeness σ σ, Camera.Alike l world.device world.device →
              l.done = l.working → l.working camera files camera files →
              (∀ i, AlikePlaces l world.directory world.directory (names i) (names' i)) →
              Accords l.paths s s' := by
  refine ⟨first.under, first.reach.exists_names, ?_⟩
  intro events' s' second same names names' named named'
  refine ⟨?_, ?_⟩
  · rintro rfl
    exact coincides_of_names first second same named named'
  · intro l alike again start places
    exact accords_of_alike first second same named named' alike again places start

def portrait : Request := { Request.standard with facing := .front, flash := .on }

/-- Two requests, the second of which is made when the first has been completed. -/
def inSequence : List Event :=
  [.request .standard, .act 0, .act 0, .act 0, .act 0, .act 0, .act 0,
    .request portrait, .act 1, .act 1, .act 1, .act 1, .act 1, .act 1]

/-- The same requests, both of which are made at once, and a pause. -/
def atOnce (pause : Nat) : List Event :=
  [.request .standard, .request portrait, .act 0, .act 0, .advance pause, .act 0, .act 0, .act 0,
    .act 1, .act 0, .act 1, .act 1, .act 1, .act 1, .act 1]

/-- The same two requests with timers. The first is woken at a time in milliseconds, and completed
before the second is made and woken in its turn. -/
def woken (first second : Nat) : List Event :=
  [.request { Request.standard with timer := 1 }, .act 0, .act 0, .act 0, .advance first,
    .act 0, .act 0, .act 0, .act 0,
    .request { portrait with timer := 2 }, .act 1, .act 1, .act 1, .advance second,
    .act 1, .act 1, .act 1, .act 1]

/-- A studio whose camera takes every command, and leaves the files as they are. -/
def blind : World Camera.State :=
  { steady with
    device :=
      { Camera.Stub.device with capture := fun _ state files => (.done, state, files) } }

def anyPhoto : Likeness Camera.State Camera.State := .equal fun _ _ => True

theorem nameAt_early {time : Nat} (early : time < 1000) : world.nameAt time = world.nameAt 0 := by
  have none : (time : Int) / 1000 = 0 := by omega
  simp [World.nameAt, none]

theorem Reach.named_early {start : Studio σ} (reach : Reach world start events s)
    (early : s.now < 1000) : Named world start events fun _ => world.nameAt 0 := by
  obtain ⟨times, past, named⟩ := reach.exists_names
  intro earlier i m run part before here stage
  have hi := past i
  exact (named earlier i m run part before here stage).trans (nameAt_early (by omega))

theorem apart_of_takes {start : Studio σ}
    (ended : ∀ k < events.length, (events[k]? >>= Event.request?).isSome = true →
      (start.after? world (events.take k)).all
        (fun s => s.runs.all fun run => run.stage.ending?.isSome) = true) :
    Apart world start events := by
  refine Or.inr fun earlier request s part reach run here => ?_
  obtain ⟨later, rfl⟩ := part
  have made := ended earlier.length (by simp) (by simp [Event.request?])
  simp only [List.append_assoc, List.take_left', reach_iff_after?.mp reach, Option.all_some,
    List.all_eq_true] at made
  exact Option.isSome_iff_ne_none.mp (made run here)

theorem orderly_of_ranks {start : Studio σ} {n : Nat}
    (reached : start.after? world events = some s) (apart : Apart world start events)
    (ranks : s.runs.map (·.stage.rank) = .replicate n 7) : Orderly world start events s :=
  ⟨reach_iff_after?.mpr reached, apart, atRest_of_ranks ranks⟩

theorem blind_alike : Camera.Alike anyPhoto blind.device blind.device :=
  Camera.alike_equal fun _ => rfl

theorem blind_places (name name' : String) :
    AlikePlaces anyPhoto blind.directory blind.directory name name' :=
  alikePlaces_of_files (fun same => same.2) (fun same => ⟨same.1, rfl⟩) fun _ => trivial

/-- While the first timer is running, its run keeps the session or has left it. -/
theorem woken_kept_or_left :
    ∃ s s', Reach (blind.under .exclusive) (openedOn {} none .root) ((woken 1000 3000).take 4) s ∧
      Reach (blind.under .unsynchronized) (openedOn {} none .root)
        ((woken 1000 3000).take 4) s' ∧
      s.lock.holder = some 0 ∧ s'.lock.holder = none := by
  have kept : ((openedOn {} none .root).after? (blind.under .exclusive)
      ((woken 1000 3000).take 4)).map (·.lock.holder) = some (some 0) := by decide +kernel
  have left : ((openedOn {} none .root).after? (blind.under .unsynchronized)
      ((woken 1000 3000).take 4)).map (·.lock.holder) = some none := by decide +kernel
  obtain ⟨s, reached, kept⟩ := Option.map_eq_some_iff.mp kept
  obtain ⟨s', reached', left⟩ := Option.map_eq_some_iff.mp left
  exact ⟨s, s', reach_iff_after?.mpr reached, reach_iff_after?.mpr reached', kept, left⟩

/-- Requests without timers, one after the other and at once, and requests with timers one after the
other, during whose pauses the two policies go different ways to the same end. -/
theorem sequence_agrees_with_overlap :
    (∃ s s' s'', Orderly (blind.under .exclusive) (openedOn {} none .root) inSequence s ∧
      Orderly (blind.under .unsynchronized) (openedOn {} none .root) (atOnce 500) s' ∧
      Orderly (blind.under .unsynchronized) (openedOn {} none .root) (atOnce 5000) s'' ∧
      s.session.log.length = 10 ∧ Coincides s s' ∧ Accords anyPhoto.paths s s'') ∧
    (∃ s s', Orderly (blind.under .exclusive) (openedOn {} none .root) (woken 1000 3000) s ∧
      Orderly (blind.under .unsynchronized) (openedOn {} none .root) (woken 1000 3000) s ∧
      Orderly (blind.under .unsynchronized) (openedOn {} none .root) (woken 1500 9000) s' ∧
      s.session.log.length = 10 ∧ Accords anyPhoto.paths s s') ∧
    ∃ s s', Reach (blind.under .exclusive) (openedOn {} none .root)
        ((woken 1000 3000).take 4) s ∧
      Reach (blind.under .unsynchronized) (openedOn {} none .root)
        ((woken 1000 3000).take 4) s' ∧
      s.lock.holder = some 0 ∧ s'.lock.holder = none := by
  refine ⟨?_, ?_, woken_kept_or_left⟩
  · have told : ((openedOn {} none .root).after? (blind.under .exclusive) inSequence).map
        (fun s => (s.session.log.length, s.now, s.runs.map (·.stage.rank))) =
          some (10, 0, .replicate 2 7) := by decide +kernel
    have told' : ((openedOn {} none .root).after? (blind.under .unsynchronized) (atOnce 500)).map
        (fun s => (s.now, s.runs.map (·.stage.rank))) = some (500, .replicate 2 7) := by
      decide +kernel
    have told'' : ((openedOn {} none .root).after? (blind.under .unsynchronized)
        (atOnce 5000)).map (fun s => s.runs.map (·.stage.rank)) = some (.replicate 2 7) := by
      decide +kernel
    obtain ⟨s, reached, told⟩ := Option.map_eq_some_iff.mp told
    obtain ⟨s', reached', told'⟩ := Option.map_eq_some_iff.mp told'
    obtain ⟨s'', reached'', ranks''⟩ := Option.map_eq_some_iff.mp told''
    obtain ⟨ten, told⟩ := Prod.mk.inj told
    obtain ⟨now, ranks⟩ := Prod.mk.inj told
    obtain ⟨now', ranks'⟩ := Prod.mk.inj told'
    have untimed : ∀ request ∈ [Request.standard, portrait], request.timer = 0 := by
      decide +kernel
    have first := orderly_of_ranks reached (Or.inl untimed) ranks
    have second := orderly_of_ranks reached' (Or.inl untimed) ranks'
    have third := orderly_of_ranks reached'' (Or.inl untimed) ranks''
    have named := first.reach.named_early (by omega)
    have named' := second.reach.named_early (by omega)
    obtain ⟨times, -, named''⟩ := third.reach.exists_names
    obtain ⟨-, -, agree⟩ := policies_agree (q := .unsynchronized) first
    have coincides := (agree _ s' second rfl _ _ named named').1 rfl
    have accords := (agree _ s'' third rfl _ _ named named'').2 anyPhoto blind_alike rfl
      ⟨rfl, rfl⟩ fun i => blind_places _ _
    exact ⟨s, s', s'', first, second, third, ten, coincides, accords⟩
  · have told : ((openedOn {} none .root).after? (blind.under .exclusive) (woken 1000 3000)).map
        (fun s => (s.session.log.length, s.runs.map (·.stage.rank))) =
          some (10, .replicate 2 7) := by decide +kernel
    have told' : ((openedOn {} none .root).after? (blind.under .unsynchronized)
        (woken 1500 9000)).map (fun s => s.runs.map (·.stage.rank)) = some (.replicate 2 7) := by
      decide +kernel
    obtain ⟨s, reached, told⟩ := Option.map_eq_some_iff.mp told
    obtain ⟨s', reached', ranks'⟩ := Option.map_eq_some_iff.mp told'
    obtain ⟨ten, ranks⟩ := Prod.mk.inj told
    have first := orderly_of_ranks reached (apart_of_takes (by decide +kernel)) ranks
    have second := orderly_of_ranks reached' (apart_of_takes (by decide +kernel)) ranks'
    obtain ⟨times, -, named⟩ := first.reach.exists_names
    obtain ⟨times', -, named'⟩ := second.reach.exists_names
    obtain ⟨under, -, agree⟩ := policies_agree (q := .unsynchronized) first
    have accords := (agree _ s' second rfl _ _ named named').2 anyPhoto blind_alike rfl
      ⟨rfl, rfl⟩ fun i => blind_places _ _
    exact ⟨s, s', first, under, second, ten, accords⟩

end Studio

end PhotoCapture
