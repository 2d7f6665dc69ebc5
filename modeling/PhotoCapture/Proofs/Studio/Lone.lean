import PhotoCapture.Proofs.Studio.Accord
import PhotoCapture.Proofs.Studio.Outcomes

namespace PhotoCapture

open Session (Entry)

/-- Cameras that are related, with the same files, until they take a photo. -/
def Camera.Likeness.untilPhoto {σ τ : Type} (R : σ → τ → Prop) : Camera.Likeness σ τ where
  working := fun c f c' f' => R c c' ∧ f = f'
  done := fun _ _ _ _ => True
  paths := Eq

namespace Studio

variable {σ : Type} {world : World σ} {name : String} {request : Request} {bound : Option Facing}
  {files : Files}

/-- The course of a request that has the camera to itself. -/
structure Lone (world : World σ) (camera : σ) (bound : Option Facing) (files : Files)
    (request : Request) (events : List Event) (s : Studio σ) : Prop where
  reach : Reach world (openedOn camera bound files) events s
  rest : s.AtRest world
  only : events.filterMap Event.request? = [request]

variable {s : Studio σ} {events earlier : List Event} {camera : σ} {names : Nat → String}

theorem Lone.length_eq (lone : Lone world camera bound files request events s)
    (part : earlier <+: events) {middle : Studio σ}
    (reach : Reach world (openedOn camera bound files) earlier middle) :
    middle.runs.length = (earlier.filterMap Event.request?).length ∧
      (earlier.filterMap Event.request?).length ≤ 1 := by
  have made := congrArg List.length reach.requests_eq
  have first := (part.filterMap Event.request?).length_le
  rw [lone.only] at first
  exact ⟨by simpa [Studio.requests, openedOn] using made, first⟩

theorem Lone.apart (lone : Lone world camera bound files request events s) :
    Apart world (openedOn camera bound files) events := by
  refine Or.inr fun earlier next middle part reach run hr => ?_
  have whole := (part.filterMap Event.request?).length_le
  rw [lone.only, List.filterMap_append] at whole
  obtain ⟨length, -⟩ := lone.length_eq ((List.prefix_append _ _).trans part) reach
  have some := List.length_pos_of_mem hr
  simp only [List.filterMap_cons, Event.request?, List.filterMap_nil, List.length_append,
    List.length_singleton] at whole
  omega

theorem Lone.named (lone : Lone world camera bound files request events s)
    (named : Named world (openedOn camera bound files) events names) :
    Named world (openedOn camera bound files) events fun _ => names 0 := by
  intro earlier i middle run part reach here stage
  obtain ⟨length, one⟩ := lone.length_eq ((List.prefix_append _ _).trans part) reach
  obtain ⟨hi, -⟩ := List.getElem?_eq_some_iff.mp here
  obtain rfl : i = 0 := by omega
  exact named earlier 0 middle run part reach here stage

theorem Lone.foreseen (lone : Lone world camera bound files request events s)
    (named : Named world (openedOn camera bound files) events fun _ => name) :
    let prospect := Prospect.ofBinding world 0 name { request := request }
      { camera := camera, bound := bound } files
    prospect.session = s.session.untimed ∧ prospect.files = s.files ∧
      ∃ run, s.runs = [run] ∧ run.stage = .delivered prospect.ending := by
  have orderly : Orderly (world.under world.policy) (openedOn camera bound files) events s :=
    ⟨lone.reach, lone.apart, lone.rest⟩
  have decided := orderly.decided named
  rw [lone.only] at decided
  obtain ⟨session, left, endings⟩ := Forecast.mk.inj decided
  refine ⟨session, left, ?_⟩
  have made : s.runs.map (·.request) = [request] :=
    lone.reach.requests_eq.trans (by rw [lone.only]; rfl)
  obtain ⟨run, runs, -⟩ := List.map_eq_singleton_iff.mp made
  obtain ⟨ending, stage⟩ := lone.rest.delivered (reach_queued lone.reach) run (by simp [runs])
  refine ⟨run, runs, ?_⟩
  rw [runs] at endings
  simp only [List.filterMap_cons, List.filterMap_nil, stage, Stage.ending?] at endings
  exact stage.trans (congrArg Stage.delivered (List.cons.inj endings).1.symm)

theorem Lone.came (lone : Lone world camera bound files request events s)
    (sound : ∀ e ∈ s.session.log, e.isCapture = false → ∀ m, e.reply ≠ .crashed m)
    (named : Named world (openedOn camera bound files) events fun _ => name) :
    ∃ run report, s.runs = [run] ∧ run.stage = .delivered (.reported report) ∧
      Came request bound files (Photo.prepare files world.directory name).1 s.session.log s.files
        report.outcome := by
  obtain ⟨session, left, run, runs, stage⟩ := lone.foreseen named
  have still : ∀ e ∈ s.session.untimed.log, e.isCapture = false → ∀ m, e.reply ≠ .crashed m := by
    intro e he setting
    obtain ⟨e', he', rfl⟩ := List.mem_map.mp he
    exact sound e' he' setting
  rw [← session] at still
  obtain ⟨report, ending, came⟩ := ofBinding_comes rfl rfl still
  rw [session, left] at came
  exact ⟨run, report, runs, stage.trans (congrArg Stage.delivered ending), came.of_untimed⟩

theorem command_eq_of_like {e e' : Entry} (like : e.Like Eq e') : e.command = e'.command := by
  have command := like.command
  generalize e.command = c, e'.command = c' at command
  cases command with
  | control k => rfl
  | capture same => rw [same]

theorem commands_eq_of_like {log log' : List Entry} (like : List.Forall₂ (Entry.Like Eq) log log') :
    log.map (·.command) = log'.map (·.command) := by
  have same := like.imp fun _ _ => command_eq_of_like
  rw [← List.forall₂_map_right_iff, ← List.forall₂_map_left_iff, List.forall₂_eq_eq_eq] at same
  exact same

theorem outcome_eq_of_like {outcome outcome' : Outcome} (like : outcome.Like Eq outcome') :
    outcome = outcome' := by
  cases like with
  | saved same => rw [same]
  | failed reason => rfl

/-- Cameras that differ in what they answer to torch and zoom, and what is said of the filter, make
no difference to what a request comes to. -/
theorem Lone.alike {τ : Type} {world' : World τ} {camera' : τ} {events' : List Event}
    {s' : Studio τ} {text : String} {R : σ → τ → Prop} {run : Run} {report : Report}
    (lone : Lone world camera bound files request events s)
    (lone' : Lone world' camera' bound files { request with filter := text } events' s')
    (named : Named world (openedOn camera bound files) events fun _ => name)
    (named' : Named world' (openedOn camera' bound files) events' fun _ => name)
    (directory : world'.directory = world.directory) (related : R camera camera')
    (alike : Camera.Alike (.untilPhoto R) world.device world'.device)
    (runs : s.runs = [run]) (stage : run.stage = .delivered (.reported report)) :
    ∃ run' report', s'.runs = [run'] ∧ run'.stage = .delivered (.reported report') ∧
      s'.session.log.map (·.command) = s.session.log.map (·.command) ∧
      report'.outcome = report.outcome ∧ report'.states = report.states := by
  obtain ⟨session, -, run₀, runs₀, stage₀⟩ := lone.foreseen named
  obtain ⟨session', -, run', runs', stage'⟩ := lone'.foreseen named'
  obtain rfl : run₀ = run := List.singleton_inj.mp (runs₀.symm.trans runs)
  have places : AlikePlaces (.untilPhoto R) world.directory world'.directory name name := by
    rw [directory]
    exact alikePlaces_of_files (fun same => same.2) (fun same => ⟨same.1, rfl⟩) fun _ => rfl
  have opens : ({ camera := camera, bound := bound } : Session σ).Like Eq
      (Camera.Likeness.untilPhoto R).working files { camera := camera', bound := bound } files :=
    ⟨rfl, ⟨related, rfl⟩, .nil⟩
  have same : ({ request := request } : Run).Like { request := { request with filter := text } } :=
    ⟨rfl, rfl, rfl⟩
  have like := ofBinding_like (i := 0) alike places same opens
  have commands := commands_eq_of_like like.session.log
  have ending := like.ending
  rw [session, session', Session.untimed, Session.untimed, List.map_map, List.map_map] at commands
  rw [stage₀] at stage
  rw [Stage.delivered.inj stage] at ending
  generalize Prospect.ending _ = told at ending stage'
  cases ending with
  | @reported _ report' like =>
    exact ⟨run', report', runs', stage', commands.symm, (outcome_eq_of_like like.outcome).symm,
      like.states.symm⟩

/-- The outcome of a request that has the camera to itself is told by what the camera answers to
its binding and to its capture, and by the place for the photo. So what is said of the filter, and
what the camera answers to torch and zoom, have no part in it: when the photos get the same name, a
request that differs in nothing else gives the same commands and comes out the same. -/
theorem lone_outcome_is_classified (lone : Lone world camera bound files request events s)
    (sound : ∀ e ∈ s.session.log, e.isCapture = false → ∀ m, e.reply ≠ .crashed m) :
    ∃ run report, s.runs = [run] ∧ run.stage = .delivered (.reported report) ∧
      (∃ time ≤ s.now,
        Named world (openedOn camera bound files) events fun _ => world.nameAt time) ∧
      ∀ name, (Named world (openedOn camera bound files) events fun _ => name) →
        Classified request bound files (Photo.prepare files world.directory name).1
          s.session.log s.files report.outcome ∧
        ∀ {τ : Type} (world' : World τ) camera' text events' s',
          Lone world' camera' bound files { request with filter := text } events' s' →
          (Named world' (openedOn camera' bound files) events' fun _ => name) →
          world'.directory = world.directory →
          (∃ R : σ → τ → Prop, R camera camera' ∧
            Camera.Alike (.untilPhoto R) world.device world'.device) →
          ∃ run' report', s'.runs = [run'] ∧ run'.stage = .delivered (.reported report') ∧
            s'.session.log.map (·.command) = s.session.log.map (·.command) ∧
            report'.outcome = report.outcome ∧ report'.states = report.states := by
  obtain ⟨times, past, named⟩ := lone.reach.exists_names
  obtain ⟨run, report, runs, stage, -⟩ := lone.came sound (lone.named named)
  refine ⟨run, report, runs, stage, ⟨times 0, past 0, lone.named named⟩, ?_⟩
  intro name named
  refine ⟨?_, ?_⟩
  · obtain ⟨run₀, report₀, runs₀, stage₀, came⟩ := lone.came sound named
    obtain rfl := List.singleton_inj.mp (runs.symm.trans runs₀)
    obtain rfl : report = report₀ :=
      Ending.reported.inj (Stage.delivered.inj (stage.symm.trans stage₀))
    exact came.classified
  · rintro τ world' camera' text events' s' lone' named' directory ⟨R, related, alike⟩
    exact lone.alike lone' named named' directory related alike runs stage

/-- A studio whose camera crashes at photos, and has other faults. -/
def losing (faults : List Camera.Fault) : World (Camera.Faulty Camera.State) where
  device := Camera.Faulty.device (⟨.capture, none, .crashed "lost"⟩ :: faults) Camera.Stub.device
  policy := .unsynchronized
  directory := "/photos"
  opening := ⟨0, false⟩
  offset := .zero

def stuck : Camera.Fault := ⟨.torch, none, .refused (.controlFailed "stuck")⟩

def sepia : Request := { Request.standard with filter := "sepia" }

def alone (request : Request) : List Event :=
  [.request request, .act 0, .act 0, .act 0, .act 0, .act 0, .act 0]

theorem losing_alike :
    Camera.Alike (.untilPhoto fun _ _ => True) (losing [stuck]).device (losing []).device := by
  constructor
  · rintro c f c' f' k rebinds ⟨-, rfl⟩
    cases k with
    | unbindAll => exact ⟨rfl, trivial, rfl⟩
    | bind facing => exact ⟨rfl, trivial, rfl⟩
    | torch on => cases rebinds
    | linearZoom x => cases rebinds
  · rintro c f c' f' k setting ⟨-, rfl⟩
    cases k with
    | unbindAll => cases setting
    | bind facing => cases setting
    | torch on => exact ⟨fun m => ⟨nofun, nofun⟩, trivial, rfl⟩
    | linearZoom x => exact ⟨fun m => ⟨nofun, nofun⟩, trivial, rfl⟩
  · rintro c f c' f' path _ rfl -
    exact ⟨rfl, trivial⟩
  · rintro c f c' f' -
    trivial

theorem lone_of_ranks (reached : (openedOn camera bound files).after? world events = some s)
    (only : events.filterMap Event.request? = [request])
    (ranks : s.runs.map (·.stage.rank) = [7]) :
    Lone world camera bound files request events s :=
  ⟨reach_iff_after?.mpr reached, atRest_of_ranks (n := 1) ranks, only⟩

theorem stuck_torch_makes_no_difference :
    ∃ s s', Lone (losing [stuck]) ⟨{}, []⟩ none .root .standard (alone .standard) s ∧
      Lone (losing []) ⟨{}, []⟩ none .root sepia (alone sepia) s' ∧
      ∃ run' report', s'.runs = [run'] ∧ run'.stage = .delivered (.reported report') ∧
        s'.session.log.map (·.command) = s.session.log.map (·.command) ∧
        report'.outcome = .failed (.worker (Session.brokenOff 0 "lost")) := by
  have told : ((openedOn ⟨{}, []⟩ none .root).after? (losing [stuck]) (alone .standard)).map
      (fun s => (s.now, s.session.log.map fun e => (e.isCapture, e.reply),
        s.runs.map (·.stage.rank), s.runs.map fun run => run.stage.ending?.map (·.outcome 0))) =
      some (0, [(false, .done), (false, .done), (false, stuck.reply), (false, .done),
        (true, .crashed "lost")], [7],
        [some (.failed (.worker (Session.brokenOff 0 "lost")))]) := by decide +kernel
  have told' : ((openedOn ⟨{}, []⟩ none .root).after? (losing []) (alone sepia)).map
      (fun s => (s.now, s.runs.map (·.stage.rank))) = some (0, [7]) := by decide +kernel
  obtain ⟨s, reached, told⟩ := Option.map_eq_some_iff.mp told
  obtain ⟨s', reached', told'⟩ := Option.map_eq_some_iff.mp told'
  obtain ⟨now, told⟩ := Prod.mk.inj told
  obtain ⟨answers, told⟩ := Prod.mk.inj told
  obtain ⟨ranks, outcomes⟩ := Prod.mk.inj told
  obtain ⟨now', ranks'⟩ := Prod.mk.inj told'
  have lone := lone_of_ranks reached rfl ranks
  have lone' := lone_of_ranks reached' rfl ranks'
  have sound : ∀ e ∈ s.session.log, e.isCapture = false → ∀ m, e.reply ≠ .crashed m := by
    intro e he setting m crash
    have answer := List.mem_map_of_mem (f := fun e => (e.isCapture, e.reply)) he
    rw [answers, setting, crash] at answer
    simp [stuck] at answer
  obtain ⟨run, report, runs, stage, -, by_name⟩ := lone_outcome_is_classified lone sound
  obtain ⟨-, twin⟩ := by_name _ (lone.reach.named_early (by omega))
  have named' := lone'.reach.named_early (by omega)
  obtain ⟨run', report', runs', stage', commands, outcome, -⟩ :=
    twin (losing []) ⟨{}, []⟩ "sepia" _ s' lone' named' rfl ⟨_, trivial, losing_alike⟩
  rw [runs, List.map_singleton, stage] at outcomes
  have lost := Option.some.inj (List.singleton_inj.mp outcomes)
  exact ⟨s, s', lone, lone', run', report', runs', stage', commands, outcome.trans lost⟩

end Studio

end PhotoCapture
