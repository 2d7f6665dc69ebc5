import PhotoCapture.Proofs.Studio.Fairness
import PhotoCapture.Proofs.Studio.Report
import PhotoCapture.Proofs.Studio.Rest

namespace PhotoCapture.Studio

open Session (Entry Lock)

variable {σ : Type}

def World.under (world : World σ) (policy : Session.Policy) : World σ :=
  { world with policy := policy }

/-- No timer lets requests overlap: none has a timer, or each is made when all before have ended. -/
def Apart (world : World σ) (start : Studio σ) (events : List Event) : Prop :=
  (∀ request ∈ events.filterMap Event.request?, request.timer = 0) ∨
    ∀ earlier request s, earlier ++ [.request request] <+: events →
      Reach world start earlier s → ∀ run ∈ s.runs, run.stage.ending? ≠ none

/-- A run with a timer goes on only while no other does. -/
def Alone (s : Studio σ) : Prop :=
  ∀ (i j : Nat) run run', s.runs[i]? = some run → s.runs[j]? = some run' →
    run.stage.ending? = none → run'.stage.ending? = none → run.request.timer ≠ 0 → i = j

variable {world : World σ} {start s s' t : Studio σ} {i j : Nat} {run run' : Run}
  {events : List Event} {event : Event} {camera : σ} {bound : Option Facing} {files : Files}
  {p q : Session.Policy}

theorem Apart.upTo {earlier : List Event} (apart : Apart world start events)
    (part : earlier <+: events) : Apart world start earlier := by
  rcases apart with untimed | single
  · exact Or.inl fun request made => untimed request ((part.sublist.filterMap _).subset made)
  · exact Or.inr fun sooner request s first => single sooner request s (first.trans part)

theorem reach_single (reach : Reach world (openedOn camera bound files) events s)
    (single : ∀ earlier request s, earlier ++ [.request request] <+: events →
      Reach world (openedOn camera bound files) earlier s →
      ∀ run ∈ s.runs, run.stage.ending? ≠ none) :
    ∀ (i j : Nat) run run', s.runs[i]? = some run → s.runs[j]? = some run' →
      run.stage.ending? = none → run'.stage.ending? = none → i = j := by
  induction reach with
  | start => simp [openedOn]
  | @next events event s s' reach next ih =>
    have ih := ih fun earlier request m part => single earlier request m
      (part.trans (List.prefix_append _ _))
    cases next_change next with
    | request request =>
      have ended := single events request s (List.prefix_refl _) reach
      intro i j run run' here there open' open''
      rcases requested_cases here with ⟨rfl, -⟩ | here
      · rcases requested_cases there with ⟨rfl, -⟩ | there
        · rfl
        · exact absurd open'' (ended run' (List.mem_of_getElem? there))
      · exact absurd open' (ended run (List.mem_of_getElem? here))
    | advance later => exact ih
    | @act k r entries r' _ at_k advances =>
      -- a run that goes on after its turn did so before, so a turn adds none
      have before : r'.stage.ending? = none → r.stage.ending? = none := by
        intro goes
        by_contra ended
        obtain ⟨ending, ended⟩ := Option.ne_none_iff_exists'.mp ended
        rw [advances.turn.ending_kept ended] at goes
        cases goes
      intro i j run run' here there open' open''
      rcases advances.run_cases at_k here with ⟨rfl, rfl⟩ | ⟨-, here⟩
      · rcases advances.run_cases at_k there with ⟨rfl, rfl⟩ | ⟨-, there⟩
        · rfl
        · exact ih i j r run' at_k there (before open') open''
      · rcases advances.run_cases at_k there with ⟨rfl, rfl⟩ | ⟨-, there⟩
        · exact ih i j run r here at_k open' (before open'')
        · exact ih i j run run' here there open' open''

theorem reach_alone (reach : Reach world (openedOn camera bound files) events s)
    (apart : Apart world (openedOn camera bound files) events) : s.Alone := by
  intro i j run run' here there open' open'' timer
  rcases apart with untimed | single
  · have made : run.request ∈ s.requests := List.mem_map_of_mem (List.mem_of_getElem? here)
    rw [reach.requests_eq] at made
    exact absurd (untimed _ (by simpa [openedOn, Studio.requests] using made)) timer
  · exact reach_single reach single i j run run' here there open' open''

/-- Who has the session while the timer of a run is running, if nobody else goes on. -/
def resting (policy : Session.Policy) (i : Nat) : Lock Nat :=
  match policy with
  | .exclusive => ⟨some i, []⟩
  | .unsynchronized => {}

/-- Two studios are the same, except that they may differ in who has the session while the timer
of a run is running. -/
inductive Mirrors (p q : Session.Policy) (s : Studio σ) : Studio σ → Prop
  | same (calm : ∀ run ∈ s.runs, run.stage.isCounting = false) : Mirrors p q s s
  | counting {i run due} (here : s.runs[i]? = some run) (stage : run.stage = .counting due)
      (lock : s.lock = resting p i) : Mirrors p q s { s with lock := resting q i }

theorem act?_under (calm : run.stage.isCounting = false)
    (untimed : run.stage = .zooming → run.request.timer = 0) :
    s.act? (world.under p) i run = s.act? (world.under q) i run := by
  cases stage : run.stage with
  | zooming =>
    simp only [Studio.act?, Studio.actHolding?, stage, Studio.zoom, Studio.startTimer,
      untimed stage, if_true]
    rfl
  | counting due => simp [stage, Stage.isCounting] at calm
  | ended | delivered => simp only [Studio.act?, Studio.actHolding?, stage]
  | binding | lighting | preparing | capturing =>
    simp only [Studio.act?, Studio.actHolding?, stage]
    rfl

theorem Queued.lock_alone (queued : s.Queued p) (alone : s.Alone) (here : s.runs[i]? = some run)
    (goes : run.stage.ending? = none) (timer : run.request.timer ≠ 0)
    (holds : s.lock.holder = some i) : s.lock = ⟨some i, []⟩ := by
  have nobody : s.lock.waiting = [] := by
    apply List.eq_nil_iff_forall_not_mem.mpr
    intro j waits
    have queue : s.lock.queue = i :: s.lock.waiting := by simp [Lock.queue, holds]
    have hj : j ∈ s.lock.queue := by simp [queue, waits]
    have there := List.getElem?_eq_getElem (queued.known j hj)
    have goes' := Stage.ending?_of_wants ((queued.wants j _ there).mp hj)
    obtain rfl := alone i j run _ here there goes goes' timer
    have nodup := queued.sound.nodup
    rw [queue, List.nodup_cons] at nodup
    exact nodup.1 waits
  rw [← holds, ← nobody]

theorem startTimer_under (lock : s.lock = ⟨some i, []⟩) (timer : run.request.timer ≠ 0) :
    s.startTimer (world.under p) i run =
      { s.enter i run .awaitingTimer
          (.counting (s.now + 1000 * world.sleep run.request.timer.toNat)) with
        lock := resting p i } := by
  unfold Studio.startTimer
  rw [if_neg timer]
  cases p with
  | exclusive =>
    simp only [World.under, resting, ← lock]
    rfl
  | unsynchronized =>
    simp only [World.under, resting, lock, Lock.release]
    rfl

theorem endTimer_under (lock : s.lock = resting p i) :
    s.endTimer (world.under p) i run =
      { s.setRun i { run with stage := .preparing } with lock := ⟨some i, []⟩ } := by
  unfold Studio.endTimer
  cases p with
  | exclusive =>
    simp only [World.under, resting] at lock ⊢
    rw [← lock]
    rfl
  | unsynchronized =>
    simp only [World.under, resting] at lock ⊢
    simp [lock, Lock.ask, Lock.knows, Studio.setRun]

theorem mirrors_of_startTimer (lock : s.lock = ⟨some i, []⟩) (hi : i < s.runs.length)
    (timer : run.request.timer ≠ 0) :
    Mirrors p q (s.startTimer (world.under p) i run) (s.startTimer (world.under q) i run) := by
  have here : (s.enter i run .awaitingTimer
      (.counting (s.now + 1000 * world.sleep run.request.timer.toNat))).runs[i]? =
      some { run with
        stage := .counting (s.now + 1000 * world.sleep run.request.timer.toNat)
        states := run.states ++ [.awaitingTimer] } := by
    simp [Studio.enter, Studio.setRun, hi]
  rw [startTimer_under lock timer, startTimer_under lock timer]
  exact .counting here rfl rfl

theorem calm_set (calm : ∀ run ∈ s.runs, run.stage.isCounting = false)
    (still : run'.stage.isCounting = false) :
    ∀ run ∈ s.runs.set i run', run.stage.isCounting = false := by
  intro run here
  rcases List.mem_or_eq_of_mem_set here with here | rfl
  · exact calm run here
  · exact still

theorem mirrors_of_zoom (calm : ∀ run ∈ s.runs, run.stage.isCounting = false)
    (lock : s.lock = ⟨some i, []⟩) (hi : i < s.runs.length) (timer : run.request.timer ≠ 0) :
    Mirrors p q (s.zoom (world.under p) i run) (s.zoom (world.under q) i run) := by
  have same : (world.under p).device = (world.under q).device := rfl
  unfold Studio.zoom
  rw [same]
  rcases s.session.setZoom (world.under q).device (s.stamp i) run.request.controls.linearZoom with
    ⟨reply, session⟩
  cases reply with
  | crashed message => exact .same (calm_set calm rfl)
  | done | refused => exact mirrors_of_startTimer (s := { s with session := session }) lock hi timer

theorem Turn.calm {entries : List Entry} {lock : Lock Nat} {completions : List Completion}
    (turn : Turn world s i run entries run' lock completions)
    (untimed : run.stage = .zooming → run.request.timer = 0) : run'.stage.isCounting = false := by
  cases turn with
  | timed _ stage _ _ timer => exact absurd (untimed stage) timer
  | _ => rfl

theorem deliver_of_resting (lock : s.lock = resting p i) (other : j ≠ i)
    (calm : run.stage.isCounting = false) (next : s.act? (world.under p) j run = some s') :
    ∃ ending, run.stage = .ended ending ∧ s' = s.deliver j run ending := by
  have idle : s.lock.holder ≠ some j := by
    cases p with
    | exclusive => simp [lock, resting, other.symm]
    | unsynchronized => simp [lock, resting]
  cases stage : run.stage with
  | counting due => simp [stage, Stage.isCounting] at calm
  | ended ending =>
    refine ⟨ending, rfl, ?_⟩
    simpa [Studio.act?, stage] using next.symm
  | _ => simp [Studio.act?, stage, idle] at next

theorem Mirrors.act_same (calm : ∀ run ∈ s.runs, run.stage.isCounting = false)
    (queued : s.Queued p) (alone : s.Alone) (here : s.runs[i]? = some run)
    (act : s.act? (world.under p) i run = some s') :
    ∃ t', s.act? (world.under q) i run = some t' ∧ Mirrors p q s' t' := by
  by_cases untimed : run.stage = .zooming → run.request.timer = 0
  · have still := calm run (List.mem_of_getElem? here)
    refine ⟨s', act?_under still untimed ▸ act, .same ?_⟩
    obtain ⟨entries, run', advances⟩ := act_advances act
    rw [advances.runs]
    exact calm_set calm (advances.turn.calm untimed)
  · obtain ⟨stage, timer⟩ : run.stage = .zooming ∧ run.request.timer ≠ 0 := by
      simpa using untimed
    obtain ⟨holds, rfl⟩ : s.lock.holder = some i ∧ s.zoom (world.under p) i run = s' := by
      simpa [Studio.act?, Studio.actHolding?, stage] using act
    have lock := queued.lock_alone alone here (by simp [stage, Stage.ending?]) timer holds
    refine ⟨s.zoom (world.under q) i run, by simp [Studio.act?, Studio.actHolding?, stage, holds],
      mirrors_of_zoom calm lock (List.getElem?_eq_some_iff.mp here).1 timer⟩

theorem Mirrors.act_resting {due : Nat} (alone : s.Alone) (here : s.runs[i]? = some run)
    (stage : run.stage = .counting due) (timer : run.request.timer ≠ 0)
    (lock : s.lock = resting p i) {r : Run} (there : s.runs[j]? = some r)
    (act : s.act? (world.under p) j r = some s') :
    ∃ t', { s with lock := resting q i }.act? (world.under q) j r = some t' ∧
      Mirrors p q s' t' := by
  have goes : run.stage.ending? = none := by simp [stage, Stage.ending?]
  have only : ∀ (k : Nat) r, s.runs[k]? = some r → r.stage.isCounting = true → i = k := by
    intro k r there counting
    refine alone i k run r here there goes ?_ timer
    cases hr : r.stage with
    | counting => rfl
    | _ => simp [hr, Stage.isCounting] at counting
  by_cases same : j = i
  · -- the timer has run, and both policies give the session to this run
    subst same
    obtain rfl := Option.some.inj (here.symm.trans there)
    obtain ⟨late, rfl⟩ : due ≤ s.now ∧ s.endTimer (world.under p) j run = s' := by
      simpa [Studio.act?, stage] using act
    refine ⟨{ s with lock := resting q j }.endTimer (world.under q) j run,
      by simp [Studio.act?, stage, late], ?_⟩
    rw [endTimer_under lock, endTimer_under rfl]
    have still : ∀ r ∈ (s.setRun j { run with stage := .preparing }).runs,
        r.stage.isCounting = false := by
      intro r hr
      obtain ⟨k, hk⟩ := List.getElem?_of_mem hr
      by_contra counting
      have counting : r.stage.isCounting = true := by simpa using counting
      by_cases same : j = k
      · subst same
        have hj := (List.getElem?_eq_some_iff.mp here).1
        obtain rfl : { run with stage := .preparing } = r := by
          simpa [Studio.setRun, hj] using hk
        simp [Stage.isCounting] at counting
      · have hk : s.runs[k]? = some r := by
          simpa [Studio.setRun, List.getElem?_set_ne same] using hk
        exact same (only k r hk counting)
    exact .same still
  · -- any other run has ended, so nobody asks for the session
    have calm : r.stage.isCounting = false := by
      by_contra counting
      exact same (only j r there (by simpa using counting)).symm
    obtain ⟨ending, ended, rfl⟩ := deliver_of_resting lock same calm act
    have still : (s.deliver j r ending).runs[i]? = some run := by
      simpa [Studio.deliver, Studio.setRun, List.getElem?_set_ne same] using here
    have act' : { s with lock := resting q i }.act? (world.under q) j r =
        some ({ s with lock := resting q i }.deliver j r ending) := by simp [Studio.act?, ended]
    exact ⟨_, act', .counting still stage lock⟩

/-- Whatever happens in a studio also happens in one that mirrors it. -/
theorem Mirrors.next (mirrors : Mirrors p q s t) (queued : s.Queued p) (alone : s.Alone)
    (recorded : ∀ (i : Nat) run, s.runs[i]? = some run → run.Recorded) (alone' : s'.Alone)
    (next : s.next? (world.under p) event = some s') :
    ∃ t', t.next? (world.under q) event = some t' ∧ Mirrors p q s' t' := by
  cases mirrors with
  | same calm =>
    cases event with
    | request request =>
      obtain rfl : s.requested request = s' := Option.some.inj next
      refine ⟨_, rfl, .same ?_⟩
      intro run hr
      rcases List.mem_append.mp hr with hr | hr
      · exact calm run hr
      · rw [List.mem_singleton.mp hr]
        rfl
    | advance time =>
      obtain ⟨later, rfl⟩ : s.now < time ∧ { s with now := time } = s' := by
        simpa [Studio.next?] using next
      exact ⟨_, by simp [Studio.next?, later], .same calm⟩
    | act i =>
      obtain ⟨run, here, act⟩ := Option.bind_eq_some_iff.mp next
      obtain ⟨t', act', mirrors⟩ := Mirrors.act_same calm queued alone here act
      exact ⟨t', by simpa [Studio.next?, here] using act', mirrors⟩
  | @counting i run due here stage lock =>
    have timer : run.request.timer ≠ 0 := by
      have recorded := recorded i run here
      simp only [Run.Recorded, stage] at recorded
      exact recorded.1
    cases event with
    | request request =>
      obtain rfl : s.requested request = s' := Option.some.inj next
      -- the new run would go on beside the one with the timer
      have first := requested_of_getElem? here request
      have last : (s.requested request).runs[s.runs.length]? = some { request := request } := by
        simp [Studio.requested]
      have goes : run.stage.ending? = none := by simp [stage, Stage.ending?]
      have same := alone' i s.runs.length run _ first last goes rfl timer
      have hi := (List.getElem?_eq_some_iff.mp here).1
      omega
    | advance time =>
      obtain ⟨later, rfl⟩ : s.now < time ∧ { s with now := time } = s' := by
        simpa [Studio.next?] using next
      exact ⟨_, by simp [Studio.next?, later], .counting here stage lock⟩
    | act j =>
      obtain ⟨r, there, act⟩ := Option.bind_eq_some_iff.mp next
      obtain ⟨t', act', mirrors⟩ := Mirrors.act_resting alone here stage timer lock there act
      exact ⟨t', by simpa [Studio.next?, there] using act', mirrors⟩

theorem Reach.mirrored (reach : Reach (world.under p) (openedOn camera bound files) events s)
    (apart : Apart (world.under p) (openedOn camera bound files) events) :
    ∃ t, Reach (world.under q) (openedOn camera bound files) events t ∧ Mirrors p q s t := by
  induction reach with
  | start => exact ⟨_, .start, .same (by simp [openedOn])⟩
  | next reach next ih =>
    have apart' := apart.upTo (List.prefix_append _ _)
    obtain ⟨t, reach', mirrors⟩ := ih apart'
    have alone := reach_alone reach apart'
    have alone' := reach_alone (reach.next next) apart
    obtain ⟨t', next', mirrors'⟩ :=
      mirrors.next (reach_queued reach) alone (reach_recorded reach) alone' next
    exact ⟨t', reach'.next next', mirrors'⟩

theorem Mirrors.runs (mirrors : Mirrors p q s t) : t.runs = s.runs := by cases mirrors <;> rfl

theorem Mirrors.now (mirrors : Mirrors p q s t) : t.now = s.now := by cases mirrors <;> rfl

/-- Where no timer lets requests overlap, the same events lead to the same end under both ways of
sharing the camera. -/
theorem Reach.under (reach : Reach (world.under p) (openedOn camera bound files) events s)
    (apart : Apart (world.under p) (openedOn camera bound files) events)
    (rest : s.AtRest (world.under p)) :
    Reach (world.under q) (openedOn camera bound files) events s ∧ s.AtRest (world.under q) := by
  have delivered := rest.delivered (reach_queued reach)
  obtain ⟨t, reach', mirrors⟩ := reach.mirrored (q := q) apart
  cases mirrors with
  | same => exact ⟨reach', atRest_of_delivered delivered⟩
  | counting here stage =>
    obtain ⟨ending, gone⟩ := delivered _ (List.mem_of_getElem? here)
    rw [stage] at gone
    cases gone

theorem Reach.same_runs {earlier : List Event}
    (reach : Reach (world.under p) (openedOn camera bound files) events s)
    (apart : Apart (world.under p) (openedOn camera bound files) events)
    (part : earlier <+: events)
    (reach' : Reach (world.under q) (openedOn camera bound files) earlier t) :
    ∃ m, Reach (world.under p) (openedOn camera bound files) earlier m ∧ t.runs = m.runs ∧
      t.now = m.now := by
  obtain ⟨later, rfl⟩ := part
  obtain ⟨m, before, -⟩ := reach.split
  obtain ⟨t', reach'', mirrors⟩ := before.mirrored (q := q) (apart.upTo (List.prefix_append _ _))
  obtain rfl := reach''.unique reach'
  exact ⟨m, before, mirrors.runs, mirrors.now⟩

/-- A course of events that has come to its end, in which no timer lets requests overlap. -/
structure Orderly (world : World σ) (start : Studio σ) (events : List Event) (s : Studio σ) :
    Prop where
  reach : Reach world start events s
  apart : Apart world start events
  rest : s.AtRest world

theorem Orderly.delivered (orderly : Orderly world (openedOn camera bound files) events s) :
    ∀ run ∈ s.runs, ∃ ending, run.stage = .delivered ending :=
  orderly.rest.delivered (reach_queued orderly.reach)

theorem Orderly.recorded (orderly : Orderly world (openedOn camera bound files) events s) :
    ∀ run ∈ s.runs, run.Recorded := by
  intro run hr
  obtain ⟨i, here⟩ := List.getElem?_of_mem hr
  exact reach_recorded orderly.reach i run here

theorem Orderly.under (orderly : Orderly (world.under p) (openedOn camera bound files) events s) :
    Orderly (world.under q) (openedOn camera bound files) events s := by
  obtain ⟨reach', rest'⟩ := orderly.reach.under (q := q) orderly.apart orderly.rest
  refine ⟨reach', ?_, rest'⟩
  rcases orderly.apart with untimed | single
  · exact Or.inl untimed
  · refine Or.inr fun earlier request t part before => ?_
    obtain ⟨m, before', runs, -⟩ := orderly.reach.same_runs orderly.apart
      ((List.prefix_append _ _).trans part) before
    rw [runs]
    exact single earlier request m part before'

end PhotoCapture.Studio
