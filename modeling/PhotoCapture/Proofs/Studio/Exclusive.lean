import PhotoCapture.Camera.Stub
import PhotoCapture.Proofs.Studio.Block
import PhotoCapture.Proofs.Studio.Holding

namespace PhotoCapture.Studio

open Session (Entry Lock boundAfter)

def block (log : List Entry) (i : Nat) : List Entry := log.filter fun e => e.client = i

/-- What the runs before a run left bound. -/
def boundBefore (bound : Option Facing) (log : List Entry) (i : Nat) : Option Facing :=
  boundAfter bound (log.filter fun e => e.client < i)

theorem filter_append_block {log : List Entry} (sorted : log.Pairwise (·.client ≤ ·.client))
    (i : Nat) : (log.filter fun e => e.client < i) ++ block log i =
      log.filter fun e => e.client < i + 1 := by
  induction log with
  | nil => rfl
  | cons e log ih =>
    obtain ⟨first, sorted⟩ := List.pairwise_cons.mp sorted
    have ih := ih sorted
    rcases Nat.lt_trichotomy e.client i with h | h | h
    · have next : e.client < i + 1 := by omega
      rw [List.filter_cons_of_pos (by simpa using h),
        List.filter_cons_of_pos (by simpa using next), block,
        List.filter_cons_of_neg (by simpa using Nat.ne_of_lt h), List.cons_append]
      exact congrArg (e :: ·) ih
    · have none : (log.filter fun e => e.client < i) = [] := by
        apply List.filter_eq_nil_iff.mpr
        intro x hx
        have := first x hx
        simpa using (by omega : ¬ x.client < i)
      rw [none, List.nil_append] at ih
      have same : ¬ e.client < i := by omega
      have next : e.client < i + 1 := by omega
      rw [List.filter_cons_of_neg (by simpa using same), none, List.nil_append, block,
        List.filter_cons_of_pos (by simpa using h),
        List.filter_cons_of_pos (by simpa using next)]
      exact congrArg (e :: ·) ih
    · have same : ¬ e.client < i := by omega
      have next : ¬ e.client < i + 1 := by omega
      rw [List.filter_cons_of_neg (by simpa using same), block,
        List.filter_cons_of_neg (by simpa using Nat.ne_of_gt h),
        List.filter_cons_of_neg (by simpa using next)]
      exact ih

/-- A log in which no run comes after a later one consists of the blocks of the runs. -/
theorem flatten_blocks {log : List Entry} (sorted : log.Pairwise (·.client ≤ ·.client))
    (n : Nat) : ((List.range n).map (block log)).flatten = log.filter fun e => e.client < n := by
  induction n with
  | zero => simp
  | succ n ih =>
    rw [List.range_succ, List.map_append, List.flatten_append, ih, ← filter_append_block sorted]
    simp

theorem block_append {log more : List Entry} {k : Nat} (same : ∀ e ∈ more, e.client = k) (j : Nat) :
    block (log ++ more) j = block log j ++ if j = k then more else [] := by
  rw [block, block, List.filter_append]
  congr 1
  split
  next h =>
    apply List.filter_eq_self.mpr
    intro e he
    simp [same e he, h]
  next h =>
    apply List.filter_eq_nil_iff.mpr
    intro e he
    simp [same e he, Ne.symm h]

theorem boundBefore_append {bound : Option Facing} {log more : List Entry} {j k : Nat}
    (same : ∀ e ∈ more, e.client = k) (le : j ≤ k) :
    boundBefore bound (log ++ more) j = boundBefore bound log j := by
  have none : (more.filter fun e => e.client < j) = [] := by
    apply List.filter_eq_nil_iff.mpr
    intro e he
    simp [same e he, le]
  rw [boundBefore, boundBefore, List.filter_append, none, List.append_nil]

variable {σ : Type} {world : World σ} {start s s' : Studio σ} {i k : Nat} {run run' : Run}
  {entries : List Entry} {lock : Lock Nat} {completions : List Completion} {events : List Event}
  {bound : Option Facing} {camera : σ} {files : Files}

/-- A run could not prepare the place for its photo when it had come to that. -/
def LacksPlace (world : World σ) (start : Studio σ) (events : List Event) (i : Nat) : Prop :=
  ∃ earlier s run problem, earlier ++ [.act i] <+: events ∧ Reach world start earlier s ∧
    s.lock.holder = some i ∧ s.runs[i]? = some run ∧ run.stage = .preparing ∧
    (Photo.prepare s.files world.directory (s.photoName world)).1 = .error problem

theorem LacksPlace.mono {event : Event} (lacks : LacksPlace world start events i) :
    LacksPlace world start (events ++ [event]) i := by
  obtain ⟨earlier, s, run, problem, before, place⟩ := lacks
  exact ⟨earlier, s, run, problem, before.trans (List.prefix_append _ _), place⟩

/-- The runs with a smaller number have given the session up, the run with that number has it, and
those behind wait for it and have done nothing. -/
structure Served (world : World σ) (start : Studio σ) (bound : Option Facing)
    (events : List Event) (s : Studio σ) (k : Nat) : Prop where
  le : k ≤ s.runs.length
  queue : s.lock.queue = List.range' k (s.runs.length - k)
  fresh : ∀ (i : Nat) run, k < i → s.runs[i]? = some run → run.stage = .binding
  sorted : s.session.log.Pairwise (·.client ≤ ·.client)
  clients : ∀ e ∈ s.session.log, e.client ≤ k ∧ e.client < s.runs.length
  remembers : s.session.bound = boundAfter bound s.session.log
  filed : ∀ (i : Nat) run, s.runs[i]? = some run →
    Filed world (LacksPlace world start events i) s.now (boundBefore bound s.session.log i) run
      (block s.session.log i)

/-- Only the run that has the session goes on; the others can but deliver their endings. -/
theorem Served.actor (exclusive : world.policy = .exclusive) (queued : s.Queued world.policy)
    (served : Served world start bound events s k) (here : s.runs[i]? = some run)
    (turn : Turn world s i run entries run' lock completions) :
    i = k ∨ ∃ ending, run.stage = .ended ending ∧ entries = [] ∧ lock = s.lock ∧
      run' = { run with stage := .delivered ending } := by
  rcases turn.holds_cases with holds | ⟨due, stage⟩ | ended
  · have first := queued.sound.holder_eq_head?.symm.trans holds
    rw [served.queue, List.head?_range'] at first
    split at first
    next => simp at first
    next => exact Or.inl (Option.some.inj first).symm
  · have wants : i ∈ s.lock.queue := by
      rw [queued.wants i run here, stage, exclusive]
      rfl
    rw [served.queue, List.mem_range'_1] at wants
    rcases Nat.lt_or_ge k i with h | h
    · rw [served.fresh i run h here] at stage
      cases stage
    · exact Or.inl (by omega)
  · exact Or.inr ended

theorem Served.requested (served : Served world start bound events s k)
    (queued : s.Queued world.policy) (request : Request) :
    Served world start bound (events ++ [.request request]) (s.requested request) k := by
  have le := served.le
  have fresh : s.runs.length ∉ s.lock.queue := fun h => by simpa using queued.known _ h
  have length : (s.requested request).runs.length = s.runs.length + 1 := by
    simp [Studio.requested]
  refine ⟨by omega, ?_, ?_, served.sorted, ?_, served.remembers, ?_⟩
  · rw [length, Nat.sub_add_comm le, List.range'_1_concat, ← served.queue,
      Nat.add_sub_cancel' le]
    exact Lock.ask_queue queued.sound fresh
  · intro i run hi here
    rcases requested_cases here with ⟨-, rfl⟩ | here
    · rfl
    · exact served.fresh i run hi here
  · intro e he
    have := served.clients e he
    omega
  · intro i run here
    rcases requested_cases here with ⟨rfl, rfl⟩ | here
    · apply List.filter_eq_nil_iff.mpr
      intro e he
      have := served.clients e he
      simpa using (by omega : ¬ e.client = s.runs.length)
    · exact (served.filed i run here).mono (Nat.le_refl _) LacksPlace.mono

/-- What the session has bound is what the block of the run that has the session left bound. -/
theorem Served.bound_eq (served : Served world start bound events s k) :
    s.session.bound = boundAfter (boundBefore bound s.session.log k) (block s.session.log k) := by
  have all : (s.session.log.filter fun e => e.client < k + 1) = s.session.log := by
    apply List.filter_eq_self.mpr
    intro e he
    have := served.clients e he
    simp
    omega
  rw [boundBefore, ← Session.boundAfter_append, filter_append_block served.sorted, all,
    served.remembers]

theorem Served.acts (exclusive : world.policy = .exclusive)
    (served : Served world start bound events s k) (reach : Reach world start events s)
    (here : s.runs[k]? = some run) (advances : Advances world s s' k run entries run') :
    ∃ k', Served world start bound (events ++ [.act k]) s' k' := by
  -- the new entries are all of run `k`, so they go to its block, which is the last so far
  have hk := (List.getElem?_eq_some_iff.mp here).1
  have length := advances.length
  have log := advances.session.log
  have clients : ∀ e ∈ entries, e.client = k := fun e he => (advances.session.stamped e he).2
  have times : ∀ e ∈ entries, e.time = s.now := fun e he => (advances.session.stamped e he).1
  obtain ⟨k', le, upper, queue⟩ : ∃ k', k ≤ k' ∧ k' ≤ s.runs.length ∧
      s'.lock.queue = List.range' k' (s.runs.length - k') := by
    rcases advances.turn.lock_cases with ⟨lock, -⟩ | ⟨lock, holds, -⟩ | ⟨shared, -⟩
    · exact ⟨k, Nat.le_refl k, served.le, lock ▸ served.queue⟩
    · refine ⟨k + 1, by omega, by omega, ?_⟩
      rw [lock, Lock.release_queue holds, served.queue, List.tail_range', Nat.sub_sub]
    · rw [exclusive] at shared
      cases shared
  refine ⟨k', length ▸ upper, length ▸ queue, ?_, ?_, ?_, ?_, ?_⟩
  · intro j r hj there
    rcases advances.run_cases here there with ⟨rfl, -⟩ | ⟨-, there⟩
    · omega
    · exact served.fresh j r (by omega) there
  · rw [log, List.pairwise_append]
    refine ⟨served.sorted, ?_, ?_⟩
    · apply List.pairwise_of_forall_mem_list
      intro x hx y hy
      exact Nat.le_of_eq ((clients x hx).trans (clients y hy).symm)
    · intro x hx y hy
      rw [clients y hy]
      exact (served.clients x hx).1
  · intro e he
    rw [log] at he
    rcases List.mem_append.mp he with he | he
    · have := served.clients e he
      omega
    · have := clients e he
      omega
  · rw [log, Session.boundAfter_append, ← served.remembers]
    exact advances.session.bound
  · intro j r there
    rw [log, block_append clients, advances.now]
    rcases advances.run_cases here there with ⟨rfl, rfl⟩ | ⟨other, there⟩
    · rw [if_pos rfl, boundBefore_append clients (Nat.le_refl j)]
      refine Filed.turn advances.turn ?_ served.bound_eq times ?_
      · exact (served.filed j run here).mono (Nat.le_refl _) LacksPlace.mono
      · intro problem files holds stage place
        exact ⟨events, s, run, problem, List.prefix_refl _, reach, holds, here, stage,
          by rw [place]⟩
    · rw [if_neg other, List.append_nil]
      have filed : Filed world (LacksPlace world start (events ++ [.act k]) j) s.now _ r _ :=
        (served.filed j r there).mono (Nat.le_refl _) LacksPlace.mono
      rcases Nat.lt_or_ge k j with h | h
      · simpa [Filed, served.fresh j r h there] using filed
      · rwa [boundBefore_append clients h]

theorem Served.delivers {ending : Ending} (served : Served world start bound events s k)
    (here : s.runs[i]? = some run) (stage : run.stage = .ended ending)
    (advances : Advances world s s' i run [] { run with stage := .delivered ending })
    (lock : s'.lock = s.lock) : Served world start bound (events ++ [.act i]) s' k := by
  have length := advances.length
  have log : s'.session.log = s.session.log := by simpa using advances.session.log
  have remembers : s'.session.bound = s.session.bound := advances.session.bound
  refine ⟨length ▸ served.le, by rw [lock, length, served.queue], ?_, log ▸ served.sorted,
    by simpa [log, length] using served.clients, by rw [remembers, log, served.remembers], ?_⟩
  · intro j r hj there
    rcases advances.run_cases here there with ⟨rfl, -⟩ | ⟨-, there⟩
    · rw [served.fresh j run hj here] at stage
      cases stage
    · exact served.fresh j r hj there
  · intro j r there
    rw [log, advances.now]
    rcases advances.run_cases here there with ⟨rfl, rfl⟩ | ⟨-, there⟩
    · have filed : Filed world (LacksPlace world start (events ++ [.act j]) j) s.now _ run _ :=
        (served.filed j run here).mono (Nat.le_refl _) LacksPlace.mono
      simpa only [Filed, stage] using filed
    · exact (served.filed j r there).mono (Nat.le_refl _) LacksPlace.mono

theorem reach_served (exclusive : world.policy = .exclusive)
    (reach : Reach world (openedOn camera bound files) events s) :
    ∃ k, Served world (openedOn camera bound files) bound events s k := by
  apply reach.induction (P := fun events s =>
    ∃ k, Served world (openedOn camera bound files) bound events s k)
  · exact ⟨0, Nat.le_refl _, rfl, by simp [openedOn], by simp [openedOn], by simp [openedOn], rfl,
      by simp [openedOn]⟩
  · intro events _ s _ reach ih change
    obtain ⟨k, served⟩ := ih
    have queued := reach_queued reach
    cases change with
    | request request => exact ⟨k, served.requested queued request⟩
    | advance later =>
      refine ⟨k, served.le, served.queue, served.fresh, served.sorted, served.clients,
        served.remembers, ?_⟩
      intro i run here
      exact (served.filed i run here).mono (Nat.le_of_lt later) LacksPlace.mono
    | act here advances =>
      rcases served.actor exclusive queued here advances.turn with
        rfl | ⟨ending, stage, rfl, lock, rfl⟩
      · exact served.acts exclusive reach here advances
      · exact ⟨k, served.delivers here stage advances lock⟩

/-- When every request keeps the session to itself, the log consists of the blocks of the runs in
the order of their requests, whatever the camera answers and in whatever order the runs take their
steps. A block holds the commands of its own request, up to some point and with at most one
capture, which comes when the timer has run. It has its capture once the run has ended, unless
the camera was not bound, or crashed before, or there was no place for the photo. -/
theorem exclusive_log_consists_of_blocks (exclusive : world.policy = .exclusive)
    (reach : Reach world (openedOn camera bound files) events s) :
    s.requests = events.filterMap Event.request? ∧
      s.session.log = ((List.range s.runs.length).map (block s.session.log)).flatten ∧
      ∀ (i : Nat) run, s.runs[i]? = some run →
        let before := boundAfter bound ((List.range i).map (block s.session.log)).flatten
        IsBlock world run.request before (block s.session.log i) ∧
          (block s.session.log i).countP Entry.isCapture ≤ 1 ∧
          (run.stage.ending? ≠ none → Prepared run.request before (block s.session.log i) →
            ¬ LacksPlace world (openedOn camera bound files) events i →
            (block s.session.log i).countP Entry.isCapture = 1) := by
  obtain ⟨k, served⟩ := reach_served exclusive reach
  refine ⟨by simpa [openedOn, Studio.requests] using reach.requests_eq, ?_, ?_⟩
  · rw [flatten_blocks served.sorted]
    apply Eq.symm
    apply List.filter_eq_self.mpr
    intro e he
    simpa using (served.clients e he).2
  · intro i run here before
    have filed := served.filed i run here
    have same : boundBefore bound s.session.log i = before := by
      rw [boundBefore, ← flatten_blocks served.sorted]
    rw [same] at filed
    refine ⟨filed.isBlock, filed.isBlock.once, ?_⟩
    intro ended
    unfold Filed at filed
    cases stage : run.stage with
    | ended | delivered =>
      simp only [stage] at filed
      exact filed.captured
    | _ => simp [stage, Stage.ending?] at ended

/-- A studio whose camera takes every command, and whose requests keep it to themselves. -/
def steady : World Camera.State where
  device := Camera.Stub.device
  policy := .exclusive
  directory := "/photos"
  opening := ⟨0, false⟩
  offset := .zero

/-- A request with a timer, and one that overlaps with it and comes to setting its torch. -/
def overlap : List Event :=
  [.request { Request.standard with timer := 1 }, .request .standard, .act 0, .act 0, .act 0,
    .advance 1000, .act 0, .act 0, .act 0, .act 1, .act 1, .act 0]

theorem overlap_in_blocks :
    ∃ s, Reach steady (openedOn {} none .root) overlap s ∧
      s.session.log = block s.session.log 0 ++ block s.session.log 1 ∧
      (block s.session.log 0).length = 5 ∧ (block s.session.log 1).length = 1 := by
  have counts : ((openedOn {} none .root).after? steady overlap).map (fun s => (s.runs.length,
      (block s.session.log 0).length, (block s.session.log 1).length)) = some (2, 5, 1) := by
    decide +kernel
  obtain ⟨s, reached, counts⟩ := Option.map_eq_some_iff.mp counts
  obtain ⟨two, five, one⟩ : s.runs.length = 2 ∧ (block s.session.log 0).length = 5 ∧
      (block s.session.log 1).length = 1 := by simpa using counts
  have reach := reach_iff_after?.mpr reached
  have blocks := (exclusive_log_consists_of_blocks rfl reach).2.1
  refine ⟨s, reach, ?_, five, one⟩
  simpa [two, List.range_succ] using blocks

end PhotoCapture.Studio
