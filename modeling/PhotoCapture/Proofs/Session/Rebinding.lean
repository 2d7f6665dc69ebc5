import PhotoCapture.Proofs.Session.Agreement

namespace PhotoCapture.Session

/-- The camera is let go of before it is asked for a facing, and is asked for one behind that. -/
structure Paired (log : List Entry) : Prop where
  freed : ∀ earlier b later facing, log = earlier ++ b :: later →
    b.command = .control (.bind facing) →
    ∃ before u, earlier = before ++ [u] ∧ u.command = .control .unbindAll
  asked : ∀ earlier u later, log = earlier ++ u :: later →
    u.command = .control .unbindAll → (∀ m, u.reply ≠ .crashed m) →
    ∃ b rest facing, later = b :: rest ∧ b.command = .control (.bind facing)

section

variable {log more entries : List Entry} {facing : Facing} {bound : Option Facing} {how : Binding}

theorem Paired.append (paired : Paired log) (paired' : Paired more) : Paired (log ++ more) := by
  constructor
  · intro earlier b later facing split bind
    rcases append_eq_split split with ⟨rest, hl, -⟩ | ⟨before, rfl, hm⟩
    · exact paired.freed earlier b rest facing hl bind
    · obtain ⟨before', u, rfl, unbind⟩ := paired'.freed before b later facing hm bind
      exact ⟨log ++ before', u, by rw [List.append_assoc], unbind⟩
  · intro earlier u later split unbind sound
    rcases append_eq_split split with ⟨rest, hl, rfl⟩ | ⟨before, rfl, hm⟩
    · obtain ⟨b, rest', facing, rfl, bind⟩ := paired.asked earlier u rest hl unbind sound
      exact ⟨b, rest' ++ more, facing, rfl, bind⟩
    · exact paired'.asked before u later hm unbind sound

theorem paired_of_settings (settings : ∀ e ∈ entries, e.rebinds = false) : Paired entries := by
  constructor
  · intro earlier b later facing split bind
    have setting := settings b (by simp [split])
    have rebinds := Entry.rebinds_iff.mpr (Or.inr ⟨facing, bind⟩)
    exact absurd setting (ne_false_of_eq_true rebinds)
  · intro earlier u later split unbind sound
    have setting := settings u (by simp [split])
    have rebinds := Entry.rebinds_iff.mpr (Or.inl unbind)
    exact absurd setting (ne_false_of_eq_true rebinds)

theorem single_eq_split {u x : Entry} {earlier later : List Entry}
    (h : [u] = earlier ++ x :: later) : earlier = [] ∧ x = u := by
  rcases List.singleton_eq_append_iff.mp h with ⟨rfl, rest⟩ | ⟨-, none⟩
  · exact ⟨rfl, (List.cons.inj rest).1⟩
  · cases none

theorem pair_eq_split {u b x : Entry} {earlier later : List Entry}
    (h : [u, b] = earlier ++ x :: later) :
    earlier = [] ∧ x = u ∧ later = [b] ∨ earlier = [u] ∧ x = b := by
  cases earlier with
  | nil =>
    obtain ⟨first, rest⟩ := List.cons.inj h
    exact Or.inl ⟨rfl, first.symm, rest.symm⟩
  | cons y earlier =>
    obtain ⟨rfl, rest⟩ := List.cons.inj h
    obtain ⟨rfl, last⟩ := single_eq_split rest
    exact Or.inr ⟨rfl, last⟩

theorem Asked.paired (asked : Asked facing bound entries how) : Paired entries := by
  cases asked with
  | kept => exact paired_of_settings (by simp)
  | @brokenOff u m other unbind crash =>
    constructor
    · intro earlier b later facing split bind
      rw [(single_eq_split split).2, unbind] at bind
      cases bind
    · intro earlier x later split _ sound
      rw [(single_eq_split split).2, crash] at sound
      exact absurd rfl (sound m)
  | @answered u b other unbind sound bind =>
    constructor
    · intro earlier x later facing split asks
      rcases pair_eq_split split with ⟨-, rfl, -⟩ | ⟨rfl, -⟩
      · rw [unbind] at asks
        cases asks
      · exact ⟨[], u, rfl, unbind⟩
    · intro earlier x later split frees _
      rcases pair_eq_split split with ⟨-, -, rfl⟩ | ⟨-, rfl⟩
      · exact ⟨b, [], facing, rfl, bind⟩
      · rw [bind] at frees
        cases frees

theorem Asked.unbind_first {earlier later : List Entry} {u : Entry}
    (asked : Asked facing bound (earlier ++ u :: later) how)
    (unbind : u.command = .control .unbindAll) : earlier = [] ∧ bound ≠ some facing := by
  generalize split : earlier ++ u :: later = entries at asked
  cases asked with
  | kept => simp at split
  | brokenOff other => exact ⟨(single_eq_split split.symm).1, other⟩
  | answered other _ _ bind =>
    rcases pair_eq_split split.symm with ⟨first, -, -⟩ | ⟨-, rfl⟩
    · exact ⟨first, other⟩
    · rw [bind] at unbind
      cases unbind

/-- Until the camera is let go of again, it is not asked for another facing. -/
theorem Paired.not_rebinds {earlier between later : List Entry} {b : Entry}
    (paired : Paired (earlier ++ b :: (between ++ later)))
    (bind : b.command = .control (.bind facing))
    (kept : ∀ x ∈ between, x.command ≠ .control .unbindAll) :
    ∀ x ∈ between, x.rebinds = false := by
  intro x hx
  by_contra rebinds
  rcases Entry.rebinds_iff.mp (Bool.of_not_eq_false rebinds) with unbind | ⟨next, asks⟩
  · exact kept x hx unbind
  · -- Right before that the camera was let go of, which is the first binding or lies behind it.
    obtain ⟨first, rest, rfl⟩ := List.append_of_mem hx
    have split : earlier ++ b :: (first ++ x :: rest ++ later) =
        (earlier ++ b :: first) ++ x :: (rest ++ later) := by simp
    obtain ⟨before, u, ends, unbind⟩ := paired.freed _ x _ next split asks
    have last : (b :: first).getLast? = some u := by
      have := congrArg List.getLast? ends
      simpa using this
    rcases List.mem_cons.mp (List.mem_of_getLast? last) with rfl | inside
    · rw [bind] at unbind
      cases unbind
    · exact kept u (by simp [inside]) unbind

end

/-- The camera is let go of and, unless it breaks off at that, is asked for a facing. -/
inductive Reacquires (facing : Facing) : List Entry → Binding → Prop
  | brokenOff {u m} (unbind : u.command = .control .unbindAll) (crash : u.reply = .crashed m) :
      Reacquires facing [u] (.asked (.crashed m))
  | answered {u b} (unbind : u.command = .control .unbindAll) (sound : ∀ m, u.reply ≠ .crashed m)
      (bind : b.command = .control (.bind facing)) : Reacquires facing [u, b] (.asked b.reply)

section

variable {facing : Facing} {bound : Option Facing} {entries : List Entry} {how : Binding}

theorem Asked.reacquires (asked : Asked facing bound entries how) (other : bound ≠ some facing) :
    Reacquires facing entries how := by
  cases asked with
  | kept same => exact absurd same other
  | brokenOff _ unbind crash => exact .brokenOff unbind crash
  | answered _ unbind sound bind => exact .answered unbind sound bind

theorem Asked.kept_iff (asked : Asked facing bound entries how) :
    how = .kept ∧ entries = [] ↔ bound = some facing := by
  cases asked with
  | kept same => simp [same]
  | brokenOff other => simp [other]
  | answered other => simp [other]

end

namespace Shared

variable {σ ι : Type}

theorem map_snd_mk (act : Act ι) (entries : List Entry) :
    (entries.map (Prod.mk act)).map Prod.snd = entries := by
  rw [List.map_map]
  exact List.map_id entries

/-- How the entries that an act adds to the log come about. -/
inductive Adds (bound : Option Facing) : Act ι → List Entry → Prop
  | settings {act entries} (settings : ∀ e ∈ entries, e.rebinds = false) : Adds bound act entries
  | binding {client facing entries how} (asked : Asked facing bound entries how) :
      Adds bound (.use client (.ensureBound facing)) entries

section

variable {device : Camera.Device σ} {bound : Option Facing} {act : Act ι} {entries : List Entry}

theorem Adds.paired (adds : Adds bound act entries) : Paired entries := by
  cases adds with
  | settings settings => exact paired_of_settings settings
  | binding asked => exact asked.paired

theorem Adds.unbind_first {earlier later : List Entry} {u : Entry}
    (adds : Adds bound act (earlier ++ u :: later)) (unbind : u.command = .control .unbindAll) :
    earlier = [] ∧ ∃ client facing, act = .use client (.ensureBound facing) ∧
      bound ≠ some facing := by
  generalize split : earlier ++ u :: later = entries at adds
  cases adds with
  | settings settings =>
    have setting := settings u (by simp [← split])
    have rebinds := Entry.rebinds_iff.mpr (Or.inl unbind)
    exact absurd setting (ne_false_of_eq_true rebinds)
  | binding asked =>
    rw [← split] at asked
    obtain ⟨first, other⟩ := asked.unbind_first unbind
    exact ⟨first, _, _, rfl, other⟩

theorem set_adds {c : Camera.Control} (setting : (Camera.Command.control c).rebinds = false)
    (session : Session σ) (act : Act ι) :
    ∃ entries, Extends device {} session (session.set device {} c).2 entries ∧
      Adds session.bound act entries := by
  rcases set_cases device {} setting session with ⟨-, same⟩ | ⟨-, e, step, command, -⟩
  · rw [same]
    exact ⟨[], .refl device {} session, .settings (by simp)⟩
  · exact ⟨[e], step, .settings (by simpa [Entry.rebinds, command] using setting)⟩

theorem capture_adds (path : String) (session : Session σ) (files : Files) (act : Act ι) :
    ∃ entries, Extends device {} session (session.capture device {} path files).2.1 entries ∧
      Adds session.bound act entries := by
  rcases capture_cases device {} path session files with ⟨-, same⟩ | ⟨-, e, step, command, -⟩
  · rw [same]
    exact ⟨[], .refl device {} session, .settings (by simp)⟩
  · exact ⟨[e], step, .settings (by simp [Entry.rebinds, command, Camera.Command.rebinds])⟩

end

variable [DecidableEq ι] {device : Camera.Device σ} {shared : Shared σ ι}

def added (device : Camera.Device σ) (shared : Shared σ ι) (act : Act ι) : List Entry :=
  (shared.step device act).2.session.log.drop shared.session.log.length

/-- What acts in a row add to the log, each entry with the act that it comes from. -/
def issued (device : Camera.Device σ) : Shared σ ι → List (Act ι) → List (Act ι × Entry)
  | _, [] => []
  | shared, act :: acts =>
    (shared.added device act).map (Prod.mk act) ++ issued device (shared.step device act).2 acts

theorem step_adds (device : Camera.Device σ) (shared : Shared σ ι) (act : Act ι) :
    ∃ entries, Extends device {} shared.session (shared.step device act).2.session entries ∧
      Adds shared.session.bound act entries := by
  have still : ∃ entries, Extends device {} shared.session shared.session entries ∧
      Adds shared.session.bound act entries :=
    ⟨[], .refl device {} shared.session, .settings (by simp)⟩
  cases act with
  | acquire client => exact still
  | release client => exact still
  | use client action =>
    simp only [step]
    split
    next =>
      cases action with
      | ensureBound facing =>
        obtain ⟨entries, step, asked⟩ := ensureBound_extends device {} facing shared.session
        exact ⟨entries, step, .binding asked⟩
      | torch on => exact set_adds rfl shared.session _
      | zoom x => exact set_adds rfl shared.session _
      | capture path => exact capture_adds path shared.session shared.files _
    next => split <;> exact still

theorem added_spec (device : Camera.Device σ) (shared : Shared σ ι) (act : Act ι) :
    Extends device {} shared.session (shared.step device act).2.session
        (shared.added device act) ∧ Adds shared.session.bound act (shared.added device act) := by
  obtain ⟨entries, step, adds⟩ := step_adds device shared act
  have same : shared.added device act = entries := by rw [added, step.log, List.drop_left]
  rw [same]
  exact ⟨step, adds⟩

theorem issued_cons (act : Act ι) (acts : List (Act ι)) :
    (shared.issued device (act :: acts)).map Prod.snd = shared.added device act ++
      ((shared.step device act).2.issued device acts).map Prod.snd := by
  rw [issued, List.map_append, map_snd_mk]

theorem issued_log (device : Camera.Device σ) (shared : Shared σ ι) (acts : List (Act ι)) :
    (shared.run device acts).session.log =
      shared.session.log ++ (shared.issued device acts).map Prod.snd := by
  induction acts generalizing shared with
  | nil => simp [run, issued]
  | cons act acts ih =>
    have step := (added_spec device shared act).1.log
    have rest := ih (shared.step device act).2
    rw [issued_cons, ← List.append_assoc, ← step, ← rest]
    rfl

theorem issued_paired (device : Camera.Device σ) (shared : Shared σ ι) (acts : List (Act ι)) :
    Paired ((shared.issued device acts).map Prod.snd) := by
  induction acts generalizing shared with
  | nil => exact paired_of_settings (by simp [issued])
  | cons act acts ih =>
    rw [issued_cons]
    exact (added_spec device shared act).2.paired.append (ih _)

/-- The camera is let go of only by an act that asks for another facing than the one that is
bound by then. -/
theorem issued_unbind {acts : List (Act ι)} {earlier later : List (Act ι × Entry)} {act : Act ι}
    {u : Entry} (split : shared.issued device acts = earlier ++ (act, u) :: later)
    (unbind : u.command = .control .unbindAll) :
    ∃ client facing, act = .use client (.ensureBound facing) ∧
      boundAfter shared.session.bound (earlier.map Prod.snd) ≠ some facing := by
  induction acts generalizing shared earlier with
  | nil => simp [issued] at split
  | cons first acts ih =>
    obtain ⟨step, adds⟩ := added_spec device shared first
    -- The entry is one of the first act or one of a later act.
    rcases append_eq_split split with ⟨rest, own, -⟩ | ⟨before, rfl, others⟩
    · have mine : (act, u) ∈ (shared.added device first).map (Prod.mk first) := by simp [own]
      obtain ⟨e, -, same⟩ := List.mem_map.mp mine
      obtain rfl : first = act := congrArg Prod.fst same
      have entries := congrArg (List.map Prod.snd) own
      rw [map_snd_mk, List.map_append, List.map_cons] at entries
      rw [entries] at adds
      obtain ⟨begins, client, facing, asks, other⟩ := adds.unbind_first unbind
      exact ⟨client, facing, asks, by rwa [begins]⟩
    · obtain ⟨client, facing, asks, other⟩ := ih others
      refine ⟨client, facing, asks, ?_⟩
      rwa [List.map_append, map_snd_mk, boundAfter_append, ← step.bound]

/-- Between a binding that the camera agreed to and the next time that it is let go of, that
facing stays bound. -/
theorem boundAfter_issued {acts : List (Act ι)} {earlier between later : List (Act ι × Entry)}
    {b : Act ι × Entry} {facing : Facing}
    (split : shared.issued device acts = earlier ++ b :: (between ++ later))
    (bind : b.2.command = .control (.bind facing)) (agreed : b.2.reply = .done)
    (kept : ∀ x ∈ between, x.2.command ≠ .control .unbindAll) :
    boundAfter none ((earlier ++ b :: between).map Prod.snd) = some facing := by
  have paired := issued_paired device shared acts
  rw [split, List.map_append, List.map_cons, List.map_append] at paired
  have settings := paired.not_rebinds bind (List.forall_mem_map.mpr kept)
  rw [boundAfter_none_eq_some_iff, List.map_append, List.map_cons]
  exact ⟨_, b.2, _, rfl, bind, agreed, settings⟩

/-- What is asked of a session for a facing, by what its log says. -/
theorem ensureBound_by_log (device : Camera.Device σ) (camera : σ) (files : Files)
    (acts : List (Act ι)) (stamp : Stamp) (facing : Facing) :
    let session := after device camera files acts
    ∃ entries, (session.ensureBound device stamp facing).2.log = session.log ++ entries ∧
      ((session.ensureBound device stamp facing).1 = .kept ∧ entries = [] ↔
        HasBound session.log facing) ∧
      (¬ HasBound session.log facing →
        Reacquires facing entries (session.ensureBound device stamp facing).1) := by
  intro session
  obtain ⟨entries, step, asked⟩ := ensureBound_extends device stamp facing session
  have faithful := after_faithful device camera files acts
  have bound : session.bound = some facing ↔ HasBound session.log facing := by
    rw [← boundAfter_none_eq_some_iff, ← faithful.bound]
  refine ⟨entries, step.log, asked.kept_iff.trans bound, ?_⟩
  intro other
  exact asked.reacquires fun same => other (bound.mp same)

/-- After any acts of clients that share a session, whatever the camera answered: it was let go of
and asked for a facing only one after the other, a facing that it agreed to was given up only for
another one, and so it will be for whichever facing is asked for next. -/
theorem camera_is_rebound_only_for_change (device : Camera.Device σ) (camera : σ) (files : Files)
    (acts : List (Act ι)) :
    let start : Shared σ ι := { session := { camera := camera }, files := files }
    let session := (start.run device acts).session
    session.log = (start.issued device acts).map Prod.snd ∧ Paired session.log ∧
    (∀ earlier b between u later facing,
      start.issued device acts = earlier ++ b :: (between ++ u :: later) →
      b.2.command = .control (.bind facing) → b.2.reply = .done →
      (∀ x ∈ between, x.2.command ≠ .control .unbindAll) → u.2.command = .control .unbindAll →
      ∃ client other, u.1 = .use client (.ensureBound other) ∧ other ≠ facing) ∧
    ∀ stamp facing, ∃ entries,
      (session.ensureBound device stamp facing).2.log = session.log ++ entries ∧
      ((session.ensureBound device stamp facing).1 = .kept ∧ entries = [] ↔
        HasBound session.log facing) ∧
      (¬ HasBound session.log facing →
        Reacquires facing entries (session.ensureBound device stamp facing).1) := by
  intro start session
  have log : session.log = (start.issued device acts).map Prod.snd := by
    simpa [start] using issued_log device start acts
  refine ⟨log, log ▸ issued_paired device start acts, ?_, ensureBound_by_log device camera files acts⟩
  intro earlier b between u later facing split bind agreed kept unbind
  have bound := boundAfter_issued split bind agreed kept
  have again : start.issued device acts = (earlier ++ b :: between) ++ u :: later := by
    rw [split, List.append_assoc, List.cons_append]
  obtain ⟨client, other, asks, change⟩ := issued_unbind again unbind
  refine ⟨client, other, asks, ?_⟩
  rintro rfl
  exact change bound

end Shared

end PhotoCapture.Session
