import PhotoCapture.Session.Lock
import Mathlib.Data.List.Nodup

namespace PhotoCapture.Session.Lock

variable {ι : Type} {lock : Lock ι} {i j : ι}

/-- Those who have asked for a lock and not given it up, its holder first. -/
def queue (lock : Lock ι) : List ι := lock.holder.toList ++ lock.waiting

/-- Nobody stands in the queue twice, and nobody waits for a lock that is free. -/
structure Sound (lock : Lock ι) : Prop where
  nodup : lock.queue.Nodup
  taken : lock.holder = none → lock.waiting = []

theorem sound_free : ({} : Lock ι).Sound := ⟨by simp [queue], fun _ => rfl⟩

theorem Sound.holder_eq_head? (sound : lock.Sound) : lock.holder = lock.queue.head? := by
  cases h : lock.holder with
  | none => simp [queue, h, sound.taken h]
  | some i => simp [queue, h]

theorem holder_mem (h : lock.holder = some i) : i ∈ lock.queue := by simp [queue, h]

variable [DecidableEq ι]

theorem knows_iff : lock.knows i ↔ i ∈ lock.queue := by
  simp [knows, queue, Option.mem_toList]

theorem ask_queue (sound : lock.Sound) (h : i ∉ lock.queue) :
    (lock.ask i).queue = lock.queue ++ [i] := by
  have unknown : ¬ lock.knows i := fun hk => h (knows_iff.mp hk)
  simp only [ask, unknown]
  cases hh : lock.holder with
  | none => simp [queue, hh, sound.taken hh]
  | some j => simp [queue, hh]

theorem ask_sound (sound : lock.Sound) (h : i ∉ lock.queue) : (lock.ask i).Sound := by
  constructor
  · rw [ask_queue sound h, List.nodup_append]
    refine ⟨sound.nodup, by simp, ?_⟩
    rintro x hx y hy rfl
    exact h (List.mem_singleton.mp hy ▸ hx)
  · intro hn
    have unknown : ¬ lock.knows i := fun hk => h (knows_iff.mp hk)
    simp only [ask, unknown] at hn
    cases hh : lock.holder with
    | none => simp [hh] at hn
    | some j => simp [hh] at hn

theorem release_queue (h : lock.holder = some i) : (lock.release i).queue = lock.queue.tail := by
  cases hw : lock.waiting with
  | nil => simp [release, queue, h, hw]
  | cons j waiting => simp [release, queue, h, hw]

theorem release_sound (sound : lock.Sound) (h : lock.holder = some i) :
    (lock.release i).Sound := by
  constructor
  · rw [release_queue h]
    exact sound.nodup.tail
  · intro hn
    cases hw : lock.waiting with
    | nil => simp [release, h, hw]
    | cons j waiting => simp [release, h, hw] at hn

theorem mem_release_iff (sound : lock.Sound) (h : lock.holder = some i) :
    j ∈ (lock.release i).queue ↔ j ∈ lock.queue ∧ j ≠ i := by
  have split : lock.queue = i :: lock.waiting := by simp [queue, h]
  have nodup := sound.nodup
  rw [split, List.nodup_cons] at nodup
  rw [release_queue h, split, List.tail_cons, List.mem_cons]
  constructor
  · intro hj
    exact ⟨Or.inr hj, fun he => nodup.1 (he ▸ hj)⟩
  · rintro ⟨rfl | hj, hne⟩
    · exact absurd rfl hne
    · exact hj

theorem ask_holder (h : lock.holder = some i) (j : ι) : (lock.ask j).holder = some i := by
  unfold ask
  split
  next => exact h
  next => simp [h]

/-- To whom a lock was given when it changed, if it was given to anybody. -/
def passedTo (lock lock' : Lock ι) : Option ι :=
  if lock'.holder = lock.holder then none else lock'.holder

theorem passedTo_self (lock : Lock ι) : lock.passedTo lock = none := by simp [passedTo]

/-- Who asks is given the lock at once, or waits behind all others. -/
theorem ask_passedTo (sound : lock.Sound) (h : i ∉ lock.queue) :
    lock.waiting ++ [i] = (lock.passedTo (lock.ask i)).toList ++ (lock.ask i).waiting := by
  have queue := ask_queue sound h
  cases hh : lock.holder with
  | none =>
    have nobody := sound.taken hh
    have unknown : ¬ lock.knows i := fun hk => h (knows_iff.mp hk)
    simp [passedTo, ask, unknown, hh, nobody]
  | some j =>
    have kept := ask_holder hh i
    have waiting : (lock.ask i).waiting = lock.waiting ++ [i] := by
      simpa [Lock.queue, hh, kept] using queue
    simp [passedTo, hh, kept, waiting]

/-- Who gives the lock up leaves it to the one who has waited the longest. -/
theorem release_passedTo (sound : lock.Sound) (h : lock.holder = some i) :
    lock.waiting = (lock.passedTo (lock.release i)).toList ++ (lock.release i).waiting := by
  cases hw : lock.waiting with
  | nil => simp [passedTo, release, h, hw]
  | cons j waiting =>
    have nodup := sound.nodup
    have other : j ≠ i := by
      rintro rfl
      simp [queue, h, hw] at nodup
    simp [passedTo, release, h, hw, other]

end PhotoCapture.Session.Lock
