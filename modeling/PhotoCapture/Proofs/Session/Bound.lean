import PhotoCapture.Proofs.Camera.Facing
import PhotoCapture.Session.Basic
import Mathlib.Data.List.Induction

namespace PhotoCapture.Session

def Entry.rebinds (e : Entry) : Bool := e.command.rebinds

/-- The facing that is bound once a command was answered. -/
def Entry.leaves (bound : Option Facing) (e : Entry) : Option Facing :=
  match e.command with
  | .control .unbindAll => none
  | .control (.bind facing) => if e.reply = .done then some facing else none
  | _ => bound

def boundAfter (bound : Option Facing) (log : List Entry) : Option Facing :=
  log.foldl Entry.leaves bound

/-- The latest binding in a log was for a facing, the camera agreed to it, and it was not let go
of since. -/
def HasBound (log : List Entry) (facing : Facing) : Prop :=
  ∃ earlier e later, log = earlier ++ e :: later ∧ e.command = .control (.bind facing) ∧
    e.reply = .done ∧ ∀ x ∈ later, x.rebinds = false

@[simp] theorem boundAfter_nil (bound : Option Facing) : boundAfter bound [] = bound := rfl

@[simp] theorem boundAfter_append (bound : Option Facing) (log more : List Entry) :
    boundAfter bound (log ++ more) = boundAfter (boundAfter bound log) more :=
  List.foldl_append

@[simp] theorem boundAfter_singleton (bound : Option Facing) (e : Entry) :
    boundAfter bound [e] = e.leaves bound := rfl

theorem Entry.rebinds_iff {e : Entry} : e.rebinds = true ↔
    e.command = .control .unbindAll ∨ ∃ facing, e.command = .control (.bind facing) := by
  obtain ⟨_, _, command, _, _⟩ := e
  cases command with
  | control c => cases c <;> simp [rebinds, Camera.Command.rebinds]
  | capture path => simp [rebinds, Camera.Command.rebinds]

theorem Entry.leaves_of_not_rebinds {e : Entry} (h : e.rebinds = false) (bound : Option Facing) :
    e.leaves bound = bound := by
  obtain ⟨_, _, command, _, _⟩ := e
  cases command with
  | control c => cases c <;> simp_all [rebinds, Camera.Command.rebinds, leaves]
  | capture path => rfl

theorem Entry.agreed_of_leaves {e : Entry} {bound : Option Facing} {facing : Facing}
    (hr : e.rebinds = true) (h : e.leaves bound = some facing) :
    e.command = .control (.bind facing) ∧ e.reply = .done := by
  obtain ⟨_, _, command, _, _⟩ := e
  cases command with
  | control c => cases c <;> simp_all [rebinds, Camera.Command.rebinds, leaves]
  | capture path => simp [rebinds, Camera.Command.rebinds] at hr

theorem boundAfter_of_not_rebinds {log : List Entry} (h : ∀ e ∈ log, e.rebinds = false)
    (bound : Option Facing) : boundAfter bound log = bound := by
  induction log generalizing bound with
  | nil => rfl
  | cons e log ih =>
    have he := Entry.leaves_of_not_rebinds (h e (by simp)) bound
    have hl := ih (fun x hx => h x (by simp [hx])) bound
    simpa [boundAfter, he] using hl

/-- A log that starts with nothing bound leaves a facing bound exactly when its latest binding
was for that facing and still holds. -/
theorem boundAfter_none_eq_some_iff {log : List Entry} {facing : Facing} :
    boundAfter none log = some facing ↔ HasBound log facing := by
  constructor
  · intro h
    induction log using List.reverseRecOn with
    | nil => simp at h
    | append_singleton log e ih =>
      simp only [boundAfter_append, boundAfter_singleton] at h
      by_cases hr : e.rebinds
      · obtain ⟨hc, hd⟩ := Entry.agreed_of_leaves hr h
        exact ⟨log, e, [], rfl, hc, hd, by simp⟩
      · have hr' : e.rebinds = false := by simpa using hr
        rw [Entry.leaves_of_not_rebinds hr'] at h
        obtain ⟨earlier, b, later, hl, hc, hd, hk⟩ := ih h
        refine ⟨earlier, b, later ++ [e], by simp [hl], hc, hd, ?_⟩
        intro x hx
        rcases List.mem_append.mp hx with hx | hx
        · exact hk x hx
        · simpa [List.mem_singleton.mp hx] using hr'
  · rintro ⟨earlier, b, later, rfl, hc, hd, hk⟩
    have hb : b.leaves (boundAfter none earlier) = some facing := by simp [Entry.leaves, hc, hd]
    calc
      boundAfter none (earlier ++ b :: later)
          = boundAfter (b.leaves (boundAfter none earlier)) later := by
            rw [boundAfter_append]; rfl
      _ = some facing := by rw [boundAfter_of_not_rebinds hk, hb]

/-- A relation holds of each entry of a log and the log before it. -/
def Throughout (P : List Entry → Entry → Prop) (log : List Entry) : Prop :=
  ∀ earlier e later, log = earlier ++ e :: later → P earlier e

theorem throughout_nil {P : List Entry → Entry → Prop} : Throughout P [] := by
  intro earlier e later h
  simp at h

theorem throughout_singleton {P : List Entry → Entry → Prop} {e : Entry} (h : P [] e) :
    Throughout P [e] := by
  intro earlier x later he
  cases earlier with
  | nil =>
    obtain ⟨rfl, -⟩ := List.cons.inj he
    exact h
  | cons y earlier => simp at he

theorem append_eq_split {α : Type} {first second earlier later : List α} {x : α}
    (h : first ++ second = earlier ++ x :: later) :
    (∃ rest, first = earlier ++ x :: rest ∧ later = rest ++ second) ∨
      ∃ before, earlier = first ++ before ∧ second = before ++ x :: later := by
  rcases List.append_eq_append_iff.mp h with ⟨gap, he, hs⟩ | ⟨gap, hf, hs⟩
  · exact Or.inr ⟨gap, he, hs⟩
  · cases gap with
    | nil => exact Or.inr ⟨[], by simpa using hf.symm, by simpa using hs.symm⟩
    | cons y gap =>
      obtain ⟨rfl, rfl⟩ := List.cons.inj hs
      exact Or.inl ⟨gap, hf, rfl⟩

theorem throughout_append {P : List Entry → Entry → Prop} {log more : List Entry}
    (hl : Throughout P log) (hm : Throughout (fun earlier => P (log ++ earlier)) more) :
    Throughout P (log ++ more) := by
  intro earlier e later he
  rcases append_eq_split he with ⟨rest, hf, -⟩ | ⟨before, rfl, hs⟩
  · exact hl earlier e rest hf
  · exact hm before e later hs

end PhotoCapture.Session
