namespace PhotoCapture.Session

/-- A lock, with its holder and those who wait for it, the longest first. Its holder hands it to the
first of them at once, so nobody who asks later can come between. -/
structure Lock (ι : Type) where
  holder : Option ι := none
  waiting : List ι := []
deriving DecidableEq

namespace Lock

variable {ι : Type} [DecidableEq ι]

/-- Whether a client has asked for the lock and not given it up. -/
def knows (lock : Lock ι) (i : ι) : Bool := lock.holder = some i || decide (i ∈ lock.waiting)

def isFree (lock : Lock ι) : Bool := lock.holder.isNone && lock.waiting.isEmpty

def ask (lock : Lock ι) (i : ι) : Lock ι :=
  if lock.knows i then lock
  else
    match lock.holder with
    | none => { lock with holder := some i }
    | some _ => { lock with waiting := lock.waiting ++ [i] }

/-- The lock after a client gave it up, or gave up waiting for it. -/
def release (lock : Lock ι) (i : ι) : Lock ι :=
  if lock.holder = some i then ⟨lock.waiting.head?, lock.waiting.tail⟩
  else { lock with waiting := lock.waiting.erase i }

end Lock

end PhotoCapture.Session
