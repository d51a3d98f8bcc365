import Matchmaking.Agency.Refusal
import Matchmaking.Books.Basic

/-! Work in an open transaction. Its writes stand while it goes on; a failure at the end takes
all of them back. -/
namespace Matchmaking

def Work (α : Type) := Books → Except AgencyError α × Books

namespace Work
variable {α β : Type}

instance : Monad Work where
  pure a := fun b => (.ok a, b)
  bind w f := fun b =>
    match w b with
    | (.ok a, b) => f a b
    | (.error e, b) => (.error e, b)

def fail (e : AgencyError) : Work α := fun b => (.error e, b)

def write (f : Books → Except BookError (α × Books)) : Work α := fun b =>
  match f b with
  | .ok (a, b) => (.ok a, b)
  | .error e => (.error (.ofBooks e), b)

def read (f : Books → Except BookError α) : Work α := fun b => ((f b).mapError .ofBooks, b)

def commit (w : Work α) : Books → Except AgencyError α × Books := fun b =>
  match w b with
  | (.ok a, b) => (.ok a, b)
  | (.error e, _) => (.error e, b)

variable (w : Work α) (f : α → Work β) (b : Books)

theorem bind_apply : (w >>= f) b =
    match w b with
    | (.ok a, b) => f a b
    | (.error e, b) => (.error e, b) := rfl

variable {w b}

theorem commit_of_ok {a : α} {b' : Books} (h : w b = (.ok a, b')) : w.commit b = (.ok a, b') := by
  simp [commit, h]

theorem commit_of_error {e : AgencyError} {b' : Books} (h : w b = (.error e, b')) :
    w.commit b = (.error e, b) := by
  simp [commit, h]

end Work

end Matchmaking
