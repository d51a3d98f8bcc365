import Matchmaking.Books.Refusal

/-! Why the agency turns a request down. -/
namespace Matchmaking

inductive Objection where
  | oneClient
  | oneGender
deriving DecidableEq, Repr

def Objection.message : Objection → String
  | .oneClient => "a client cannot be matched with themselves"
  | .oneGender => "clients must be of opposite genders"

inductive Collision where
  | taken (client : Int)
  | changed (pairing : Int)
  | claimed (entity : Entity) (id : String)
  | busy (error : BookError)
deriving DecidableEq, Repr

def Collision.message : Collision → String
  | .taken client => s!"client {client} was taken by a concurrent match"
  | .changed pairing => s!"match record {pairing} changed concurrently"
  | .claimed entity id => s!"{entity.label} already taken: {id}"
  | .busy error => s!"concurrent write in progress: {error.message}"

inductive AgencyError where
  | objection (objection : Objection)
  | unavailable (client : Int)
  | illegalMove (before after : Stage)
  | wrongStage (expected found : Stage)
  | collision (cause : Collision)
  | absent (entity : Entity) (id : String)
  | books (error : BookError)
deriving DecidableEq, Repr

namespace AgencyError

def message : AgencyError → String
  | .objection o => s!"invalid request: {o.message}"
  | .unavailable client => s!"client {client} is already matched or unavailable"
  | .illegalMove before after => s!"illegal status transition: {Stage.moveText before after}"
  | .wrongStage expected found =>
    s!"status mismatch: expected {Vocabulary.word expected}, found {Vocabulary.word found}"
  | .collision c => s!"conflict: {c.message}"
  | .absent entity id => s!"{entity.label} not found: {id}"
  | .books e => s!"database error: {e.message}"

def isCollision : AgencyError → Bool
  | .collision _ => true
  | _ => false

/-- Whether the request was turned down for what it asks, with nothing written. -/
def isRefusal : AgencyError → Bool
  | .objection _ | .unavailable _ | .illegalMove _ _ | .wrongStage _ _ | .absent _ _ => true
  | .collision _ | .books _ => false

/-- A write that another writer blocks, or that finds its place taken, is a conflict. -/
def ofBooks (e : BookError) : AgencyError :=
  if e.isBusy then .collision (.busy e)
  else match e with
    | .duplicate entity id => .collision (.claimed entity id)
    | .absent entity id => .absent entity id
    | e => .books e

end AgencyError

end Matchmaking
