import Matchmaking.Books.Row
import Matchmaking.Profile.Intake

/-! Why the books refuse a read or a write. -/
namespace Matchmaking

inductive Entity where
  | client | pairing | partnerLink
deriving DecidableEq, Repr

def Entity.label : Entity → String
  | .client => "Client"
  | .pairing => "MatchRecord"
  | .partnerLink => "Partner link"

inductive StorageFailure where
  | noRow
  | poolTimedOut
  | poolClosed
  | refused (code : Nat) (text : String)
deriving DecidableEq, Repr

namespace StorageFailure

def foreignKey : StorageFailure := .refused 787 "FOREIGN KEY constraint failed"
def locked : StorageFailure := .refused 5 "database is locked"
def aborted (text : String) : StorageFailure := .refused 1811 text

def message : StorageFailure → String
  | .noRow => "no rows returned by a query that expected to return at least one row"
  | .poolTimedOut => "pool timed out while waiting for an open connection"
  | .poolClosed => "attempted to acquire a connection on a closed pool"
  | .refused code text => s!"error returned from database: (code: {code}) {text}"

/-- The low byte of the code says that another writer is in the way. -/
def isBusy : StorageFailure → Bool
  | .refused code _ => code % 256 == 5 || code % 256 == 6
  | _ => false

end StorageFailure

inductive Obstacle where
  | linkedGender
  | standing (s : Standing)
  | unsettable (s : Standing)
  | other (text : String)
deriving DecidableEq, Repr

def Obstacle.message : Obstacle → String
  | .linkedGender => "gender cannot change while linked to a partner"
  | .standing s => s!"status is {Vocabulary.word s}"
  | .unsettable s => s!"availability cannot be set to {Vocabulary.word s}"
  | .other text => text

inductive BookError where
  | storage (failure : StorageFailure)
  | absent (entity : Entity) (id : String)
  | duplicate (entity : Entity) (id : String)
  | barred (entity : Entity) (id : String) (obstacle : Obstacle)
  | badProfile (error : ProfileError)
deriving DecidableEq, Repr

namespace BookError

def message : BookError → String
  | .storage failure => s!"database error: {failure.message}"
  | .absent entity id => s!"{entity.label} not found: {id}"
  | .duplicate entity id => s!"{entity.label} already exists: {id}"
  | .barred entity id obstacle =>
    s!"{entity.label} {id} cannot be modified: {obstacle.message}"
  | .badProfile error => s!"invalid input: {error.message}"

def isBusy : BookError → Bool
  | .storage failure => failure.isBusy
  | _ => false

end BookError

end Matchmaking
