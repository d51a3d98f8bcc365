import Matchmaking.Books.Refusal
import Matchmaking.Books.Table

/-! The books as a whole, and the hazards under which they are written. -/
namespace Matchmaking

instance : Numbered Client := ⟨Client.id⟩
instance : Numbered Pairing := ⟨Pairing.id⟩
instance : Numbered Move := ⟨Move.id⟩

structure Books where
  clients : Table Client := {}
  pairings : Table Pairing := {}
  moves : Table Move := {}
  leases : List Lease := []
deriving DecidableEq, Repr

/-- What goes wrong with writes of one kind: those of a shortlist, of a partner or of any move
abort, those of a frozen pairing's stage miss, and each write of one client's partner stops
another client. -/
inductive Fault where
  | shortlistWrite (client : Int)
  | partnerWrite (client : Int)
  | moveWrite
  | frozenPairing (pairing : Int)
  | stopAfterPartnerWrite (client stopped : Int)
deriving DecidableEq, Repr

structure Hazards where
  faults : List Fault := []
  foreignWriter : Option StorageFailure := none
deriving DecidableEq, Repr

namespace Hazards
variable (h : Hazards)

def allow : Except BookError Unit :=
  match h.foreignWriter with
  | some failure => throw (.storage failure)
  | none => pure ()

def arm (fault : Fault) : Except BookError Hazards := do
  h.allow
  pure { h with faults := h.faults ++ [fault] }

def guard (fault : Fault) (text : String) : Except BookError Unit :=
  if h.faults.contains fault then throw (.storage (.aborted text)) else pure ()

def stoppedBy (client : Int) : List Int :=
  h.faults.filterMap fun
    | .stopAfterPartnerWrite c stopped => if c = client then some stopped else none
    | _ => none

end Hazards

namespace Books

def empty : Books := {}

variable (b : Books)

def client? (id : Int) : Option Client := b.clients.find? id
def pairing? (id : Int) : Option Pairing := b.pairings.find? id

def modifyClient (id : Int) (f : Client → Client) : Books :=
  { b with clients := b.clients.modify id f }

def setStanding (standing : Standing) (b : Books) (id : Int) : Books :=
  b.modifyClient id fun c => { c with standing }

end Books

end Matchmaking
