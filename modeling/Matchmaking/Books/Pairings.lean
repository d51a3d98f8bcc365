import Matchmaking.Books.Basic

/-! Reading and writing pairings and the trail of their moves, which can only grow. -/
namespace Matchmaking

structure NewPairing where
  man : Int
  woman : Int
  score : Int32 := 0
  remark : String := ""
  admin : String := ""
deriving DecidableEq, Repr

def NewPairing.at (p : NewPairing) (id : Int) : Pairing :=
  { id, man := p.man, woman := p.woman, score := p.score, remark := p.remark, admin := p.admin }

namespace Books
variable (h : Hazards) (b : Books) (id : Int)

def fetchPairing : Except BookError Pairing :=
  match b.pairing? id with
  | some p => pure p
  | none => throw (.absent .pairing (toString id))

def pairingsOf (client : Int) : List Pairing := (b.pairings.rows.filter (·.names client)).reverse

def addPairing (p : NewPairing) : Except BookError (Int × Books) := do
  h.allow
  if b.pairings.rows.any (·.isLiveFor p.man p.woman) then
    throw (.duplicate .pairing s!"{p.man}/{p.woman}")
  else pure (b.pairings.next, { b with pairings := b.pairings.add p.at })

def moveStage (before after : Stage) : Except BookError (Bool × Books) := do
  h.allow
  match b.pairing? id with
  | some p =>
    if p.stage = before ∧ ¬h.faults.contains (.frozenPairing id) then
      if after.isLive ∧ b.pairings.rows.any (fun q => q.id != id && q.isLiveFor p.man p.woman) then
        throw (.duplicate .pairing (toString id))
      else
        pure (true, { b with pairings := b.pairings.modify id fun p => { p with stage := after } })
    else pure (false, b)
  | none => pure (false, b)

def removePairing : Except BookError (Pairing × Books) := do
  h.allow
  match b.pairing? id with
  | some p =>
    pure (p, { b with
      pairings := b.pairings.erase id
      moves := { b.moves with rows := b.moves.rows.filter (·.pairing != id) } })
  | none => throw (.absent .pairing (toString id))

def addMove (before after : Stage) (operator reason : String) : Except BookError (Int × Books) := do
  h.allow
  h.guard .moveWrite "audit write failed"
  if b.pairings.has id then
    pure (b.moves.next,
      { b with moves := b.moves.add fun n => ⟨n, id, before, after, operator, reason⟩ })
  else throw (.storage .foreignKey)

def movesOf : List Move := b.moves.rows.filter (·.pairing == id)

/-- Tries to change a move, which no one may; the number of rows changed. -/
def editMove : Except BookError Nat := do
  h.allow
  if b.moves.has id then throw (.storage (.aborted "match_status_history is append-only"))
  else pure 0

end Books

end Matchmaking
