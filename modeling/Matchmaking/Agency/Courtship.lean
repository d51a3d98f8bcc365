import Matchmaking.Agency.Work
import Matchmaking.Books.Clients
import Matchmaking.Books.Pairings
import Matchmaking.Judgement.FiveFactor

/-! The course of a pairing: arranging it, moving it from stage to stage, breaking it up, and
striking it from the books. Each call writes in one transaction. -/
namespace Matchmaking.Courtship

variable (h : Hazards) (today : Date)

def propose (x y : Int) (admin remark : String) (b : Books) : Except AgencyError NewPairing := do
  if x = y then throw (.objection .oneClient)
  else
    let c ← (b.fetchClient x).mapError .ofBooks
    let d ← (b.fetchClient y).mapError .ofBooks
    match coupleBy (·.profile.gender) c d with
    | none => throw (.objection .oneGender)
    | some (man, woman) =>
      if !man.isFree then throw (.unavailable man.id)
      else if !woman.isFree then throw (.unavailable woman.id)
      else
        let verdict := FiveFactor.judge today man.profile woman.profile
        pure { man := man.id, woman := woman.id, score := verdict.score, remark, admin }

def claim (id partner : Int) : Work Unit := do
  if ← .write fun b => b.attach h id partner then pure () else .fail (.collision (.taken id))

def enter (p : NewPairing) : Work Int := do
  claim h p.man p.woman
  claim h p.woman p.man
  .write fun b => b.addPairing h p

/-- Pairs two clients. Their availability is checked before the transaction and in it. -/
def arrange (x y : Int) (admin remark : String) (b : Books) : Except AgencyError Pairing × Books :=
  match propose today x y admin remark b with
  | .error e => (.error e, b)
  | .ok p =>
    match (enter h p).commit b with
    | (.error e, b) => (.error e, b)
    | (.ok id, b) => ((b.fetchPairing id).mapError .ofBooks, b)

def part (p : Pairing) : Work Unit := do
  let _ ← .write fun b => b.detach h p.man p.woman
  let _ ← .write fun b => b.detach h p.woman p.man

def whyNot (id : Int) (expected next : Stage) (b : Books) : AgencyError :=
  match b.fetchPairing id with
  | .error e => .ofBooks e
  | .ok p =>
    if p.stage ≠ expected then .wrongStage expected p.stage
    else if !p.stage.leadsTo next then .illegalMove p.stage next
    else .collision (.changed id)

def reject (id : Int) (expected next : Stage) : Work Unit := fun b =>
  (.error (whyNot id expected next b), b)

def move (id : Int) (expected next : Stage) (operator reason : String) : Work Unit := do
  if expected.leadsTo next then
    if ← .write fun b => b.moveStage h id expected next then
      let _ ← .write fun b => b.addMove h id expected next operator reason
      if next = .broken then part h (← .read fun b => b.fetchPairing id)
    else reject id expected next
  else reject id expected next

def advance (id : Int) (expected next : Stage) (operator reason : String) (b : Books) :
    Except AgencyError Pairing × Books :=
  match (move h id expected next operator reason).commit b with
  | (.error e, b) => (.error e, b)
  | (.ok _, b) => ((b.fetchPairing id).mapError .ofBooks, b)

def breakUp (id : Int) (operator reason : String) (b : Books) :
    Except AgencyError Pairing × Books :=
  match b.fetchPairing id with
  | .error e => (.error (.ofBooks e), b)
  | .ok p => advance h id p.stage .broken operator reason b

def strike (id : Int) (b : Books) : Except AgencyError Unit × Books :=
  Work.commit (do part h (← .write fun b => b.removePairing h id)) b

end Matchmaking.Courtship
