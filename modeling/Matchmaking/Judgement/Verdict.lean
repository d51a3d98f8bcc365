import Matchmaking.Vocabulary

/-! A score, the reasons given for it, and the grade it is shown as. -/
namespace Matchmaking

inductive Tag where
  | ageClose | educationClose | heightsFit | maritalAlike | incomeClose
  | bothHoused | bothDriving | worthATry
deriving DecidableEq, Repr

instance : Vocabulary Tag where
  all := [.ageClose, .educationClose, .heightsFit, .maritalAlike, .incomeClose,
    .bothHoused, .bothDriving, .worthATry]
  word
    | .ageClose => "similar age"
    | .educationClose => "comparable education"
    | .heightsFit => "height match"
    | .maritalAlike => "same marital background"
    | .incomeClose => "similar income"
    | .bothHoused => "both own property"
    | .bothDriving => "both own a car"
    | .worthATry => "worth trying"

instance : Vocabulary.Lawful Tag := ⟨fun a => by cases a <;> rfl⟩

inductive Grade where
  | perfect | good | average | poor
deriving DecidableEq, Repr

instance : Vocabulary Grade where
  all := [.perfect, .good, .average, .poor]
  word
    | .perfect => "perfect"
    | .good => "good"
    | .average => "average"
    | .poor => "poor"

instance : Vocabulary.Lawful Grade := ⟨fun a => by cases a <;> rfl⟩

def Grade.ofScore (score : Int32) : Grade :=
  if 85 ≤ score then .perfect
  else if 70 ≤ score then .good
  else if 55 ≤ score then .average
  else .poor

structure Verdict where
  score : Int32
  tags : List String
deriving DecidableEq, Repr

namespace Verdict

def tagsOf (reasons : List (Tag × Bool)) : List Tag :=
  let tags := (reasons.filter (·.2)).map (·.1)
  if tags = [] then [.worthATry] else tags

def ofReasons (score : Int32) (reasons : List (Tag × Bool)) : Verdict :=
  ⟨score, (tagsOf reasons).map Vocabulary.word⟩

def grade (v : Verdict) : Grade := .ofScore v.score
def mentions (v : Verdict) (tag : String) : Bool := v.tags.contains tag

end Verdict

end Matchmaking
