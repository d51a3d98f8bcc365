import Matchmaking.Judgement.Pair
import Matchmaking.Judgement.Verdict

/-! The verdict at a glance: ages, education seen from the client's side, and heights, with a
small random addition that breaks ties. -/
namespace Matchmaking.Glance
open Pair

def jitterLimit : Int32 := 20

def capJitter (setting : Int32) : Int32 := min jitterLimit (max 0 setting)

def drawn (setting : Int32) (draw : Nat) : Int32 :=
  .ofInt (min (draw : Int) (capJitter setting).toInt)

variable (today : Date) (client candidate : Profile)

def agePoints : Int32 :=
  match ages today client candidate with
  | none => 0
  | some (x, y) =>
    if gap x y ≤ 3 then 20 else if gap x y ≤ 5 then 10 else if 10 < gap x y then -10 else 0

def educationPoints : Int32 :=
  if educationsKnown client candidate then
    if client.education ≤ candidate.education then 15
    else if 1 < client.education - candidate.education then -5
    else 0
  else 0

def heightPoints : Int32 :=
  match couple? client candidate with
  | none => 0
  | some (man, woman) => if heightsKnown man woman && woman.height < man.height then 5 else 0

def total : Int32 :=
  60 + agePoints today client candidate + educationPoints client candidate +
    heightPoints client candidate

def reasons : List (Tag × Bool) :=
  [(.ageClose, agePoints today client candidate = 20),
    (.educationClose, educationPoints client candidate = 15),
    (.heightsFit, heightPoints client candidate = 5)]

def addSaturating (x y : Int32) : Int32 :=
  .ofInt (min Int32.maxValue.toInt (max Int32.minValue.toInt (x.toInt + y.toInt)))

def score (addition : Int32) : Int32 :=
  min 99 (max 40 (addSaturating (total today client candidate) addition))

def judge (addition : Int32) : Verdict :=
  .ofReasons (score today client candidate addition) (reasons today client candidate)

end Matchmaking.Glance
