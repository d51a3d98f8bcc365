import Matchmaking.Binary64
import Matchmaking.Judgement.Pair
import Matchmaking.Judgement.Verdict

/-! The precise verdict on a pair: five factors, weighted and added in binary64. It does not
matter who of the two is named first. -/
namespace Matchmaking.FiveFactor
open Pair

variable (today : Date) (a b : Profile)

def idealHeights (man woman : Profile) : Bool :=
  10 ≤ man.height - woman.height && man.height - woman.height ≤ 20

def heightPoints : Int32 :=
  match couple? a b with
  | none => 0
  | some (man, woman) =>
    if heightsKnown man woman && woman.height < man.height then
      if idealHeights man woman then 30 else 20
    else 0

def maritalPoints : Int32 :=
  if a.marital = b.marital then 15
  else if a.marital = .unmarried ∨ b.marital = .unmarried then -5
  else 0

def personPoints : Int32 := heightPoints a b + maritalPoints a b

def agePoints : Int32 :=
  match couple? a b with
  | none => 0
  | some (man, woman) =>
    match ages today man woman with
    | none => 0
    | some (x, y) =>
      if y ≤ x then
        if 12 < gap x y then -20
        else if 1 ≤ gap x y ∧ gap x y ≤ 5 then 30
        else 20
      else if gap x y ≤ 3 then 5
      else if 8 < gap x y then -20
      else -5

def educationPoints : Int32 :=
  if educationsKnown a b then
    let steps := gap a.education b.education
    if steps = 0 then 30 else if steps = 1 then 15 else if steps = 2 then 0 else -15
  else 0

def incomeGap : Option Rat :=
  if incomesKnown a b then
    let high := Binary64.ofInt (max a.monthlyIncome.toInt b.monthlyIncome.toInt)
    let low := Binary64.ofInt (min a.monthlyIncome.toInt b.monthlyIncome.toInt)
    some (Binary64.div (Binary64.sub high low) high)
  else none

def incomePoints : Int32 :=
  match incomeGap a b with
  | none => 5
  | some r =>
    if r ≤ Binary64.round (3/10) then 30
    else if r ≤ Binary64.round (1/2) then 15
    else if r ≤ Binary64.round (4/5) then -10
    else -20

def shared (both one : Int32) : Bool → Bool → Int32
  | true, true => both
  | false, false => 0
  | _, _ => one

def belongingsPoints : Int32 :=
  shared 20 10 a.housing.isOwner b.housing.isOwner + shared 10 5 a.hasCar b.hasCar

/-- The factors with their weights, in the order in which they are added. -/
def factors : List (Rat × Int32) :=
  [(2/5, personPoints a b), (1/5, agePoints today a b), (3/20, educationPoints a b),
    (3/20, incomePoints a b), (1/10, belongingsPoints a b)]

def total : Rat :=
  (factors today a b).foldl (fun sum (weight, points) =>
    Binary64.add sum (Binary64.mul (Binary64.round weight) (Binary64.ofInt points.toInt))) 50

def score : Int32 :=
  .ofInt (min 100 (max 0 (Binary64.roundHalfAway (total today a b))))

def agesClose : Bool :=
  match ages today a b with
  | none => false
  | some (x, y) => gap x y ≤ 3

def educationsClose : Bool := educationsKnown a b && gap a.education b.education ≤ 1

def heightsFit : Bool :=
  match couple? a b with
  | none => false
  | some (man, woman) => heightsKnown man woman && idealHeights man woman

def incomesClose : Bool :=
  match incomeGap a b with
  | none => false
  | some r => r ≤ Binary64.round (3/10)

def reasons : List (Tag × Bool) :=
  [(.ageClose, agesClose today a b),
    (.educationClose, educationsClose a b),
    (.heightsFit, heightsFit a b),
    (.maritalAlike, a.marital = b.marital),
    (.incomeClose, incomesClose a b),
    (.bothHoused, a.housing.isOwner && b.housing.isOwner),
    (.bothDriving, a.hasCar && b.hasCar)]

def judge : Verdict := .ofReasons (score today a b) (reasons today a b)

end Matchmaking.FiveFactor
