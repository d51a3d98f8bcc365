import Matchmaking.Profile
import Matchmaking.Text.Blank
import Matchmaking.Text.Cut
import Matchmaking.Text.Decimal

/-! Which profiles are taken in: a name of 1 to 64 characters, numbers in their ranges (zero is
unknown), and a birth month that reads as a four-digit year and a month. -/
namespace Matchmaking
open Text

inductive Field where
  | name | age | height | education | monthlyIncome
deriving DecidableEq, Repr

def Field.label : Field → String
  | .name => "name"
  | .age => "age"
  | .height => "height"
  | .education => "education"
  | .monthlyIncome => "monthly income"

inductive BirthMonthFault where
  | noDash
  | year
  | month
  | monthOutOfRange (month : UInt32)
deriving DecidableEq, Repr

def BirthMonthFault.message : BirthMonthFault → String
  | .noDash => "expected YYYY-MM"
  | .year => "year must be four digits"
  | .month => "month must be a number"
  | .monthOutOfRange m => s!"month {m.toNat} out of range"

inductive ProfileError where
  | missing (field : Field)
  | overlong (field : Field) (limit length : Nat)
  | outside (field : Field) (low high value : Int)
  | birthMonth (fault : BirthMonthFault)
deriving DecidableEq, Repr

def ProfileError.message : ProfileError → String
  | .missing f => s!"{f.label} cannot be empty"
  | .overlong f limit length => s!"{f.label} is too long ({length} chars, max {limit})"
  | .outside f low high value => s!"{f.label} must be between {low} and {high} (got {value})"
  | .birthMonth fault => s!"Invalid birth year-month: {fault.message}"

namespace Profile

def nameLimit : Nat := 64
def ageLimit : Int := 120
def heightLimit : Int := 250
def educationLimit : Int := 5
def incomeLimit : Int := Int64.maxValue.toInt

def checkName (name : String) : Except ProfileError Unit :=
  let length := (trim name.toList).length
  if length = 0 then throw (.missing .name)
  else if nameLimit < length then throw (.overlong .name nameLimit length)
  else pure ()

/-- The month is any number from 1 to 12, with or without a plus sign and leading zeros. -/
def checkBirthMonth (s : String) : Except ProfileError Unit :=
  match cut '-' (trim s.toList) with
  | none => throw (.birthMonth .noDash)
  | some (year, month) =>
    if ¬(year.length = 4 ∧ year.all Char.isDigit) then throw (.birthMonth .year)
    else match Decimal.readUInt32 month with
      | none => throw (.birthMonth .month)
      | some m => if 1 ≤ m ∧ m ≤ 12 then pure () else throw (.birthMonth (.monthOutOfRange m))

def within (field : Field) (low high value : Int) : Except ProfileError Unit :=
  if low ≤ value ∧ value ≤ high then pure () else throw (.outside field low high value)

def check (p : Profile) : Except ProfileError Unit := do
  checkName p.name
  within .age 0 ageLimit p.age.toInt
  within .height 0 heightLimit p.height.toInt
  within .education 0 educationLimit p.education.toInt
  within .monthlyIncome 0 incomeLimit p.monthlyIncome.toInt
  match p.birthMonth with
  | none => pure ()
  | some s => checkBirthMonth s

def normalize (p : Profile) : Profile := { p with name := trimString p.name }

end Profile

end Matchmaking
