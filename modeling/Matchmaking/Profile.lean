import Matchmaking.Vocabulary

/-! What a client tells about themselves. -/
namespace Matchmaking

inductive Gender where
  | male | female
deriving DecidableEq, Repr

def Gender.other : Gender → Gender
  | .male => .female
  | .female => .male

inductive MaritalBackground where
  | unmarried | married | divorced | widowed
deriving DecidableEq, Repr

inductive Housing where
  | none | owned | mortgaged
deriving DecidableEq, Repr

def Housing.isOwner : Housing → Bool
  | .none => false
  | .owned | .mortgaged => true

instance : Vocabulary Gender where
  all := [.male, .female]
  word
    | .male => "male"
    | .female => "female"

instance : Vocabulary MaritalBackground where
  all := [.unmarried, .married, .divorced, .widowed]
  word
    | .unmarried => "unmarried"
    | .married => "married"
    | .divorced => "divorced"
    | .widowed => "widowed"

instance : Vocabulary Housing where
  all := [.none, .owned, .mortgaged]
  word
    | .none => "none"
    | .owned => "owned"
    | .mortgaged => "mortgaged"

instance : Vocabulary.Lawful Gender := ⟨fun a => by cases a <;> rfl⟩
instance : Vocabulary.Lawful MaritalBackground := ⟨fun a => by cases a <;> rfl⟩
instance : Vocabulary.Lawful Housing := ⟨fun a => by cases a <;> rfl⟩

/-- The attributes of a client. A number that is zero or less is unknown; `birthMonth` is the
text of a year and month, used when no age is recorded. -/
structure Profile where
  name : String
  gender : Gender
  age : Int32 := 0
  birthMonth : Option String := none
  height : Int32 := 0
  education : Int32 := 0
  marital : MaritalBackground := .unmarried
  monthlyIncome : Int64 := 0
  housing : Housing := .none
  hasCar : Bool := false
  avatar : Option String := none
deriving DecidableEq, Repr

end Matchmaking
