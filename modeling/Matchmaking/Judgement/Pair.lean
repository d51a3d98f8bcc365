import Matchmaking.Profile.Age

/-! What can be compared in a pair. -/
namespace Matchmaking

section
variable {α : Type} (gender : α → Gender) (x y : α)

def coupleBy : Option (α × α) :=
  match gender x, gender y with
  | .male, .female => some (x, y)
  | .female, .male => some (y, x)
  | _, _ => none

def areOpposite : Bool := (coupleBy gender x y).isSome

theorem coupleBy_comm : coupleBy gender x y = coupleBy gender y x := by
  unfold coupleBy; cases gender x <;> cases gender y <;> rfl

theorem areOpposite_iff : areOpposite gender x y ↔ gender y = (gender x).other := by
  unfold areOpposite coupleBy; cases gender x <;> cases gender y <;> simp [Gender.other]

end

namespace Pair

def gap (x y : Int32) : Int32 := (x - y).abs

variable (today : Date) (a b : Profile)

def couple? : Option (Profile × Profile) := coupleBy Profile.gender a b

def ages : Option (Int32 × Int32) := do
  let x ← a.ageOn today
  let y ← b.ageOn today
  pure (x, y)

def educationsKnown : Bool := 0 < a.education && 0 < b.education
def heightsKnown : Bool := 0 < a.height && 0 < b.height
def incomesKnown : Bool := 0 < a.monthlyIncome && 0 < b.monthlyIncome

end Pair

end Matchmaking
