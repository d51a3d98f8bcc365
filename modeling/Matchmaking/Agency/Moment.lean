import Matchmaking.Calendar

/-! What a call takes from outside the books. -/
namespace Matchmaking

/-- The date and the second of the clock, the draw of the dice for a client and a candidate, and
a name for the run. -/
structure Moment where
  today : Date
  now : Int64
  draw : Int → Int → Nat := fun _ _ => 0
  token : String := ""

end Matchmaking
