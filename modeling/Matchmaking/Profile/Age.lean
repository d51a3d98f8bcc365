import Matchmaking.Calendar
import Matchmaking.Profile
import Matchmaking.Text.Blank
import Matchmaking.Text.Cut
import Matchmaking.Text.Decimal

/-! The age of a client on a date. -/
namespace Matchmaking
open Text

def readYearMonth (s : String) : Option (Int32 × Int32) := do
  let (year, month) ← cut '-' (trim s.toList)
  let year ← Decimal.readInt32 year
  let month ← Decimal.readInt32 month
  if 1 ≤ month ∧ month ≤ 12 then some (year, month) else none

def Profile.ageOn (p : Profile) (today : Date) : Option Int32 :=
  if 0 < p.age then some p.age
  else do
    let (year, month) ← readYearMonth (← p.birthMonth)
    let years := Int32.ofNat today.year - year
    let age := if Int32.ofNat today.month < month then years - 1 else years
    if 1 ≤ age ∧ age ≤ 120 then some age else none

end Matchmaking
