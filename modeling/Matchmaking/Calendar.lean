import Matchmaking.Text.Decimal

/-! Calendar dates of the years 0 to 9999. -/
namespace Matchmaking

def isLeapYear (year : Nat) : Bool := year % 4 == 0 && (year % 100 != 0 || year % 400 == 0)

def daysIn (year month : Nat) : Nat :=
  if month = 2 then (if isLeapYear year then 29 else 28)
  else if month ∈ [4, 6, 9, 11] then 30 else 31

structure Date where
  year : Nat
  month : Nat
  day : Nat
  year_lt : year < 10000
  month_mem : 1 ≤ month ∧ month ≤ 12
  day_mem : 1 ≤ day ∧ day ≤ daysIn year month
deriving DecidableEq

namespace Date

def ofParts? (year month day : Nat) : Option Date :=
  if h : year < 10000 ∧ (1 ≤ month ∧ month ≤ 12) ∧ 1 ≤ day ∧ day ≤ daysIn year month then
    some ⟨year, month, day, h.1, h.2.1, h.2.2⟩
  else none

def parse? (s : String) : Option Date :=
  match s.toList with
  | [y₁, y₂, y₃, y₄, '-', m₁, m₂, '-', d₁, d₂] => do
    let year ← Text.Decimal.readDigits [y₁, y₂, y₃, y₄]
    let month ← Text.Decimal.readDigits [m₁, m₂]
    let day ← Text.Decimal.readDigits [d₁, d₂]
    ofParts? year month day
  | _ => none

end Date

end Matchmaking
