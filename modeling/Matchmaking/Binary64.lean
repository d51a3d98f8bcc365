/-! Binary64 arithmetic on rationals: the exact result of an operation, rounded to 53 significant
bits. Results stay in the normal range, so the exponent needs no bound. -/
namespace Matchmaking.Binary64

def roundHalfEven (x : Rat) : Int :=
  let n := x.floor
  let r := x - n
  if r < 1/2 ∨ r = 1/2 ∧ n % 2 = 0 then n else n + 1

def roundHalfAway (x : Rat) : Int :=
  if 0 ≤ x then (x + 1/2).floor else -(-x + 1/2).floor

/-- The exponent `e` with `2 ^ e ≤ |x| < 2 ^ (e + 1)`, for `x ≠ 0`. -/
def magnitude (x : Rat) : Int :=
  let e : Int := (x.num.natAbs.log2 : Int) - x.den.log2
  if (2 : Rat) ^ e ≤ x.abs then e else e - 1

def ulp (x : Rat) : Rat := 2 ^ (magnitude x - 52)

def round (x : Rat) : Rat :=
  if x = 0 then 0 else roundHalfEven (x / ulp x) * ulp x

def ofInt (i : Int) : Rat := round i
def add (x y : Rat) : Rat := round (x + y)
def sub (x y : Rat) : Rat := round (x - y)
def mul (x y : Rat) : Rat := round (x * y)
def div (x y : Rat) : Rat := round (x / y)

example : round (3/10) = 5404319552844595 / 2 ^ 54 := by decide +kernel
example : ofInt (2 ^ 53 + 1) = 2 ^ 53 ∧ ofInt (2 ^ 53 + 3) = 2 ^ 53 + 4 := by decide +kernel
example : round (-1/3) = -6004799503160661 / 2 ^ 54 := by decide +kernel

end Matchmaking.Binary64
