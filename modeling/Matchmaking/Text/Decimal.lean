/-! Integers in decimal digits: writing them, and reading them with an optional sign. -/
namespace Matchmaking.Text.Decimal

def writeNat (n : Nat) : List Char := Nat.toDigits 10 n

def write : Int → List Char
  | .ofNat n => writeNat n
  | .negSucc n => '-' :: writeNat (n + 1)

def readDigits (s : List Char) : Option Nat :=
  if s ≠ [] ∧ s.all Char.isDigit then some (Nat.ofDigitChars 10 s 0) else none

def readNat : List Char → Option Nat
  | '+' :: s => readDigits s
  | s => readDigits s

def readInt : List Char → Option Int
  | '-' :: s => (readDigits s).map fun n => -(n : Int)
  | s => (readNat s).map Int.ofNat

def readUInt32 (s : List Char) : Option UInt32 :=
  ((readNat s).filter (· < UInt32.size)).map UInt32.ofNat

def readUInt64 (s : List Char) : Option UInt64 :=
  ((readNat s).filter (· < UInt64.size)).map UInt64.ofNat

def readInt32 (s : List Char) : Option Int32 :=
  ((readInt s).filter fun i => Int32.minValue.toInt ≤ i ∧ i ≤ Int32.maxValue.toInt).map Int32.ofInt

end Matchmaking.Text.Decimal
