/-! Blank characters, and texts with the blanks at both ends cut off. -/
namespace Matchmaking.Text

/-- The Unicode White_Space characters, as ranges of code points. -/
def blankRanges : List (Nat × Nat) :=
  [(0x9, 0xD), (0x20, 0x20), (0x85, 0x85), (0xA0, 0xA0), (0x1680, 0x1680), (0x2000, 0x200A),
    (0x2028, 0x2029), (0x202F, 0x202F), (0x205F, 0x205F), (0x3000, 0x3000)]

def isBlank (c : Char) : Bool :=
  blankRanges.any fun (lo, hi) => lo ≤ c.toNat && c.toNat ≤ hi

variable (s : List Char)

def trimStart : List Char := s.dropWhile isBlank
def trimEnd : List Char := (trimStart s.reverse).reverse

def trim : List Char := trimEnd (trimStart s)

def trimString (s : String) : String := String.ofList (trim s.toList)

example : (blankRanges.map fun (lo, hi) => hi + 1 - lo).sum = 25 := by decide

end Matchmaking.Text
