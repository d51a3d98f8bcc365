import Matchmaking.Json.Text
import Matchmaking.Text.Decimal

/-! The tokens of a JSON text, and the cutting of a text into them. -/
namespace Matchmaking.Json
open Matchmaking.Text (Decimal.write)

/-- A number that is no integer keeps no value, and a string in which half a surrogate pair stands
alone keeps no text: both are JSON, but no field accepts them. -/
inductive Token where
  | beginArray | endArray | beginObject | endObject | colon | comma
  | null
  | bool (b : Bool)
  | int (i : Int)
  | fraction
  | string (s : Option String)
deriving DecidableEq, Repr

namespace Token

def chars : Token → List Char
  | .beginArray => ['[']
  | .endArray => [']']
  | .beginObject => ['\x7b']
  | .endObject => ['\x7d']
  | .colon => [':']
  | .comma => [',']
  | .null => ['n', 'u', 'l', 'l']
  | .bool true => ['t', 'r', 'u', 'e']
  | .bool false => ['f', 'a', 'l', 's', 'e']
  | .int i => Decimal.write i
  | .fraction => ['0', '.', '5']
  | .string (some s) => Text.quote s.toList
  | .string none => ['"', '\\', 'u', 'd', '8', '0', '0', '"']

def isSpace (c : Char) : Bool := c == ' ' || c == '\n' || c == '\t' || c == '\r'

def digits? (s : List Char) : Option (List Char × List Char) :=
  if s.takeWhile Char.isDigit = [] then none
  else some (s.takeWhile Char.isDigit, s.dropWhile Char.isDigit)

def fraction? : List Char → Option (Bool × List Char)
  | '.' :: s => (digits? s).map fun (_, r) => (true, r)
  | s => some (false, s)

def dropSign : List Char → List Char
  | '+' :: s => s
  | '-' :: s => s
  | s => s

def exponent? : List Char → Option (Bool × List Char)
  | 'e' :: s | 'E' :: s => (digits? (dropSign s)).map fun (_, r) => (true, r)
  | s => some (false, s)

def whole? : List Char → Option (List Char × List Char)
  | '0' :: s => some (['0'], s)
  | s => digits? s

def number? (negative : Bool) (s : List Char) : Option (Token × List Char) := do
  let (whole, s) ← whole? s
  let (hasFraction, s) ← fraction? s
  let (hasExponent, s) ← exponent? s
  let n := Nat.ofDigitChars 10 whole 0
  -- a zero with a minus sign is no integer
  if hasFraction || hasExponent || (negative && n == 0) then pure (.fraction, s)
  else pure (.int (if negative then -(n : Int) else n), s)

def string? (s : List Char) : Option (Token × List Char) :=
  (Text.scan s).map fun (pieces, r) => (.string ((Text.assemble pieces).map String.ofList), r)

def next? : List Char → Option (Token × List Char)
  | '[' :: s => some (.beginArray, s)
  | ']' :: s => some (.endArray, s)
  | '\x7b' :: s => some (.beginObject, s)
  | '\x7d' :: s => some (.endObject, s)
  | ':' :: s => some (.colon, s)
  | ',' :: s => some (.comma, s)
  | 'n' :: 'u' :: 'l' :: 'l' :: s => some (.null, s)
  | 't' :: 'r' :: 'u' :: 'e' :: s => some (.bool true, s)
  | 'f' :: 'a' :: 'l' :: 's' :: 'e' :: s => some (.bool false, s)
  | '"' :: s => string? s
  | '-' :: s => number? true s
  | s => number? false s

variable {s r : List Char} {t : Token}

theorem length_dropWhile_le (p : Char → Bool) (s : List Char) :
    (s.dropWhile p).length ≤ s.length := by
  simpa using (List.dropWhile_sublist p (l := s)).length_le

theorem length_digits?_lt {d : List Char} (h : digits? s = some (d, r)) : r.length < s.length := by
  unfold digits? at h
  split at h
  · cases h
  · rename_i hne
    obtain ⟨rfl, rfl⟩ := by simpa using h
    have := congrArg List.length (List.takeWhile_append_dropWhile (p := Char.isDigit) (l := s))
    have hp : 0 < (s.takeWhile Char.isDigit).length := List.length_pos_iff.2 hne
    simp only [List.length_append] at this
    omega

theorem length_fraction?_le {b : Bool} (h : fraction? s = some (b, r)) : r.length ≤ s.length := by
  unfold fraction? at h
  split at h
  · obtain ⟨⟨d, r⟩, hd, he⟩ := Option.map_eq_some_iff.1 h
    have := length_digits?_lt hd
    simp_all; omega
  · simp_all

theorem length_dropSign_le (s : List Char) : (dropSign s).length ≤ s.length := by
  unfold dropSign; split <;> simp

theorem length_exponent?_le {b : Bool} (h : exponent? s = some (b, r)) : r.length ≤ s.length := by
  have key {s : List Char}
      (h : ((digits? (dropSign s)).map fun (_, r) => (true, r)) = some (b, r)) :
      r.length < s.length := by
    obtain ⟨⟨d, r⟩, hd, he⟩ := Option.map_eq_some_iff.1 h
    obtain ⟨-, rfl⟩ := by simpa using he
    exact Nat.lt_of_lt_of_le (length_digits?_lt hd) (length_dropSign_le s)
  unfold exponent? at h
  split at h
  · exact Nat.le_succ_of_le (Nat.le_of_lt (key h))
  · exact Nat.le_succ_of_le (Nat.le_of_lt (key h))
  · simp_all

theorem length_whole?_lt {d : List Char} (h : whole? s = some (d, r)) : r.length < s.length := by
  unfold whole? at h
  split at h
  · simp_all
  · exact length_digits?_lt h

theorem length_number?_lt {neg : Bool} (h : number? neg s = some (t, r)) : r.length < s.length := by
  simp only [number?, Option.bind_eq_bind, Option.bind_eq_some_iff, Prod.exists] at h
  obtain ⟨d, s₁, h₁, b, s₂, h₂, c, s₃, h₃, h⟩ := h
  have := length_whole?_lt h₁
  have := length_fraction?_le h₂
  have := length_exponent?_le h₃
  split at h <;> simp_all <;> omega

theorem length_scan_lt {p : List Text.Piece} (h : Text.scan s = some (p, r)) :
    r.length < s.length := by
  have key {u : Text.Piece} {s : List Char} {p : List Text.Piece} {r : List Char}
      (ih : ∀ {p r}, Text.scan s = some (p, r) → r.length < s.length)
      (h : ((Text.scan s).map fun (p, r) => (u :: p, r)) = some (p, r)) : r.length < s.length := by
    obtain ⟨⟨q, r⟩, hq, he⟩ := Option.map_eq_some_iff.1 h
    obtain ⟨-, rfl⟩ := by simpa using he
    exact ih hq
  fun_induction Text.scan s generalizing p r with
  | case1 => cases h
  | case2 => simp_all
  | case3 => cases h
  | case4 a b c d s n _ ih => have := key ih h; simp; omega
  | case5 => cases h
  | case6 e s c _ _ ih => have := key ih h; simp; omega
  | case7 => cases h
  | case8 c s _ _ _ _ ih => have := key ih h; simp; omega

theorem length_next?_lt (h : next? s = some (t, r)) : r.length < s.length := by
  have pass {u : Token} {p q : List Char} (hp : q.length < p.length)
      (h : some (u, q) = some (t, r)) : r.length < p.length := by
    obtain ⟨-, rfl⟩ := by simpa using h
    exact hp
  unfold next? at h
  split at h
  · exact pass (by simp) h
  · exact pass (by simp) h
  · exact pass (by simp) h
  · exact pass (by simp) h
  · exact pass (by simp) h
  · exact pass (by simp) h
  · exact pass (by simp; omega) h
  · exact pass (by simp; omega) h
  · exact pass (by simp; omega) h
  · obtain ⟨⟨q, r⟩, hq, he⟩ := Option.map_eq_some_iff.1 h
    have := length_scan_lt hq
    simp_all; omega
  · have := length_number?_lt h; simp; omega
  · exact length_number?_lt h

end Token

def tokenize (s : List Char) : Option (List Token) :=
  match _hs : s.dropWhile Token.isSpace with
  | [] => some []
  | c :: cs =>
    match _ht : Token.next? (c :: cs) with
    | none => none
    | some (t, r) => (tokenize r).map (t :: ·)
termination_by s.length
decreasing_by
  have h₁ := Token.length_next?_lt _ht
  have h₂ := Token.length_dropWhile_le Token.isSpace s
  rw [_hs] at h₂
  exact Nat.lt_of_lt_of_le h₁ h₂

end Matchmaking.Json
