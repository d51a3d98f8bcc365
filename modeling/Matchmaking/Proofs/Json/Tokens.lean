import Matchmaking.Json.Token
import Matchmaking.Proofs.Json.Strings
import Mathlib.Data.List.Basic

/-! The text of tokens is cut into the same tokens. A number runs up to the next character that is
no part of one, so it must be followed by a mark; every other token ends by itself. -/
namespace Matchmaking.Json.Token
open Matchmaking.Text (Decimal.write Decimal.writeNat)

def isMark : Token → Bool
  | .beginArray | .endArray | .beginObject | .endObject | .colon | .comma => true
  | _ => false

def isNumber : Token → Bool
  | .int _ | .fraction => true
  | _ => false

def EndsNumber (r : List Char) : Prop :=
  ∀ c ∈ r.head?, c.isDigit = false ∧ c ≠ '.' ∧ c ≠ 'e' ∧ c ≠ 'E'

variable {s r : List Char} {t : Token} {c : Char}

theorem endsNumber_nil : EndsNumber [] := nofun

theorem endsNumber_of_isMark (ht : t.isMark) (r : List Char) : EndsNumber (t.chars ++ r) := by
  cases t <;> simp_all [isMark, chars, EndsNumber, Char.isDigit]

/-! Numbers. -/

theorem takeWhile_isDigit (hs : ∀ c ∈ s, c.isDigit) (hr : EndsNumber r) :
    (s ++ r).takeWhile Char.isDigit = s ∧ (s ++ r).dropWhile Char.isDigit = r := by
  rw [List.takeWhile_append_of_pos hs, List.dropWhile_append_of_pos hs]
  cases r with
  | nil => simp
  | cons c r =>
    have hc : c.isDigit = false := (hr c rfl).1
    simp [hc]

theorem digits?_append (hne : s ≠ []) (hs : ∀ c ∈ s, c.isDigit) (hr : EndsNumber r) :
    digits? (s ++ r) = some (s, r) := by
  obtain ⟨htake, hdrop⟩ := takeWhile_isDigit hs hr
  rw [digits?, htake, hdrop, if_neg hne]

theorem fraction?_of_endsNumber (hr : EndsNumber r) : fraction? r = some (false, r) := by
  rw [fraction?.eq_def]
  split
  · exact absurd rfl (hr '.' rfl).2.1
  · rfl

theorem exponent?_of_endsNumber (hr : EndsNumber r) : exponent? r = some (false, r) := by
  rw [exponent?.eq_def]
  split
  · exact absurd rfl (hr 'e' rfl).2.2.1
  · exact absurd rfl (hr 'E' rfl).2.2.2
  · rfl

theorem writeNat_ne_nil (n : Nat) : Decimal.writeNat n ≠ [] := Nat.toDigits_ne_nil

theorem digitChar_ne_zero : ∀ n < 10, 0 < n → Nat.digitChar n ≠ '0' := by decide

/-- Only zero is written with a zero in front. -/
theorem head?_writeNat {n : Nat} (hn : 0 < n) : (Decimal.writeNat n).head? ≠ some '0' := by
  induction n using Nat.strongRecOn with
  | ind n ih =>
    by_cases hlt : n < 10
    · rw [Decimal.writeNat, Nat.toDigits_of_lt_base hlt]
      simpa using digitChar_ne_zero n hlt hn
    · rw [Decimal.writeNat, Nat.toDigits_of_base_le (by decide) (by omega),
        List.head?_append_of_ne_nil _ Nat.toDigits_ne_nil]
      exact ih (n / 10) (by omega) (by omega)

theorem isDigit_of_mem_writeNat {n : Nat} (hc : c ∈ Decimal.writeNat n) : c.isDigit :=
  Nat.isDigit_of_mem_toDigits (by decide) (by decide) hc

theorem whole?_writeNat (n : Nat) (hr : EndsNumber r) :
    whole? (Decimal.writeNat n ++ r) = some (Decimal.writeNat n, r) := by
  have hdigits : digits? (Decimal.writeNat n ++ r) = some (Decimal.writeNat n, r) :=
    digits?_append (writeNat_ne_nil n) (fun c hc => isDigit_of_mem_writeNat hc) hr
  obtain rfl | hn := Nat.eq_zero_or_pos n
  · rfl
  · rw [whole?.eq_def]
    split
    · rename_i s h
      have hhead : (Decimal.writeNat n ++ r).head? = (Decimal.writeNat n).head? :=
        List.head?_append_of_ne_nil _ (writeNat_ne_nil n)
      refine absurd ?_ (head?_writeNat hn)
      rw [← hhead, h, List.head?_cons]
    · exact hdigits

theorem number?_writeNat (n : Nat) (hr : EndsNumber r) :
    number? false (Decimal.writeNat n ++ r) = some (.int n, r) := by
  have hvalue : Nat.ofDigitChars 10 (Decimal.writeNat n) 0 = n :=
    Nat.ofDigitChars_toDigits (by decide) (by decide)
  simp [number?, whole?_writeNat n hr, fraction?_of_endsNumber hr, exponent?_of_endsNumber hr,
    hvalue]

theorem number?_writeNat_negative {n : Nat} (hn : 0 < n) (hr : EndsNumber r) :
    number? true (Decimal.writeNat n ++ r) = some (.int (-n), r) := by
  have hvalue : Nat.ofDigitChars 10 (Decimal.writeNat n) 0 = n :=
    Nat.ofDigitChars_toDigits (by decide) (by decide)
  simp [number?, whole?_writeNat n hr, fraction?_of_endsNumber hr, exponent?_of_endsNumber hr,
    hvalue, Nat.ne_of_gt hn]

/-- A token that begins with a digit is a number. -/
theorem next?_of_isDigit (hc : c.isDigit) : next? (c :: s) = number? false (c :: s) := by
  rw [next?]
  -- every other token begins with another character
  all_goals
    intro r h
    obtain ⟨rfl, -⟩ := List.cons.inj h
    cases hc

theorem next?_write (i : Int) (hr : EndsNumber r) :
    next? (Decimal.write i ++ r) = some (.int i, r) := by
  cases i with
  | ofNat n =>
    rw [Decimal.write]
    cases hdigits : Decimal.writeNat n with
    | nil => exact absurd hdigits (writeNat_ne_nil n)
    | cons d ds =>
      have hd : d.isDigit := isDigit_of_mem_writeNat (n := n) (by simp [hdigits])
      rw [List.cons_append, next?_of_isDigit hd, ← List.cons_append, ← hdigits,
        number?_writeNat n hr]
      rfl
  | negSucc n => exact number?_writeNat_negative n.succ_pos hr

/-! Every token is cut off by itself, and what is left is the rest. -/

theorem next?_chars (t : Token) (hr : t.isNumber → EndsNumber r) :
    next? (t.chars ++ r) = some (t, r) := by
  cases t with
  | int i => exact next?_write i (hr rfl)
  | fraction =>
    have hdigits : digits? ('5' :: r) = some (['5'], r) :=
      digits?_append (s := ['5']) (by simp) (by simp) (hr rfl)
    simp [chars, next?, number?, whole?, fraction?, hdigits, exponent?_of_endsNumber (hr rfl)]
  | string s =>
    cases s with
    | none =>
      have hunit : Text.hexUnit? 'd' '8' '0' '0' = some 0xD800 := by decide
      simp [chars, next?, string?, Text.scan, hunit, Text.assemble, Text.isHighHalf]
    | some s =>
      have hscan := Text.scan_flatMap_escape s.toList r
      simp [chars, Text.quote, next?, string?, hscan, Text.assemble_map_piece]
  | bool b => cases b <;> rfl
  | _ => rfl

theorem isSpace_of_isDigit (hc : c.isDigit) : isSpace c = false := by
  simp only [isSpace, Bool.or_eq_false_iff, beq_eq_false_iff_ne]
  refine ⟨⟨⟨?_, ?_⟩, ?_⟩, ?_⟩ <;> rintro rfl <;> cases hc

/-- No token begins with space. -/
theorem chars_eq_cons (t : Token) : ∃ c s, t.chars = c :: s ∧ isSpace c = false := by
  cases t with
  | int i =>
    cases i with
    | ofNat n =>
      cases hdigits : Decimal.writeNat n with
      | nil => exact absurd hdigits (writeNat_ne_nil n)
      | cons d ds =>
        have hd : d.isDigit := isDigit_of_mem_writeNat (n := n) (by simp [hdigits])
        exact ⟨d, ds, hdigits, isSpace_of_isDigit hd⟩
    | negSucc n => exact ⟨'-', _, rfl, rfl⟩
  | bool b => cases b <;> exact ⟨_, _, rfl, rfl⟩
  | string s => cases s <;> exact ⟨'"', _, rfl, rfl⟩
  | _ => exact ⟨_, _, rfl, rfl⟩

end Token

open Token

def Separated (ts : List Token) : Prop := ts.IsChain fun t u => t.isNumber → u.isMark

/-- A token in front of a text is cut off it. -/
theorem tokenize_chars {t : Token} {r : List Char} (hr : t.isNumber → EndsNumber r) :
    tokenize (t.chars ++ r) = (tokenize r).map (t :: ·) := by
  obtain ⟨c, s, hchars, hspace⟩ := t.chars_eq_cons
  have hnext : next? (c :: (s ++ r)) = some (t, r) := by
    rw [← List.cons_append, ← hchars, next?_chars t hr]
  have hdrop : (c :: (s ++ r)).dropWhile isSpace = c :: (s ++ r) :=
    List.dropWhile_cons_of_neg (by simp [hspace])
  rw [hchars, List.cons_append, tokenize]
  split
  · rename_i hs
    rw [hdrop] at hs
    cases hs
  · rename_i c' cs hs
    obtain ⟨rfl, rfl⟩ := List.cons.inj (hdrop.symm.trans hs)
    split
    · rename_i ht
      rw [hnext] at ht
      cases ht
    · rename_i ht
      obtain ⟨rfl, rfl⟩ := Prod.mk.inj (Option.some.inj (hnext.symm.trans ht))
      rfl

/-- The text of tokens that are separated is cut into them again. -/
theorem tokenize_flatMap_chars {ts : List Token} (hts : Separated ts) :
    tokenize (ts.flatMap chars) = some ts := by
  induction ts with
  | nil =>
    rw [List.flatMap_nil, tokenize]
    rfl
  | cons t ts ih =>
    have hend : t.isNumber → EndsNumber (ts.flatMap chars) := by
      intro ht
      cases ts with
      | nil => exact endsNumber_nil
      | cons u us =>
        have hu : u.isMark := (List.isChain_cons_cons.1 hts).1 ht
        exact endsNumber_of_isMark hu _
    rw [List.flatMap_cons, tokenize_chars hend, ih hts.of_cons, Option.map_some]

end Matchmaking.Json
