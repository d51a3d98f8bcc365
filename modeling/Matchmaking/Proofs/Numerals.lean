import Matchmaking.Text.Blank
import Matchmaking.Text.Decimal
import Mathlib.Algebra.Group.Nat.Defs
import Mathlib.Data.List.TakeWhile

/-! What is left of a text when the blanks around it are cut off, and which texts are numbers. Each
reader is described by the texts that it accepts, with the number that each of them is. -/
namespace Matchmaking.Text

/-! Blanks. -/

structure IsBare (s : List Char) : Prop where
  head : ∀ c ∈ s.head?, isBlank c = false
  last : ∀ c ∈ s.getLast?, isBlank c = false

def IsPadded (s t : List Char) : Prop :=
  ∃ before after, s = before ++ (t ++ after) ∧ (∀ c ∈ before, isBlank c) ∧ ∀ c ∈ after, isBlank c

variable {s t before after : List Char}

theorem trimStart_append (hb : ∀ c ∈ before, isBlank c) (hs : ∀ c ∈ s.head?, isBlank c = false) :
    trimStart (before ++ s) = s := by
  rw [trimStart, List.dropWhile_append_of_pos hb]
  cases s with
  | nil => rfl
  | cons c s => exact List.dropWhile_cons_of_neg (by simp [hs c rfl])

theorem trimEnd_append (ha : ∀ c ∈ after, isBlank c) (hs : ∀ c ∈ s.getLast?, isBlank c = false) :
    trimEnd (s ++ after) = s := by
  rw [trimEnd, List.reverse_append, trimStart_append, List.reverse_reverse]
  · exact fun c hc => ha c (List.mem_reverse.1 hc)
  · exact fun c hc => hs c (List.head?_reverse ▸ hc)

theorem exists_trimStart (s : List Char) :
    ∃ before, s = before ++ trimStart s ∧ ∀ c ∈ before, isBlank c :=
  ⟨s.takeWhile isBlank, List.takeWhile_append_dropWhile.symm, fun _ => List.mem_takeWhile_imp⟩

theorem exists_trimEnd (s : List Char) :
    ∃ after, s = trimEnd s ++ after ∧ ∀ c ∈ after, isBlank c := by
  obtain ⟨before, hs, hb⟩ := exists_trimStart s.reverse
  refine ⟨before.reverse, ?_, fun c hc => hb c (List.mem_reverse.1 hc)⟩
  rw [trimEnd, ← List.reverse_append, ← hs, List.reverse_reverse]

theorem head_trimStart : ∀ c ∈ (trimStart s).head?, isBlank c = false := by
  intro c hc
  have hhead := List.head?_dropWhile_not isBlank s
  rw [trimStart] at hc
  rw [Option.mem_def.1 hc] at hhead
  exact hhead

theorem isBare_trim (s : List Char) : IsBare (trim s) where
  head c hc := by
    obtain ⟨after, hs, -⟩ := exists_trimEnd (trimStart s)
    have hfirst : (trimEnd (trimStart s)).head? = some c := hc
    refine head_trimStart (s := s) c ?_
    rw [hs, List.head?_append, hfirst]
    rfl
  last c hc := by
    rw [trim, trimEnd, List.getLast?_reverse] at hc
    exact head_trimStart c hc

/-- Blanks are cut off at both ends, and no others. -/
theorem trim_eq_iff : trim s = t ↔ IsBare t ∧ IsPadded s t := by
  constructor
  · rintro rfl
    obtain ⟨before, hs, hb⟩ := exists_trimStart s
    obtain ⟨after, hs', ha⟩ := exists_trimEnd (trimStart s)
    exact ⟨isBare_trim s, before, after, hs.trans (congrArg _ hs'), hb, ha⟩
  · rintro ⟨ht, before, after, rfl, hb, ha⟩
    cases t with
    | nil =>
      rw [List.nil_append, trim, ← List.append_nil (before ++ after), trimStart_append]
      · rfl
      · exact fun c hc => (List.mem_append.1 hc).elim (hb c) (ha c)
      · exact nofun
    | cons c t =>
      have hstart : trimStart (before ++ (c :: t ++ after)) = c :: t ++ after :=
        trimStart_append hb ht.head
      rw [trim, hstart, trimEnd_append ha ht.last]

/-- Once the blanks are cut off, there are none left to cut. -/
theorem trim_trim (s : List Char) : trim (trim s) = trim s :=
  trim_eq_iff.2 ⟨isBare_trim s, [], [], (List.append_nil _).symm, nofun, nofun⟩

theorem toList_trimString (s : String) : (trimString s).toList = trim s.toList :=
  String.toList_ofList

theorem trimString_trimString (s : String) : trimString (trimString s) = trimString s := by
  rw [trimString, toList_trimString, trim_trim, trimString]

theorem isBare_of_forall (hs : ∀ c ∈ s, isBlank c = false) : IsBare s :=
  ⟨fun c hc => hs c (List.mem_of_mem_head? hc), fun c hc => hs c (List.mem_of_getLast? hc)⟩

theorem IsPadded.trim_eq (hs : IsPadded s t) (ht : ∀ c ∈ t, isBlank c = false) : trim s = t :=
  trim_eq_iff.2 ⟨isBare_of_forall ht, hs⟩

theorem toNat_mem_of_isDigit {c : Char} (hc : c.isDigit) : 48 ≤ c.toNat ∧ c.toNat ≤ 57 := by
  simpa [Char.isDigit_iff_toNat] using hc

theorem isBlank_of_isDigit {c : Char} (hc : c.isDigit) : isBlank c = false := by
  obtain ⟨hlow, hhigh⟩ := toNat_mem_of_isDigit hc
  simp [isBlank, blankRanges]
  omega

/-! Numbers. -/

namespace Decimal

structure Digits (s : List Char) (n : Nat) : Prop where
  ne_nil : s ≠ []
  digits : ∀ c ∈ s, c.isDigit
  value : Nat.ofDigitChars 10 s 0 = n

inductive Unsigned : List Char → Nat → Prop
  | plain {s : List Char} {n : Nat} (h : Digits s n) : Unsigned s n
  | plus {s : List Char} {n : Nat} (h : Digits s n) : Unsigned ('+' :: s) n

inductive Numeral : List Char → Int → Prop
  | unsigned {s : List Char} {n : Nat} (h : Unsigned s n) : Numeral s n
  | minus {s : List Char} {n : Nat} (h : Digits s n) : Numeral ('-' :: s) (-n)

variable {n : Nat} {i : Int}

theorem readDigits_eq_some_iff : readDigits s = some n ↔ Digits s n := by
  simp only [readDigits, Option.ite_none_right_eq_some, List.all_eq_true, Option.some.injEq]
  constructor
  · rintro ⟨⟨hne, hd⟩, hv⟩
    exact ⟨hne, hd, hv⟩
  · exact fun h => ⟨⟨h.ne_nil, h.digits⟩, h.value⟩

theorem Digits.notMem {c : Char} (hc : c.isDigit = false) (h : Digits s n) : c ∉ s := by
  intro hmem
  rw [h.digits c hmem] at hc
  cases hc

theorem Digits.head_ne {c : Char} (hc : c.isDigit = false) : ¬Digits (c :: s) n :=
  fun h => h.notMem hc List.mem_cons_self

theorem Digits.lt_pow (h : Digits s n) : n < 10 ^ s.length := by
  obtain ⟨-, hdigits, rfl⟩ := h
  induction s with
  | nil => exact Nat.one_pos
  | cons c s ih =>
    have hrest := ih fun d hd => hdigits d (List.mem_cons_of_mem c hd)
    have hdigit : 10 * 0 + (c.toNat - 48) ≤ 9 := by
      have hc := toNat_mem_of_isDigit (hdigits c List.mem_cons_self)
      omega
    rw [Nat.ofDigitChars_cons, Nat.ofDigitChars_eq_ofDigitChars_zero]
    calc 10 ^ s.length * (10 * 0 + (c.toNat - 48)) + Nat.ofDigitChars 10 s 0
        < 10 ^ s.length * 9 + 10 ^ s.length :=
          Nat.add_lt_add_of_le_of_lt (Nat.mul_le_mul_left _ hdigit) hrest
      _ = 10 ^ (c :: s).length := rfl

theorem readNat_eq_some_iff : readNat s = some n ↔ Unsigned s n := by
  rw [readNat.eq_def]
  split
  · rename_i t
    rw [readDigits_eq_some_iff]
    refine ⟨.plus, fun h => ?_⟩
    cases h with
    | plain h => exact absurd h (Digits.head_ne rfl)
    | plus h => exact h
  · rename_i hplus
    rw [readDigits_eq_some_iff]
    refine ⟨.plain, fun h => ?_⟩
    cases h with
    | plain h => exact h
    | plus h => exact absurd rfl (hplus _)

theorem readInt_eq_some_iff : readInt s = some i ↔ Numeral s i := by
  rw [readInt.eq_def]
  split
  · rename_i t
    simp only [Option.map_eq_some_iff, Option.bind_eq_bind, Option.bind_eq_some_iff,
      readDigits_eq_some_iff]
    constructor
    · rintro ⟨_, ⟨n, hn, ⟨⟩⟩, rfl⟩
      exact .minus hn
    · intro h
      cases h with
      | unsigned h => cases h with
        | plain h => exact absurd h (Digits.head_ne rfl)
      | minus h => exact ⟨_, ⟨_, h, rfl⟩, rfl⟩
  · rename_i hminus
    simp only [Option.map_eq_some_iff, readNat_eq_some_iff]
    constructor
    · rintro ⟨n, hn, rfl⟩
      exact .unsigned hn
    · intro h
      cases h with
      | unsigned h => exact ⟨_, h, rfl⟩
      | minus h => exact absurd rfl (hminus _)

theorem readUInt32_eq_some_iff {u : UInt32} : readUInt32 s = some u ↔ Unsigned s u.toNat := by
  rw [readUInt32, Option.map_eq_some_iff]
  constructor
  · rintro ⟨n, hn, rfl⟩
    obtain ⟨hread, hlt⟩ := Option.filter_eq_some_iff.1 hn
    rw [UInt32.toNat_ofNat_of_lt' (of_decide_eq_true hlt)]
    exact readNat_eq_some_iff.1 hread
  · intro h
    refine ⟨u.toNat, Option.filter_eq_some_iff.2 ⟨readNat_eq_some_iff.2 h, ?_⟩, ?_⟩
    · exact decide_eq_true u.toNat_lt_size
    · exact UInt32.ofNat_toNat

theorem readInt32_eq_some_iff {j : Int32} : readInt32 s = some j ↔ Numeral s j.toInt := by
  rw [readInt32, Option.map_eq_some_iff]
  constructor
  · rintro ⟨i, hi, rfl⟩
    obtain ⟨hread, hrange⟩ := Option.filter_eq_some_iff.1 hi
    obtain ⟨hlow, hhigh⟩ := of_decide_eq_true hrange
    have hmin : Int32.minValue.toInt = -2 ^ 31 := rfl
    have hmax : Int32.maxValue.toInt = 2 ^ 31 - 1 := rfl
    rw [Int32.toInt_ofInt_of_le (by omega) (by omega)]
    exact readInt_eq_some_iff.1 hread
  · intro h
    refine ⟨j.toInt, Option.filter_eq_some_iff.2 ⟨readInt_eq_some_iff.2 h, ?_⟩, ?_⟩
    · exact decide_eq_true ⟨j.minValue_le_toInt, j.toInt_le⟩
    · exact Int32.ofInt_toInt j

/-! No number has a blank in it, and one without a minus sign is not negative. -/

theorem Digits.isBlank_eq_false (h : Digits s n) : ∀ c ∈ s, isBlank c = false :=
  fun c hc => isBlank_of_isDigit (h.digits c hc)

theorem Unsigned.isBlank_eq_false (h : Unsigned s n) : ∀ c ∈ s, isBlank c = false := by
  cases h with
  | plain h => exact h.isBlank_eq_false
  | plus h => exact List.forall_mem_cons.2 ⟨by decide, h.isBlank_eq_false⟩

theorem Numeral.isBlank_eq_false (h : Numeral s i) : ∀ c ∈ s, isBlank c = false := by
  cases h with
  | unsigned h => exact h.isBlank_eq_false
  | minus h => exact List.forall_mem_cons.2 ⟨by decide, h.isBlank_eq_false⟩

theorem Numeral.nonneg (h : Numeral s i) (hs : '-' ∉ s) : 0 ≤ i := by
  cases h with
  | unsigned h => exact Int.natCast_nonneg _
  | minus h => exact absurd List.mem_cons_self hs

end Decimal

end Matchmaking.Text
