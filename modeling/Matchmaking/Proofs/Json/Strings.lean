import Matchmaking.Json.Text

/-! Quoted strings are read back. Every character is, whatever escape it is written with, and the
closing quote is the only one that is not escaped. -/
namespace Matchmaking.Json.Text

def piece (c : Char) : Piece :=
  if c < ' ' ∧ c ∉ ['\x08', '\x0c', '\n', '\r', '\t'] then .unit c.toNat else .char c

theorem hexValue?_digitChar : ∀ n < 16, hexValue? (Nat.digitChar n) = some n := by decide

theorem toNat_lt_of_lt_space {c : Char} (hc : c < ' ') : c.toNat < 32 := hc

theorem hexUnit?_digitChar {n : Nat} (hn : n < 256) :
    hexUnit? '0' '0' (Nat.digitChar (n / 16)) (Nat.digitChar (n % 16)) = some n := by
  have hzero : hexValue? '0' = some 0 := rfl
  have hhigh := hexValue?_digitChar (n / 16) (by omega)
  have hlow := hexValue?_digitChar (n % 16) (by omega)
  have hsum : 0 * 0x1000 + 0 * 0x100 + n / 16 * 0x10 + n % 16 = n := by omega
  rw [hexUnit?, hzero, hhigh, hlow]
  exact congrArg some hsum

/-- A character that is not escaped is read as itself. -/
theorem scan_cons {c : Char} {r : List Char} (hquote : c ≠ '"') (hslash : c ≠ '\\')
    (hc : ¬c < ' ') : scan (c :: r) = (scan r).map fun (p, r) => (.char c :: p, r) := by
  rw [scan.eq_def]
  split
  · rename_i h
    cases h
  · rename_i h
    exact absurd (List.cons.inj h).1 hquote
  · rename_i h
    exact absurd (List.cons.inj h).1 hslash
  · rename_i h
    exact absurd (List.cons.inj h).1 hslash
  · rename_i h
    obtain ⟨rfl, rfl⟩ := List.cons.inj h
    rw [if_neg hc]

theorem scan_escape (c : Char) (r : List Char) :
    scan (escape c ++ r) = (scan r).map fun (p, r) => (piece c :: p, r) := by
  by_cases hshort : c ∈ ['"', '\\', '\x08', '\x0c', '\n', '\r', '\t']
  · simp only [List.mem_cons, List.not_mem_nil, or_false] at hshort
    obtain rfl | rfl | rfl | rfl | rfl | rfl | rfl := hshort <;> rfl
  · simp only [List.mem_cons, List.not_mem_nil, or_false, not_or] at hshort
    obtain ⟨hquote, hslash, hb, hf, hn, hr, ht⟩ := hshort
    by_cases hc : c < ' '
    · have hunit := hexUnit?_digitChar (n := c.toNat) (by have := toNat_lt_of_lt_space hc; omega)
      simp [escape, piece, scan, *]
    · simp [escape, piece, scan_cons, *]

theorem scan_flatMap_escape (s r : List Char) :
    scan (s.flatMap escape ++ '"' :: r) = some (s.map piece, r) := by
  induction s with
  | nil => simp [scan]
  | cons c s ih => simp [scan_escape, ih]

theorem assemble_unit {n : Nat} (hn : n < 32) (ps : List Piece) :
    assemble (.unit n :: ps) = (assemble ps).map (.ofNat n :: ·) := by
  have hhigh : isHighHalf n = false := by simp [isHighHalf]; omega
  have hlow : isLowHalf n = false := by simp [isLowHalf]; omega
  cases ps with
  | nil => simp [assemble, hhigh, hlow]
  | cons p ps => cases p <;> simp [assemble, hhigh, hlow]

theorem assemble_map_piece (s : List Char) : assemble (s.map piece) = some s := by
  induction s with
  | nil => rfl
  | cons c s ih =>
    rw [List.map_cons, piece]
    split
    · rename_i hc
      rw [assemble_unit (toNat_lt_of_lt_space hc.1), ih, Char.ofNat_toNat, Option.map_some]
    · rw [assemble, ih, Option.map_some]

end Matchmaking.Json.Text
