import Matchmaking.Binary64
import Mathlib.Algebra.Order.Field.Rat
import Mathlib.Data.Rat.Floor
import Mathlib.RingTheory.Coprime.Lemmas
import Mathlib.Tactic.Linarith
import Mathlib.Tactic.Ring

/-! Rounding to 53 significant bits. A number lies between the powers of two of its magnitude, and a
number that has no more than 53 significant bits is its own rounding. What is rounded to a number or
less is told by the middle between that number and the next, in which no quotient lies. -/
namespace Matchmaking.Binary64

theorem two_zpow_pos (e : Int) : 0 < (2 : Rat) ^ e := zpow_pos (by norm_num) e

theorem two_zpow_add (i j : Int) : (2 : Rat) ^ (i + j) = 2 ^ i * 2 ^ j :=
  zpow_add₀ (by norm_num) i j

theorem abs_eq (x : Rat) : x.abs = |x| := by
  rcases le_total 0 x with hx | hx
  · rw [Rat.abs_of_nonneg hx, abs_of_nonneg hx]
  · rw [Rat.abs_of_nonpos hx, abs_of_nonpos hx]

theorem natCast_mem_binade {n : Nat} (hn : n ≠ 0) :
    (2 : Rat) ^ (n.log2 : Int) ≤ n ∧ (n : Rat) < 2 ^ ((n.log2 : Int) + 1) := by
  have hle : 2 ^ n.log2 ≤ n := Nat.log2_self_le hn
  have hlt : n < 2 ^ (n.log2 + 1) := Nat.lt_log2_self
  exact ⟨by exact_mod_cast hle, by exact_mod_cast hlt⟩

theorem abs_mul_den (x : Rat) : |x| * x.den = x.num.natAbs := by
  have hden : |(x.den : Rat)| = x.den := abs_of_nonneg (Nat.cast_nonneg _)
  rw [← hden, ← abs_mul, Rat.mul_den_eq_num, Nat.cast_natAbs, Int.cast_abs]

/-- The magnitude of a number is the exponent of the greatest power of two that it reaches. -/
theorem abs_mem_binade {x : Rat} (hx : x ≠ 0) :
    (2 : Rat) ^ magnitude x ≤ |x| ∧ |x| < 2 ^ (magnitude x + 1) := by
  obtain ⟨hnum, hnum'⟩ := natCast_mem_binade (Int.natAbs_ne_zero.2 (Rat.num_ne_zero.2 hx))
  obtain ⟨hden, hden'⟩ := natCast_mem_binade x.den_nz
  have hquot := abs_mul_den x
  have hpos : (0 : Rat) < x.den := by exact_mod_cast x.den_pos
  rw [magnitude, abs_eq]
  generalize (x.num.natAbs.log2 : Int) = a at *
  generalize (x.den.log2 : Int) = b at *
  -- The logarithms of numerator and denominator leave two binades; one comparison decides.
  have hlow : (2 : Rat) ^ (a - b - 1) < |x| := by
    have hsplit : (2 : Rat) ^ (a - b - 1) * 2 ^ (b + 1) = 2 ^ a := by
      rw [← two_zpow_add]
      congr 1
      omega
    have hscaled : (2 : Rat) ^ (a - b - 1) * x.den < 2 ^ a :=
      hsplit ▸ (mul_lt_mul_iff_right₀ (two_zpow_pos _)).2 hden'
    exact lt_of_mul_lt_mul_right (by linarith) hpos.le
  have hhigh : |x| < (2 : Rat) ^ (a - b + 1) := by
    have hsplit : (2 : Rat) ^ (a - b + 1) * 2 ^ b = 2 ^ (a + 1) := by
      rw [← two_zpow_add]
      congr 1
      omega
    have hscaled : (2 : Rat) ^ (a + 1) ≤ 2 ^ (a - b + 1) * x.den :=
      hsplit ▸ (mul_le_mul_iff_right₀ (two_zpow_pos _)).2 hden
    exact lt_of_mul_lt_mul_right (by linarith) hpos.le
  by_cases hle : (2 : Rat) ^ (a - b) ≤ |x|
  · rw [if_pos hle]
    exact ⟨hle, hhigh⟩
  · rw [if_neg hle, Int.sub_add_cancel]
    exact ⟨hlow.le, not_le.1 hle⟩

theorem roundHalfEven_intCast (n : Int) : roundHalfEven n = n := by
  rw [roundHalfEven, Rat.floor_intCast]
  simp

/-- A number with no more than 53 significant bits is its own rounding. -/
theorem round_eq_self {n k : Int} (hn : |n| < 2 ^ 53) : round (n * 2 ^ k) = n * 2 ^ k := by
  by_cases hx : (n * 2 ^ k : Rat) = 0
  · rw [hx, round, if_pos rfl]
  · rw [round, if_neg hx]
    generalize hm : magnitude ((n : Rat) * 2 ^ k) = e
    have hbinade : (2 : Rat) ^ e < 2 ^ (53 + k) := by
      have hn' : |(n : Rat)| < 2 ^ (53 : Int) := by exact_mod_cast hn
      calc (2 : Rat) ^ e ≤ |(n : Rat) * 2 ^ k| := hm ▸ (abs_mem_binade hx).1
        _ = |(n : Rat)| * 2 ^ k := by rw [abs_mul, abs_of_pos (two_zpow_pos k)]
        _ < 2 ^ (53 : Int) * 2 ^ k := (mul_lt_mul_iff_left₀ (two_zpow_pos k)).2 hn'
        _ = 2 ^ (53 + k) := (two_zpow_add _ _).symm
    have hlt : e < 53 + k := (zpow_lt_zpow_iff_right₀ (by norm_num)).1 hbinade
    obtain ⟨j, hj⟩ : ∃ j : Nat, k = j + (e - 52) := ⟨(k - (e - 52)).toNat, by omega⟩
    have hquot : (n * 2 ^ k : Rat) / ulp (n * 2 ^ k) = (n * 2 ^ j : Int) := by
      rw [ulp, hm, hj, two_zpow_add, ← mul_assoc, mul_div_cancel_right₀ _ (two_zpow_pos _).ne']
      norm_cast
    rw [hquot, roundHalfEven_intCast, ← hquot, div_mul_cancel₀]
    rw [ulp]
    exact (two_zpow_pos _).ne'

theorem ofInt_eq_self {n : Int} (hn : |n| < 2 ^ 53) : ofInt n = n := by
  simpa [ofInt] using round_eq_self (k := 0) hn

/-! Comparing what is rounded. -/

section
variable {x y : Rat} {n k : Int}

theorem roundHalfEven_le_iff :
    roundHalfEven x ≤ n ↔ x < n + 1/2 ∨ x = n + 1/2 ∧ n % 2 = 0 := by
  have hfloor : (x.floor : Rat) ≤ x := Rat.floor_le x
  have hnext : x - 1 < x.floor := Rat.lt_floor
  rw [roundHalfEven]
  generalize x.floor = f at *
  split
  · rename_i hdown
    constructor
    · intro hle
      obtain hlt | rfl := Int.lt_or_eq_of_le hle
      · have hstep : (f : Rat) + 1 ≤ n := by exact_mod_cast hlt
        exact .inl (by linarith)
      · obtain hlow | ⟨htie, heven⟩ := hdown
        · exact .inl (by linarith)
        · exact .inr ⟨by linarith, heven⟩
    · intro hx
      have hlt : (f : Rat) < n + 1 := by
        obtain hx | ⟨hx, -⟩ := hx <;> linarith
      exact Int.le_of_lt_add_one (by exact_mod_cast hlt)
  · rename_i hup
    obtain ⟨hhalf, htie⟩ := not_or.1 hup
    constructor
    · intro hle
      have hstep : (f : Rat) + 1 ≤ n := by exact_mod_cast hle
      exact .inl (by linarith)
    · rintro (hlt | ⟨heq, heven⟩)
      · have hlt' : (f : Rat) < n := by linarith
        exact Int.add_one_le_iff.2 (by exact_mod_cast hlt')
      · have hle : (f : Rat) ≤ n := by linarith
        obtain hlt | rfl := Int.lt_or_eq_of_le (by exact_mod_cast hle : f ≤ n)
        · exact hlt
        · exact absurd ⟨by linarith, heven⟩ htie

theorem ulp_pos : 0 < ulp x := two_zpow_pos _

theorem round_of_ne_zero (hx : x ≠ 0) : round x = roundHalfEven (x / ulp x) * ulp x := if_neg hx

/-- In units of its last place a number is from `2 ^ 52` to below `2 ^ 53`. -/
theorem abs_div_ulp_mem (hx : x ≠ 0) : 2 ^ 52 ≤ |x / ulp x| ∧ |x / ulp x| < 2 ^ 53 := by
  obtain ⟨hlow, hhigh⟩ := abs_mem_binade hx
  have hlow' : (2 : Rat) ^ magnitude x = 2 ^ 52 * ulp x := by
    rw [ulp, ← zpow_natCast, ← two_zpow_add]
    congr 1
    omega
  have hhigh' : (2 : Rat) ^ (magnitude x + 1) = 2 ^ 53 * ulp x := by
    rw [ulp, ← zpow_natCast, ← two_zpow_add]
    congr 1
    omega
  rw [abs_div, abs_of_pos ulp_pos, le_div_iff₀ ulp_pos, div_lt_iff₀ ulp_pos, ← hlow', ← hhigh']
  exact ⟨hlow, hhigh⟩

theorem roundHalfEven_le (hx : x ≤ n) : roundHalfEven x ≤ n :=
  roundHalfEven_le_iff.2 (.inl (by linarith))

theorem le_roundHalfEven (hx : n ≤ x) : n ≤ roundHalfEven x := by
  by_contra hlt
  have hle : roundHalfEven x ≤ n - 1 := by omega
  rw [roundHalfEven_le_iff] at hle
  push_cast at hle
  obtain hx' | ⟨hx', -⟩ := hle <;> linarith

/-- The rounding of a number that is not zero: at most 53 significant bits, and a power of two. -/
theorem exists_significand (x : Rat) : ∃ n k : Int, |n| ≤ 2 ^ 53 ∧ round x = n * 2 ^ k := by
  by_cases hx : x = 0
  · exact ⟨0, 0, by decide, by rw [hx, round, if_pos rfl, Int.cast_zero, zero_mul]⟩
  · obtain ⟨-, hhigh⟩ := abs_div_ulp_mem hx
    obtain ⟨hneg, hpos⟩ := abs_lt.1 hhigh
    refine ⟨_, _, abs_le.2 ⟨le_roundHalfEven ?_, roundHalfEven_le ?_⟩, round_of_ne_zero hx⟩
    · exact_mod_cast hneg.le
    · exact_mod_cast hpos.le

/-- A positive number is from `2 ^ 52` to `2 ^ 53` units of its last place, and so is its rounding. -/
theorem mem_binade (hx : 0 < x) : 2 ^ 52 * ulp x ≤ x ∧ x < 2 ^ 53 * ulp x := by
  obtain ⟨hlow, hhigh⟩ := abs_div_ulp_mem hx.ne'
  rw [abs_of_pos (div_pos hx ulp_pos)] at hlow hhigh
  exact ⟨(le_div_iff₀ ulp_pos).1 hlow, (div_lt_iff₀ ulp_pos).1 hhigh⟩

theorem round_mem_binade (hx : 0 < x) : 2 ^ 52 * ulp x ≤ round x ∧ round x ≤ 2 ^ 53 * ulp x := by
  obtain ⟨hlow, hhigh⟩ := mem_binade hx
  have hlow' : 2 ^ 52 ≤ roundHalfEven (x / ulp x) :=
    le_roundHalfEven (by exact_mod_cast (le_div_iff₀ ulp_pos).2 hlow)
  have hhigh' : roundHalfEven (x / ulp x) ≤ 2 ^ 53 :=
    roundHalfEven_le (by exact_mod_cast ((div_lt_iff₀ ulp_pos).2 hhigh).le)
  rw [round_of_ne_zero hx.ne', mul_le_mul_iff_left₀ ulp_pos, mul_le_mul_iff_left₀ ulp_pos]
  exact ⟨by exact_mod_cast hlow', by exact_mod_cast hhigh'⟩

theorem round_pos (hx : 0 < x) : 0 < round x :=
  (mul_pos (by norm_num) ulp_pos).trans_le (round_mem_binade hx).1

theorem round_nonpos (hx : x ≤ 0) : round x ≤ 0 := by
  obtain rfl | hlt := hx.eq_or_lt
  · rw [round, if_pos rfl]
  · have hscaled : x / ulp x ≤ (0 : Int) := by
      exact_mod_cast div_nonpos_of_nonpos_of_nonneg hx ulp_pos.le
    have hle : (roundHalfEven (x / ulp x) : Rat) ≤ 0 := by exact_mod_cast roundHalfEven_le hscaled
    rw [round_of_ne_zero hlt.ne]
    exact mul_nonpos_of_nonpos_of_nonneg hle ulp_pos.le

theorem two_mul_two_zpow_le {i j : Int} (h : i < j) : 2 * (2 : Rat) ^ i ≤ 2 ^ j := by
  rw [← zpow_one_add₀ (by norm_num)]
  exact zpow_le_zpow_right₀ (by norm_num) (by omega)

/-- What is rounded to a binary64 number or less lies below the middle between it and the next, or in
the middle where the tie goes down. -/
theorem round_le_iff (hn : 2 ^ 52 ≤ n) (hn' : n < 2 ^ 53) :
    round x ≤ n * 2 ^ k ↔
      x < (n + 1/2) * 2 ^ k ∨ x = (n + 1/2) * 2 ^ k ∧ n % 2 = 0 := by
  have hk : (0 : Rat) < 2 ^ k := two_zpow_pos k
  have hlow : 2 ^ 52 * 2 ^ k ≤ (n : Rat) * 2 ^ k :=
    (mul_le_mul_iff_left₀ hk).2 (by exact_mod_cast hn)
  have hhigh : (n + 1 : Rat) * 2 ^ k ≤ 2 ^ 53 * 2 ^ k :=
    (mul_le_mul_iff_left₀ hk).2 (by exact_mod_cast hn')
  obtain hneg | hpos := le_or_gt x 0
  · have hround := round_nonpos hneg
    exact ⟨fun _ => .inl (by linarith), fun _ => by linarith⟩
  · obtain ⟨hx, hx'⟩ := mem_binade hpos
    obtain ⟨hr, hr'⟩ := round_mem_binade hpos
    obtain hlt | heq | hgt := lt_trichotomy (magnitude x - 52) k
    · have hunit : 2 * ulp x ≤ 2 ^ k := two_mul_two_zpow_le hlt
      exact ⟨fun _ => .inl (by linarith), fun _ => by linarith⟩
    · have hunit : ulp x = 2 ^ k := by rw [ulp, heq]
      rw [round_of_ne_zero hpos.ne', hunit, mul_le_mul_iff_left₀ hk, Int.cast_le,
        roundHalfEven_le_iff, div_lt_iff₀ hk, div_eq_iff hk.ne']
    · have hunit : 2 * 2 ^ k ≤ ulp x := two_mul_two_zpow_le hgt
      refine ⟨fun hle => absurd hle (by linarith), ?_⟩
      rintro (hlt | ⟨heq, -⟩) <;> linarith

/-- An odd number with more than 53 bits divides no significand. -/
theorem eq_zero_of_odd_dvd {m s : Int} {t : Nat} (hn : 2 ^ 52 ≤ n) (hs : |s| ≤ 2 ^ 53)
    (hm : s * 2 ^ t = (2 * n + 1) * m) : s = 0 := by
  have hcoprime : IsCoprime (2 * n + 1) (2 ^ t) := IsCoprime.pow_right ⟨1, -n, by ring⟩
  have hdvd : 2 * n + 1 ∣ s := hcoprime.dvd_of_dvd_mul_right ⟨m, hm⟩
  exact Int.eq_zero_of_abs_lt_dvd hdvd (by omega)

/-- A quotient of binary64 numbers is never in the middle between two of them. -/
theorem round_div_round_ne (hn : 2 ^ 52 ≤ n) (hy : round y ≠ 0) :
    round x / round y ≠ (n + 1/2) * 2 ^ k := by
  obtain ⟨s, i, hs, hx⟩ := exists_significand x
  obtain ⟨m, j, -, hm⟩ := exists_significand y
  intro heq
  rw [div_eq_iff hy, hx, hm] at heq
  -- the powers of two are gathered where they are whole
  obtain ⟨t, t', ht⟩ : ∃ t t' : Nat, k + j + t = i + 1 + t' :=
    ⟨(i + 1 - (k + j)).toNat, (k + j - (i + 1)).toNat, by omega⟩
  have hpow : (2 : Rat) ^ (k + j) * 2 ^ t = 2 ^ i * 2 * 2 ^ t' := by
    rw [← zpow_natCast, ← zpow_natCast, ← two_zpow_add, ht, two_zpow_add, two_zpow_add, zpow_one]
  have hwhole : s * 2 ^ t = (2 * n + 1) * (m * 2 ^ t') := by
    have hscaled : (s * 2 ^ t : Rat) * 2 ^ (k + j) = (2 * n + 1) * (m * 2 ^ t') * 2 ^ (k + j) :=
      calc (s * 2 ^ t : Rat) * 2 ^ (k + j) = s * (2 ^ (k + j) * 2 ^ t) := by ring
        _ = s * 2 ^ i * (2 * 2 ^ t') := by rw [hpow]; ring
        _ = (2 * n + 1) * (m * 2 ^ t') * (2 ^ k * 2 ^ j) := by rw [heq]; ring
        _ = (2 * n + 1) * (m * 2 ^ t') * 2 ^ (k + j) := by rw [two_zpow_add]
    exact_mod_cast mul_right_cancel₀ (two_zpow_pos (k + j)).ne' hscaled
  have hzero : s = 0 := eq_zero_of_odd_dvd hn hs hwhole
  have hm0 : m = 0 := by
    rw [hzero, zero_mul] at hwhole
    have htwo : (2 : Int) ^ t' ≠ 0 := by positivity
    obtain hodd | hm0 := mul_eq_zero.1 hwhole.symm
    · omega
    · exact (mul_eq_zero.1 hm0).resolve_right htwo
  rw [hm, hm0, Int.cast_zero, zero_mul] at hy
  exact hy rfl

/-- A quotient is rounded to a binary64 number or less if it lies below the middle between that
number and the next. -/
theorem div_round_le_iff (hn : 2 ^ 52 ≤ n) (hn' : n < 2 ^ 53) (hy : 0 < round y) :
    div (round x) (round y) ≤ n * 2 ^ k ↔ round x < (n + 1/2) * 2 ^ k * round y := by
  rw [div, round_le_iff hn hn', ← div_lt_iff₀ hy]
  exact or_iff_left fun htie => round_div_round_ne hn hy.ne' htie.1

end

end Matchmaking.Binary64
