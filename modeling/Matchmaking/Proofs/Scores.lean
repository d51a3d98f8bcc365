import Matchmaking.Judgement.FiveFactor
import Matchmaking.Judgement.Glance
import Matchmaking.Proofs.Rounding
import Mathlib.Tactic.Ring

/-! The ranges of the points and of the scores. The points of every factor are fives within a short
range, where neither a weight nor a sum loses a bit, so the precise score is that of the exact
sum. -/
namespace Matchmaking

/-! Results on words that are the exact ones. -/

section
variable {x y : Int32}

theorem toInt_add_of_range (hlow : -2 ^ 31 ≤ x.toInt + y.toInt)
    (hhigh : x.toInt + y.toInt < 2 ^ 31) : (x + y).toInt = x.toInt + y.toInt := by
  rw [Int32.toInt_add, Int.bmod_eq_of_le] <;> omega

theorem toInt_sub_of_range (hlow : -2 ^ 31 ≤ x.toInt - y.toInt)
    (hhigh : x.toInt - y.toInt < 2 ^ 31) : (x - y).toInt = x.toInt - y.toInt := by
  rw [Int32.toInt_sub, Int.bmod_eq_of_le] <;> omega

theorem toInt_min : (min x y).toInt = min x.toInt y.toInt := by
  have hif : min x y = if x ≤ y then x else y := rfl
  simp only [hif, min_def, Int32.le_iff_toInt_le]
  split <;> rfl

theorem toInt_max : (max x y).toInt = max x.toInt y.toInt := by
  have hif : max x y = if x ≤ y then y else x := rfl
  simp only [hif, max_def, Int32.le_iff_toInt_le]
  split <;> rfl

end

def InFives (low high : Int) (points : Int32) : Prop :=
  5 ∣ points.toInt ∧ low ≤ points.toInt ∧ points.toInt ≤ high

section
variable {low low' high high' : Int} {points points' : Int32}

instance : Decidable (InFives low high points) := inferInstanceAs (Decidable (_ ∧ _ ∧ _))

namespace InFives

theorem sum_mem (hp : InFives low high points) (hp' : InFives low' high' points')
    (hlow : -2 ^ 31 ≤ low + low') (hhigh : high + high' < 2 ^ 31) :
    -2 ^ 31 ≤ points.toInt + points'.toInt ∧ points.toInt + points'.toInt < 2 ^ 31 :=
  ⟨hlow.trans (add_le_add hp.2.1 hp'.2.1), (add_le_add hp.2.2 hp'.2.2).trans_lt hhigh⟩

theorem add (hp : InFives low high points) (hp' : InFives low' high' points')
    (hlow : -2 ^ 31 ≤ low + low') (hhigh : high + high' < 2 ^ 31) :
    InFives (low + low') (high + high') (points + points') := by
  obtain ⟨hsum, hsum'⟩ := hp.sum_mem hp' hlow hhigh
  rw [InFives, toInt_add_of_range hsum hsum']
  exact ⟨dvd_add hp.1 hp'.1, add_le_add hp.2.1 hp'.2.1, add_le_add hp.2.2 hp'.2.2⟩

theorem eq_five_mul (hp : InFives low high points) :
    ∃ n : Int, points.toInt = 5 * n ∧ low ≤ 5 * n ∧ 5 * n ≤ high := by
  obtain ⟨⟨n, hn⟩, hlow, hhigh⟩ := hp
  exact ⟨n, hn, hn ▸ hlow, hn ▸ hhigh⟩

end InFives

end

namespace Binary64

theorem add_quarters {m n : Int} (h : |m + n| < 2 ^ 53) :
    add (m / 4) (n / 4) = ((m + n : Int) : Rat) / 4 := by
  have hsum : (m / 4 + n / 4 : Rat) = (m + n : Int) * 2 ^ (-2 : Int) := by
    rw [← add_div, Int.cast_add, div_eq_mul_inv]
    norm_num
  rw [add, hsum, round_eq_self h, ← hsum, Int.cast_add, add_div]

/-- A weight is no binary64 number, but the rounding of a product of fives undoes that of the
weight. -/
theorem mul_weight {c n : Int} (hc : c ∈ [(8 : Int), 4, 3, 2]) (hlow : -4 ≤ n) (hhigh : n ≤ 9) :
    mul (round (c / 20)) (ofInt (5 * n)) = ((c * n : Int) : Rat) / 4 := by
  have hcases : ∀ c ∈ [(8 : Int), 4, 3, 2], ∀ i : Fin 14,
      mul (round (c / 20)) (ofInt (5 * (i.val - 4))) = ((c * (i.val - 4) : Int) : Rat) / 4 := by
    decide +kernel
  obtain ⟨i, rfl⟩ : ∃ i : Fin 14, n = i.val - 4 := ⟨⟨(n + 4).toNat, by omega⟩, by simp; omega⟩
  exact hcases c hc i

theorem roundHalfAway_mono {x y : Rat} (hx : 0 ≤ x) (hxy : x ≤ y) :
    roundHalfAway x ≤ roundHalfAway y := by
  rw [roundHalfAway, roundHalfAway, if_pos hx, if_pos (hx.trans hxy)]
  exact Rat.floor_monotone (by linarith)

end Binary64

namespace FiveFactor
open Binary64
variable (today : Date) (a b : Profile)

theorem heightPoints_inFives : InFives 0 30 (heightPoints a b) := by
  rw [heightPoints]
  split
  · decide
  · split
    · split <;> decide
    · decide

theorem maritalPoints_inFives : InFives (-5) 15 (maritalPoints a b) := by
  rw [maritalPoints]
  split
  · decide
  · split <;> decide

theorem personPoints_inFives : InFives (-5) 45 (personPoints a b) :=
  (heightPoints_inFives a b).add (maritalPoints_inFives a b) (by decide) (by decide)

theorem agePoints_inFives : InFives (-20) 30 (agePoints today a b) := by
  rw [agePoints]
  repeat' split
  all_goals decide

theorem educationPoints_inFives : InFives (-15) 30 (educationPoints a b) := by
  rw [educationPoints]
  dsimp only
  repeat' split
  all_goals decide

theorem incomePoints_inFives : InFives (-20) 30 (incomePoints a b) := by
  rw [incomePoints]
  repeat' split
  all_goals decide

theorem belongingsPoints_inFives : InFives 0 30 (belongingsPoints a b) := by
  have hhome : ∀ p q, InFives 0 20 (shared 20 10 p q) := by decide
  have hcar : ∀ p q, InFives 0 10 (shared 10 5 p q) := by decide
  exact (hhome _ _).add (hcar _ _) (by decide) (by decide)

def exactTotal : Rat :=
  50 + ((8 * (personPoints a b).toInt + 4 * (agePoints today a b).toInt +
    3 * (educationPoints a b).toInt + 3 * (incomePoints a b).toInt +
    2 * (belongingsPoints a b).toInt : Int) : Rat) / 20

/-- Points are fives, so a weighted factor is a number of quarters, and so are the sums. -/
theorem total_eq_exactTotal : total today a b = exactTotal today a b := by
  obtain ⟨p, hp, hplow, hphigh⟩ := (personPoints_inFives a b).eq_five_mul
  obtain ⟨g, hg, hglow, hghigh⟩ := (agePoints_inFives today a b).eq_five_mul
  obtain ⟨e, he, helow, hehigh⟩ := (educationPoints_inFives a b).eq_five_mul
  obtain ⟨i, hi, hilow, hihigh⟩ := (incomePoints_inFives a b).eq_five_mul
  obtain ⟨o, ho, holow, hohigh⟩ := (belongingsPoints_inFives a b).eq_five_mul
  have hbase : (50 : Rat) = (200 : Int) / 4 := by norm_num
  have hperson : (2 / 5 : Rat) = (8 : Int) / 20 := by norm_num
  have hage : (1 / 5 : Rat) = (4 : Int) / 20 := by norm_num
  have hthree : (3 / 20 : Rat) = (3 : Int) / 20 := by norm_num
  have hbelongings : (1 / 10 : Rat) = (2 : Int) / 20 := by norm_num
  simp only [total, factors, List.foldl_cons, List.foldl_nil, exactTotal, hp, hg, he, hi, ho]
  rw [hbase, hperson, hage, hthree, hbelongings]
  rw [mul_weight (by simp) (by omega) (by omega), mul_weight (by simp) (by omega) (by omega),
    mul_weight (by simp) (by omega) (by omega), mul_weight (by simp) (by omega) (by omega),
    mul_weight (by simp) (by omega) (by omega)]
  rw [add_quarters (abs_lt.2 (by omega)), add_quarters (abs_lt.2 (by omega)),
    add_quarters (abs_lt.2 (by omega)), add_quarters (abs_lt.2 (by omega)),
    add_quarters (abs_lt.2 (by omega))]
  push_cast
  ring

theorem exactTotal_mem : 155 / 4 ≤ exactTotal today a b ∧ exactTotal today a b ≤ 86 := by
  obtain ⟨-, hplow, hphigh⟩ := personPoints_inFives a b
  obtain ⟨-, hglow, hghigh⟩ := agePoints_inFives today a b
  obtain ⟨-, helow, hehigh⟩ := educationPoints_inFives a b
  obtain ⟨-, hilow, hihigh⟩ := incomePoints_inFives a b
  obtain ⟨-, holow, hohigh⟩ := belongingsPoints_inFives a b
  rw [exactTotal]
  generalize hsum : 8 * (personPoints a b).toInt + 4 * (agePoints today a b).toInt +
    3 * (educationPoints a b).toInt + 3 * (incomePoints a b).toInt +
    2 * (belongingsPoints a b).toInt = sum
  have hlow : (-225 : Rat) ≤ sum := by
    exact_mod_cast (by omega : -225 ≤ sum)
  have hhigh : (sum : Rat) ≤ 720 := by
    exact_mod_cast (by omega : sum ≤ 720)
  constructor <;> linarith

/-- The precise score is the exact sum, rounded, a half away from zero. It is never held at an end of
the range from 0 to 100. -/
theorem toInt_score : (score today a b).toInt = roundHalfAway (exactTotal today a b) ∧
    39 ≤ (score today a b).toInt ∧ (score today a b).toInt ≤ 86 := by
  obtain ⟨hlow, hhigh⟩ := exactTotal_mem today a b
  have hround : 39 ≤ roundHalfAway (exactTotal today a b) :=
    le_of_eq_of_le (by decide +kernel) (roundHalfAway_mono (by norm_num) hlow)
  have hround' : roundHalfAway (exactTotal today a b) ≤ 86 :=
    le_of_le_of_eq (roundHalfAway_mono (by linarith) hhigh) (by decide +kernel)
  have hscore : (score today a b).toInt = roundHalfAway (exactTotal today a b) := by
    rw [score, total_eq_exactTotal, max_eq_right (by omega), min_eq_right (by omega),
      Int32.toInt_ofInt_of_le (by omega) (by omega)]
  rw [hscore]
  exact ⟨rfl, hround, hround'⟩

end FiveFactor

namespace Glance

/-- The addition is what was drawn, up to the setting held between 0 and 20. -/
theorem toInt_drawn (setting : Int32) (draw : Nat) :
    (drawn setting draw).toInt = min (draw : Int) (min 20 (max 0 setting.toInt)) := by
  have hlimit : jitterLimit.toInt = 20 := rfl
  have hzero : (0 : Int32).toInt = 0 := rfl
  rw [drawn, capJitter, toInt_min, toInt_max, hlimit, hzero, Int32.toInt_ofInt_of_le] <;> omega

variable (today : Date) (client candidate : Profile)

theorem agePoints_inFives : InFives (-10) 20 (agePoints today client candidate) := by
  rw [agePoints]
  repeat' split
  all_goals decide

theorem educationPoints_inFives : InFives (-5) 15 (educationPoints client candidate) := by
  rw [educationPoints]
  repeat' split
  all_goals decide

theorem heightPoints_inFives : InFives 0 5 (heightPoints client candidate) := by
  rw [heightPoints]
  repeat' split
  all_goals decide

theorem total_inFives : InFives 45 100 (total today client candidate) := by
  have hbase : InFives 60 60 60 := by decide
  exact ((hbase.add (agePoints_inFives today client candidate) (by decide) (by decide)).add
    (educationPoints_inFives client candidate) (by decide) (by decide)).add
      (heightPoints_inFives client candidate) (by decide) (by decide)

/-- The score at a glance is the sum with the addition, up to 99. It is never held at 40. -/
theorem toInt_score (addition : Int32) (hlow : 0 ≤ addition.toInt) (hhigh : addition.toInt ≤ 20) :
    (score today client candidate addition).toInt =
      min 99 ((total today client candidate).toInt + addition.toInt) := by
  obtain ⟨-, hsum, hsum'⟩ := total_inFives today client candidate
  have hmin : Int32.minValue.toInt = -2 ^ 31 := rfl
  have hmax : Int32.maxValue.toInt = 2 ^ 31 - 1 := rfl
  have hforty : (40 : Int32).toInt = 40 := rfl
  have hceiling : (99 : Int32).toInt = 99 := rfl
  rw [score, toInt_min, toInt_max, addSaturating, Int32.toInt_ofInt_of_le] <;> omega

end Glance

end Matchmaking
