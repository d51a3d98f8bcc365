import Matchmaking.Proofs.Reasons

/-! The bands of the incomes. Points and reason go by the share of the higher income that the lower is
short of, and change at three edges. The share is computed in binary64, so each edge gives way by a
little: a pair is in the band of its exact share unless it lies between an edge and where that edge
has gone, or large incomes are themselves rounded past it. -/
namespace Matchmaking

namespace FiveFactor
open Binary64 Pair

/-- A share at which the points change, and by how many parts in `2 ^ 56` of itself a quotient may
exceed it and still be rounded to its own rounding: up to the middle between that number and the
next. -/
structure Edge where
  part : Int
  whole : Int
  spare : Int
  whole_pos : 0 < whole
  middle : ∃ n k : Int, (2 ^ 52 ≤ n ∧ n < 2 ^ 53) ∧ Binary64.round (part / whole) = n * 2 ^ k ∧
    part / whole * (1 + spare / 2 ^ 56) = (n + 1/2 : Rat) * 2 ^ k

namespace Edge

def close : Edge where
  part := 3
  whole := 10
  spare := 4
  whole_pos := by decide
  middle := ⟨5404319552844595, -54, by decide, by decide +kernel, by norm_num⟩

def half : Edge where
  part := 1
  whole := 2
  spare := 8
  whole_pos := by decide
  middle := ⟨4503599627370496, -53, by decide, by decide +kernel, by norm_num⟩

def far : Edge where
  part := 4
  whole := 5
  spare := 9
  whole_pos := by decide
  middle := ⟨7205759403792794, -53, by decide, by decide +kernel, by norm_num⟩

variable (e : Edge) (high low : Int)

def Covers : Prop := e.whole * (high - low) ≤ e.part * high

/-- The rounded incomes are, by less than the share with what it can spare. -/
def CoversRounded : Prop :=
  Binary64.sub (ofInt high) (ofInt low) < e.part / e.whole * (1 + e.spare / 2 ^ 56) * ofInt high

instance : DecidablePred fun e : Edge => e.Covers high low :=
  fun _ => inferInstanceAs (Decidable (_ ≤ _))

instance : DecidablePred fun e : Edge => e.CoversRounded high low :=
  fun _ => inferInstanceAs (Decidable (_ < _))

variable {high low}

/-- The share that is computed is no more than that of the edge as it is rounded. -/
theorem div_le_iff (hhigh : 0 < high) :
    Binary64.div (Binary64.sub (ofInt high) (ofInt low)) (ofInt high) ≤
      Binary64.round (e.part / e.whole) ↔ e.CoversRounded high low := by
  obtain ⟨n, k, ⟨hn, hn'⟩, hround, hmiddle⟩ := e.middle
  have hpos : 0 < Binary64.round high := round_pos (by exact_mod_cast hhigh)
  rw [hround, CoversRounded, hmiddle]
  exact div_round_le_iff hn hn' hpos

/-- Incomes below `2 ^ 53` are not rounded, nor is what lies between them. -/
theorem coversRounded_iff (hlow : 0 ≤ low) (hle : low ≤ high) (hhigh : high < 2 ^ 53) :
    e.CoversRounded high low ↔
      2 ^ 56 * e.whole * (high - low) < e.part * (2 ^ 56 + e.spare) * high := by
  have hgap : Binary64.sub high low = (high - low : Rat) := by
    have hround : ofInt (high - low) = ((high - low : Int) : Rat) :=
      ofInt_eq_self (abs_lt.2 ⟨by omega, by omega⟩)
    rwa [ofInt, Int.cast_sub] at hround
  have hwhole : (0 : Rat) < e.whole := by exact_mod_cast e.whole_pos
  have hshare : (e.part / e.whole * (1 + e.spare / 2 ^ 56) * high : Rat) =
      e.part * (2 ^ 56 + e.spare) * high / (2 ^ 56 * e.whole) := by
    field_simp
  rw [CoversRounded, ofInt_eq_self (abs_lt.2 ⟨by omega, hhigh⟩),
    ofInt_eq_self (abs_lt.2 ⟨by omega, by omega⟩), hgap, hshare, lt_div_iff₀' (by positivity)]
  exact_mod_cast Iff.rfl

end Edge

def Ascends (covers : Edge → Prop) : Prop :=
  (covers .close → covers .half) ∧ (covers .half → covers .far)

theorem ascends_covers {high low : Int} (hhigh : 0 < high) :
    Ascends fun e => e.Covers high low := by
  simp only [Ascends, Edge.Covers, Edge.close, Edge.half, Edge.far]
  omega

theorem ascends_coversRounded {high low : Int} (hhigh : 0 < high) :
    Ascends fun e => e.CoversRounded high low := by
  have hpos : 0 < ofInt high := round_pos (by exact_mod_cast hhigh)
  simp only [Ascends, Edge.CoversRounded, Edge.close, Edge.half, Edge.far]
  push_cast
  constructor <;> intro hlt <;> linarith

def bandPoints (covers : Edge → Prop) [DecidablePred covers] : Int32 :=
  if covers .close then 30 else if covers .half then 15 else if covers .far then -10 else -20

theorem bandPoints_covers (high low : Int) :
    bandPoints (fun e => e.Covers high low) =
      if 10 * (high - low) ≤ 3 * high then 30
      else if 2 * (high - low) ≤ high then 15
      else if 5 * (high - low) ≤ 4 * high then -10
      else -20 := by
  simp only [bandPoints, Edge.Covers, Edge.close, Edge.half, Edge.far, one_mul]
  rfl

section
variable {f g : Edge → Prop} [DecidablePred f] [DecidablePred g]

/-- The points tell which edges cover the gap. -/
theorem le_bandPoints_iff (hf : Ascends f) :
    (30 ≤ bandPoints f ↔ f .close) ∧ (15 ≤ bandPoints f ↔ f .half) ∧
      (-10 ≤ bandPoints f ↔ f .far) := by
  obtain ⟨hnext, hlast⟩ := hf
  rw [bandPoints]
  by_cases hclose : f .close
  · have hhalf := hnext hclose
    simp only [hclose, hhalf, hlast hhalf, if_true]
    decide
  · by_cases hhalf : f .half
    · simp only [hclose, hhalf, hlast hhalf, if_true, if_false]
      decide
    · by_cases hfar : f .far
      · simp only [hclose, hhalf, hfar, if_true, if_false]
        decide
      · simp only [hclose, hhalf, hfar, if_false]
        decide

theorem bandPoints_eq_iff (hf : Ascends f) (hg : Ascends g) :
    bandPoints f = bandPoints g ↔ ∀ e ∈ [Edge.close, .half, .far], f e ↔ g e := by
  simp only [List.forall_mem_cons]
  constructor
  · intro hpoints
    obtain ⟨hclose, hhalf, hfar⟩ := le_bandPoints_iff hf
    obtain ⟨hclose', hhalf', hfar'⟩ := le_bandPoints_iff hg
    rw [← hpoints] at hclose' hhalf' hfar'
    exact ⟨hclose.symm.trans hclose', hhalf.symm.trans hhalf', hfar.symm.trans hfar',
      List.forall_mem_nil _⟩
  · rintro ⟨hclose, hhalf, hfar, -⟩
    simp only [bandPoints, hclose, hhalf, hfar]

end

/-! The incomes of a pair. -/

section
variable (a b : Profile)

def higherIncome : Int := max a.monthlyIncome.toInt b.monthlyIncome.toInt
def lowerIncome : Int := min a.monthlyIncome.toInt b.monthlyIncome.toInt

/-- The points and the reason are those of the exact share of the higher income that the lower is
short of. -/
structure IsBanded : Prop where
  points : incomePoints a b =
    let high := higherIncome a b
    let low := lowerIncome a b
    if 10 * (high - low) ≤ 3 * high then 30
    else if 2 * (high - low) ≤ high then 15
    else if 5 * (high - low) ≤ 4 * high then -10
    else -20
  reason : ∀ today, (judge today a b).gives .incomeClose ↔
    10 * (higherIncome a b - lowerIncome a b) ≤ 3 * higherIncome a b

end

variable {a b : Profile}

theorem higherIncome_pos (ha : 0 < a.monthlyIncome) : 0 < higherIncome a b :=
  lt_max_of_lt_left (Int64.lt_iff_toInt_lt.1 ha)

theorem incomeGap_eq (ha : 0 < a.monthlyIncome) (hb : 0 < b.monthlyIncome) :
    incomeGap a b = some (Binary64.div
      (Binary64.sub (ofInt (higherIncome a b)) (ofInt (lowerIncome a b)))
      (ofInt (higherIncome a b))) := by
  have hknown : incomesKnown a b := by simp [incomesKnown, ha, hb]
  rw [incomeGap, if_pos hknown]
  rfl

theorem incomePoints_eq (ha : 0 < a.monthlyIncome) (hb : 0 < b.monthlyIncome) :
    incomePoints a b =
      bandPoints fun e => e.CoversRounded (higherIncome a b) (lowerIncome a b) := by
  have hedge : ∀ e : Edge, _ ↔ e.CoversRounded (higherIncome a b) (lowerIncome a b) :=
    fun e => e.div_le_iff (higherIncome_pos ha)
  rw [incomePoints, incomeGap_eq ha hb, bandPoints]
  simp only [← hedge]
  rfl

theorem gives_incomeClose_iff (ha : 0 < a.monthlyIncome) (hb : 0 < b.monthlyIncome) (today : Date) :
    (judge today a b).gives .incomeClose ↔
      Edge.close.CoversRounded (higherIncome a b) (lowerIncome a b) := by
  rw [gives_incomeClose, incomesClose, incomeGap_eq ha hb, ← Edge.div_le_iff _ (higherIncome_pos ha)]
  exact decide_eq_true_iff

/-- A pair is in the band of its exact share where no edge has gone past it. -/
theorem isBanded_iff (ha : 0 < a.monthlyIncome) (hb : 0 < b.monthlyIncome) :
    IsBanded a b ↔ ∀ e ∈ [Edge.close, .half, .far],
      e.Covers (higherIncome a b) (lowerIncome a b) ↔
        e.CoversRounded (higherIncome a b) (lowerIncome a b) := by
  have hhigh : 0 < higherIncome a b := higherIncome_pos ha
  rw [← bandPoints_eq_iff (ascends_covers hhigh) (ascends_coversRounded hhigh),
    ← incomePoints_eq ha hb, bandPoints_covers]
  refine ⟨fun h => h.points.symm, fun hpoints => ⟨hpoints.symm, fun today => ?_⟩⟩
  -- the reason is given where the points are 30, so the points settle it
  rw [← bandPoints_covers, incomePoints_eq ha hb,
    bandPoints_eq_iff (ascends_covers hhigh) (ascends_coversRounded hhigh)] at hpoints
  rw [gives_incomeClose_iff ha hb, ← hpoints _ List.mem_cons_self]
  rfl

/-- No edge has gone as far as to the next share that incomes of this size can have. -/
theorem Edge.covers_iff_coversRounded {high low : Int} (hpos : 0 < high) (hlow : 0 ≤ low)
    (hle : low ≤ high) (hhigh : high < 2001599834386891) :
    ∀ e ∈ [Edge.close, .half, .far], e.Covers high low ↔ e.CoversRounded high low := by
  have hexact : high < 2 ^ 53 := by omega
  simp only [List.forall_mem_cons, Edge.coversRounded_iff _ hlow hle hexact, Edge.Covers, Edge.close,
    Edge.half, Edge.far]
  exact ⟨by omega, by omega, by omega, List.forall_mem_nil _⟩

theorem isBanded_of_lt (ha : 0 < a.monthlyIncome) (hb : 0 < b.monthlyIncome)
    (hhigh : higherIncome a b < 2001599834386891) : IsBanded a b := by
  have ha' : 0 < a.monthlyIncome.toInt := Int64.lt_iff_toInt_lt.1 ha
  have hb' : 0 < b.monthlyIncome.toInt := Int64.lt_iff_toInt_lt.1 hb
  rw [isBanded_iff ha hb]
  exact Edge.covers_iff_coversRounded (higherIncome_pos ha) (le_min ha'.le hb'.le) min_le_max hhigh

/-- Whatever two clients earn, their points and the reason are told by the edges, each with what it can
spare, and the incomes as they are rounded. They are those of the exact share exactly where this covers the
same gaps as the edges themselves, and so they are wherever both earn less than 2001599834386891. -/
theorem income_bands (a b : Profile) (ha : 0 < a.monthlyIncome) (hb : 0 < b.monthlyIncome) :
    let high := higherIncome a b
    let low := lowerIncome a b
    (incomePoints a b = bandPoints (fun e => e.CoversRounded high low) ∧
      ∀ today, (judge today a b).gives .incomeClose ↔ Edge.close.CoversRounded high low) ∧
    (IsBanded a b ↔
      ∀ e ∈ [Edge.close, .half, .far], e.Covers high low ↔ e.CoversRounded high low) ∧
    (high < 2001599834386891 → IsBanded a b) :=
  ⟨⟨incomePoints_eq ha hb, gives_incomeClose_iff ha hb⟩, isBanded_iff ha hb, isBanded_of_lt ha hb⟩

end FiveFactor

namespace Sample

def earning (gender : Gender) (monthlyIncome : Int64) : Profile := { name := "", gender, monthlyIncome }

end Sample

namespace FiveFactor

/-- Three tenths are within the first edge, and nobody's income is rounded. -/
theorem income_bands_sample :
    let a := Sample.earning .male 10000
    let b := Sample.earning .female 7000
    0 < a.monthlyIncome ∧ 0 < b.monthlyIncome ∧ higherIncome a b < 2001599834386891 ∧
      IsBanded a b ∧ incomePoints a b = 30 ∧
        Edge.close.CoversRounded (higherIncome a b) (lowerIncome a b) := by
  intro a b
  have ha : 0 < a.monthlyIncome := by decide
  have hb : 0 < b.monthlyIncome := by decide
  have hhigh : higherIncome a b < 2001599834386891 := by decide
  obtain ⟨-, hiff, hbelow⟩ := income_bands a b ha hb
  have hbanded : IsBanded a b := hbelow hhigh
  have hpoints : incomePoints a b = 30 := by
    rw [hbanded.points]
    decide
  have hcovers : Edge.close.Covers (higherIncome a b) (lowerIncome a b) := by decide
  exact ⟨ha, hb, hhigh, hbanded, hpoints, (hiff.1 hbanded _ List.mem_cons_self).1 hcovers⟩

/-- Two who are exactly three tenths apart miss the first edge where the lower income is rounded down.
The least income at which a pair is in a wrong band is the one above: four fifths are exceeded
there by less than that edge can spare. -/
theorem not_isBanded_at_edge :
    (let a := Sample.earning .male 12867427506772870
     let b := Sample.earning .female 9007199254741009
     0 < a.monthlyIncome ∧ 0 < b.monthlyIncome ∧
      10 * (higherIncome a b - lowerIncome a b) = 3 * higherIncome a b ∧
      incomePoints a b = 15 ∧ ¬IsBanded a b) ∧
    (let a := Sample.earning .male 2001599834386891
     let b := Sample.earning .female 400319966877378
     higherIncome a b = 2001599834386891 ∧
      5 * (higherIncome a b - lowerIncome a b) = 4 * higherIncome a b + 1 ∧
      incomePoints a b = -10 ∧ ¬IsBanded a b) := by
  have hclose : incomePoints (Sample.earning .male 12867427506772870)
      (Sample.earning .female 9007199254741009) = 15 := by
    decide +kernel
  have hfar : incomePoints (Sample.earning .male 2001599834386891)
      (Sample.earning .female 400319966877378) = -10 := by
    decide +kernel
  refine ⟨⟨by decide, by decide, by decide, hclose, fun h => ?_⟩, by decide, by decide, hfar,
    fun h => ?_⟩
  · have hpoints := hclose.symm.trans h.points
    revert hpoints
    decide
  · have hpoints := hfar.symm.trans h.points
    revert hpoints
    decide

end FiveFactor

end Matchmaking
