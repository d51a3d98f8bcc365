import Matchmaking.Proofs.Overflow
import Matchmaking.Proofs.Symmetry

/-! The reasons of a verdict against its points. Each reason is tested apart from the points that it
speaks for, and the two agree: a reason is given exactly where its factor has the points for it, and
where none is given the score stays low. -/
namespace Matchmaking

/-! The reasons that a verdict gives. -/

namespace Verdict
variable {points : Int32} {reasons : List (Tag × Bool)} {tag : Tag}

def gives (v : Verdict) (tag : Tag) : Bool := v.mentions (Vocabulary.word tag)

theorem mem_tagsOf :
    tag ∈ tagsOf reasons ↔
      (tag, true) ∈ reasons ∨ tag = .worthATry ∧ ∀ t, (t, true) ∉ reasons := by
  have hmem : ∀ t, t ∈ (reasons.filter (·.2)).map (·.1) ↔ (t, true) ∈ reasons := by simp
  rw [tagsOf]
  split
  · rename_i hnil
    have hnone : ∀ t, (t, true) ∉ reasons := by
      intro t ht
      rw [← hmem, hnil] at ht
      cases ht
    simp [hnone]
  · rename_i hsome
    obtain ⟨t, ht⟩ := List.exists_mem_of_ne_nil _ hsome
    rw [hmem] at ht
    refine (hmem tag).trans ⟨.inl, ?_⟩
    rintro (htag | ⟨-, hnone⟩)
    · exact htag
    · exact absurd ht (hnone t)

theorem tagsOf_ne_nil : tagsOf reasons ≠ [] := by
  rw [tagsOf]
  split
  · exact List.cons_ne_nil _ _
  · assumption

theorem nodup_tagsOf (hr : (reasons.map Prod.fst).Nodup) : (tagsOf reasons).Nodup := by
  rw [tagsOf]
  split
  · exact List.nodup_singleton _
  · exact hr.sublist (List.filter_sublist.map Prod.fst)

theorem gives_ofReasons : (ofReasons points reasons).gives tag ↔ tag ∈ tagsOf reasons := by
  rw [gives, mentions, List.contains_iff_mem, ofReasons, List.mem_map]
  constructor
  · rintro ⟨t, ht, hword⟩
    exact Vocabulary.word_inj hword ▸ ht
  · exact fun ht => ⟨tag, ht, rfl⟩

theorem gives_iff_mem (htag : tag ≠ .worthATry) :
    (ofReasons points reasons).gives tag ↔ (tag, true) ∈ reasons := by
  rw [gives_ofReasons, mem_tagsOf]
  simp [htag]

theorem blank_notMem_ofReasons : "" ∉ (ofReasons points reasons).tags := by
  have hword : ∀ t : Tag, Vocabulary.word t ≠ "" := by
    intro t
    cases t <;> decide
  rw [ofReasons, List.mem_map]
  rintro ⟨t, -, ht⟩
  exact hword t ht

theorem nodup_ofReasons (hr : (reasons.map Prod.fst).Nodup) :
    (ofReasons points reasons).tags.Nodup :=
  (nodup_tagsOf hr).map fun _ _ => Vocabulary.word_inj

theorem gives_worthATry (hr : .worthATry ∉ reasons.map Prod.fst) :
    (ofReasons points reasons).gives .worthATry ↔ ∀ t, (t, true) ∉ reasons := by
  rw [gives_ofReasons, mem_tagsOf]
  constructor
  · rintro (htest | ⟨-, hnone⟩)
    · exact absurd (List.mem_map_of_mem (f := Prod.fst) htest) hr
    · exact hnone
  · exact fun hnone => .inr ⟨rfl, hnone⟩

theorem tags_of_no_reason (hnone : ∀ t, (t, true) ∉ reasons) :
    (ofReasons points reasons).tags = [Vocabulary.word Tag.worthATry] := by
  have hnil : (reasons.filter (·.2)).map (·.1) = [] := by
    rw [List.map_eq_nil_iff, List.filter_eq_nil_iff]
    rintro ⟨t, holds⟩ ht rfl
    exact hnone t ht
  rw [ofReasons, tagsOf, if_pos hnil]
  rfl

theorem gives_worthATry_iff_alone (hr : .worthATry ∉ reasons.map Prod.fst) :
    (ofReasons points reasons).gives .worthATry ↔
      (ofReasons points reasons).tags = [Vocabulary.word Tag.worthATry] := by
  constructor
  · exact fun hgives => tags_of_no_reason ((gives_worthATry hr).1 hgives)
  · intro htags
    rw [gives, mentions, htags]
    rfl

theorem grade_of_score_le {v : Verdict} (hv : v.score.toInt ≤ 68) :
    v.grade = .average ∨ v.grade = .poor := by
  have hgood : (70 : Int32).toInt = 70 := rfl
  have hperfect : (85 : Int32).toInt = 85 := rfl
  rw [grade, Grade.ofScore, if_neg, if_neg]
  · split
    · exact .inl rfl
    · exact .inr rfl
  all_goals
    rw [Int32.le_iff_toInt_le]
    omega

end Verdict

/-! The precise verdict. -/

/-- Two known numbers are as far apart as they are. -/
theorem Pair.toInt_gap_of_pos {x y : Int32} (hx : 0 < x) (hy : 0 < y) :
    (gap x y).toInt = |x.toInt - y.toInt| := by
  have hx' : 0 < x.toInt := Int32.lt_iff_toInt_lt.1 hx
  have hy' : 0 < y.toInt := Int32.lt_iff_toInt_lt.1 hy
  have hlt := x.toInt_lt
  have hlt' := y.toInt_lt
  have hsub : (x - y).toInt = x.toInt - y.toInt := toInt_sub_of_range (by omega) (by omega)
  rw [gap, Checked.toInt_abs (by omega), hsub]

namespace FiveFactor
open Pair
variable {today : Date} {a b man woman : Profile}

theorem tags_reasons : (reasons today a b).map Prod.fst = [.ageClose, .educationClose, .heightsFit,
    .maritalAlike, .incomeClose, .bothHoused, .bothDriving] := rfl

theorem gives_ageClose : (judge today a b).gives .ageClose ↔ agesClose today a b :=
  (Verdict.gives_iff_mem (by decide)).trans (by simp [reasons])

theorem gives_educationClose : (judge today a b).gives .educationClose ↔ educationsClose a b :=
  (Verdict.gives_iff_mem (by decide)).trans (by simp [reasons])

theorem gives_heightsFit : (judge today a b).gives .heightsFit ↔ heightsFit a b :=
  (Verdict.gives_iff_mem (by decide)).trans (by simp [reasons])

theorem gives_incomeClose : (judge today a b).gives .incomeClose ↔ incomesClose a b :=
  (Verdict.gives_iff_mem (by decide)).trans (by simp [reasons])

/-- A woman who is shorter by 10 to 20 centimetres is shorter. -/
theorem lt_of_idealHeights (hknown : heightsKnown man woman) (hideal : idealHeights man woman) :
    woman.height < man.height := by
  obtain ⟨hman, hwoman⟩ : 0 < man.height ∧ 0 < woman.height := by simpa [heightsKnown] using hknown
  obtain ⟨hten, -⟩ : 10 ≤ man.height - woman.height ∧ man.height - woman.height ≤ 20 := by
    simpa [idealHeights] using hideal
  have hten' : (10 : Int32).toInt = 10 := rfl
  have hzero : (0 : Int32).toInt = 0 := rfl
  have hlt := man.height.toInt_lt
  have hlt' := woman.height.toInt_lt
  rw [Int32.lt_iff_toInt_lt] at hman hwoman ⊢
  rw [Int32.le_iff_toInt_le, toInt_sub_of_range (by omega) (by omega)] at hten
  omega

theorem heightsFit_iff : heightsFit a b ↔ heightPoints a b = 30 := by
  rw [heightsFit, heightPoints]
  cases couple? a b with
  | none => decide
  | some couple =>
    obtain ⟨man, woman⟩ := couple
    dsimp only
    cases hknown : heightsKnown man woman with
    | false =>
      rw [Bool.false_and, Bool.false_and, if_neg Bool.false_ne_true]
      decide
    | true =>
      cases hideal : idealHeights man woman with
      | false =>
        rw [Bool.and_false]
        split <;> decide
      | true => simp [lt_of_idealHeights hknown hideal]

theorem educationsClose_iff : educationsClose a b ↔ 15 ≤ educationPoints a b := by
  rw [educationsClose, educationPoints]
  cases hknown : educationsKnown a b with
  | false =>
    rw [Bool.false_and, if_neg Bool.false_ne_true]
    decide
  | true =>
    obtain ⟨ha, hb⟩ : 0 < a.education ∧ 0 < b.education := by simpa [educationsKnown] using hknown
    have hsteps : 0 ≤ (gap a.education b.education).toInt := by
      rw [toInt_gap_of_pos ha hb]
      exact abs_nonneg _
    generalize gap a.education b.education = steps at hsteps
    rw [Bool.true_and, if_pos rfl, decide_eq_true_iff]
    by_cases hzero : steps = 0
    · subst hzero
      decide
    · by_cases hone : steps = 1
      · subst hone
        decide
      · -- the steps are at least two, and what they bring is less than 15
        dsimp only
        rw [if_neg hzero, if_neg hone]
        have hzero' : steps.toInt ≠ 0 := fun h => hzero (Int32.toInt_inj.1 h)
        have hone' : steps.toInt ≠ 1 := fun h => hone (Int32.toInt_inj.1 h)
        have hle : (1 : Int32).toInt = 1 := rfl
        refine iff_of_false ?_ ?_
        · rw [Int32.le_iff_toInt_le]
          omega
        · split <;> decide

theorem incomesClose_iff : incomesClose a b ↔ incomePoints a b = 30 := by
  rw [incomesClose, incomePoints]
  cases incomeGap a b with
  | none => decide
  | some r =>
    dsimp only
    by_cases hclose : r ≤ Binary64.round (3/10)
    · simp [hclose]
    · rw [if_neg hclose, decide_eq_true_iff]
      refine iff_of_false hclose ?_
      repeat' split
      all_goals decide

/-- Ages that are close bring points on either side: of an older man, and of an older woman. -/
theorem agePoints_pos_of_agesClose (hopposite : areOpposite Profile.gender a b)
    (hclose : agesClose today a b) : 0 < agePoints today a b := by
  obtain ⟨⟨man, woman⟩, hcouple⟩ := Option.isSome_iff_exists.1 hopposite
  have hclose' : agesClose today man woman := by
    obtain ⟨-, -, ⟨rfl, rfl⟩ | ⟨rfl, rfl⟩⟩ := of_coupleBy hcouple
    · exact hclose
    · rwa [agesClose_comm]
  rw [agePoints, couple?, hcouple]
  rw [agesClose] at hclose'
  cases hages : ages today man woman with
  | none => simp [hages] at hclose'
  | some years =>
    obtain ⟨x, y⟩ := years
    have hgap : gap x y ≤ 3 := by simpa [hages] using hclose'
    have hwide : ¬12 < gap x y := Int32.not_lt.2 (Int32.le_trans hgap (by decide))
    simp only [hages]
    rw [if_neg hwide, if_pos hgap]
    repeat' split
    all_goals decide

/-! The score of a pair for which no reason is given. -/

structure Unspoken (today : Date) (a b : Profile) : Prop where
  ages : agesClose today a b = false
  educations : educationsClose a b = false
  heights : heightsFit a b = false
  marital : a.marital ≠ b.marital
  incomes : incomesClose a b = false
  homes : (a.housing.isOwner && b.housing.isOwner) = false
  cars : (a.hasCar && b.hasCar) = false

theorem unspoken_of_no_reason (hnone : ∀ t, (t, true) ∉ reasons today a b) :
    Unspoken today a b where
  ages := by simpa [reasons] using hnone .ageClose
  educations := by simpa [reasons] using hnone .educationClose
  heights := by simpa [reasons] using hnone .heightsFit
  marital := by simpa [reasons] using hnone .maritalAlike
  incomes := by simpa [reasons] using hnone .incomeClose
  homes := by simpa [reasons] using hnone .bothHoused
  cars := by simpa [reasons] using hnone .bothDriving

theorem educationPoints_mem : educationPoints a b ∈ ([30, 15, 0, -15] : List Int32) := by
  rw [educationPoints]
  dsimp only
  repeat' split
  all_goals decide

theorem incomePoints_mem : incomePoints a b ∈ ([30, 15, 5, -10, -20] : List Int32) := by
  rw [incomePoints]
  repeat' split
  all_goals decide

namespace Unspoken
variable (h : Unspoken today a b)
include h

theorem heightPoints_inFives : InFives 0 20 (heightPoints a b) := by
  have hfit := h.heights
  rw [heightsFit] at hfit
  rw [heightPoints]
  cases hcouple : couple? a b with
  | none => decide
  | some couple =>
    simp only [hcouple] at hfit
    dsimp only
    split
    · rename_i hknown
      rw [(Bool.and_eq_true_iff.1 hknown).1, Bool.true_and] at hfit
      rw [hfit]
      decide
    · decide

theorem maritalPoints_inFives : InFives (-5) 0 (maritalPoints a b) := by
  rw [maritalPoints, if_neg h.marital]
  split <;> decide

theorem personPoints_inFives : InFives (-5) 20 (personPoints a b) :=
  h.heightPoints_inFives.add h.maritalPoints_inFives (by decide) (by decide)

theorem educationPoints_inFives : InFives (-15) 0 (educationPoints a b) := by
  have hlow : ([30, 15, 0, -15] : List Int32).all fun points =>
      15 ≤ points ∨ InFives (-15) 0 points := by decide
  obtain hhigh | hlow := of_decide_eq_true (List.all_eq_true.1 hlow _ educationPoints_mem)
  · rw [← educationsClose_iff, h.educations] at hhigh
    cases hhigh
  · exact hlow

theorem incomePoints_inFives : InFives (-20) 15 (incomePoints a b) := by
  have hlow : ([30, 15, 5, -10, -20] : List Int32).all fun points =>
      points = 30 ∨ InFives (-20) 15 points := by decide
  obtain hhigh | hlow := of_decide_eq_true (List.all_eq_true.1 hlow _ incomePoints_mem)
  · rw [← incomesClose_iff, h.incomes] at hhigh
    cases hhigh
  · exact hlow

theorem belongingsPoints_inFives : InFives 0 15 (belongingsPoints a b) := by
  have hhome : ∀ p q, (p && q) = false → InFives 0 10 (shared 20 10 p q) := by decide
  have hcar : ∀ p q, (p && q) = false → InFives 0 5 (shared 10 5 p q) := by decide
  exact (hhome _ _ h.homes).add (hcar _ _ h.cars) (by decide) (by decide)

/-- A shorter woman, an older man and a home and a car between them is the best that is left. -/
theorem toInt_score_le : (score today a b).toInt ≤ 68 := by
  obtain ⟨-, -, hperson⟩ := h.personPoints_inFives
  obtain ⟨-, -, hage⟩ := agePoints_inFives today a b
  obtain ⟨-, -, heducation⟩ := h.educationPoints_inFives
  obtain ⟨-, -, hincome⟩ := h.incomePoints_inFives
  obtain ⟨-, -, hbelongings⟩ := h.belongingsPoints_inFives
  have hsum : exactTotal today a b ≤ 271 / 4 := by
    rw [exactTotal]
    generalize hsum : 8 * (personPoints a b).toInt + 4 * (agePoints today a b).toInt +
      3 * (educationPoints a b).toInt + 3 * (incomePoints a b).toInt +
      2 * (belongingsPoints a b).toInt = sum
    have hhigh : (sum : Rat) ≤ 355 := by
      exact_mod_cast (by omega : sum ≤ 355)
    linarith
  obtain ⟨hlow, -⟩ := exactTotal_mem today a b
  rw [(toInt_score today a b).1]
  exact le_of_le_of_eq (Binary64.roundHalfAway_mono (by linarith) hsum) (by decide +kernel)

end Unspoken

end FiveFactor

/-! The verdict at a glance. -/

namespace Glance
open Pair
variable {today : Date} {a b : Profile} {addition : Int32}

theorem agePoints_eq_iff : agePoints today a b = 20 ↔ FiveFactor.agesClose today a b := by
  rw [agePoints, FiveFactor.agesClose]
  cases ages today a b with
  | none => decide
  | some years =>
    obtain ⟨x, y⟩ := years
    dsimp only
    by_cases hclose : gap x y ≤ 3
    · simp [hclose]
    · rw [if_neg hclose, decide_eq_true_iff]
      refine iff_of_false ?_ hclose
      repeat' split
      all_goals decide

theorem heightPoints_of_heightsFit (hfit : FiveFactor.heightsFit a b) : heightPoints a b = 5 := by
  rw [FiveFactor.heightsFit] at hfit
  rw [heightPoints]
  cases hcouple : couple? a b with
  | none => simp [hcouple] at hfit
  | some couple =>
    obtain ⟨man, woman⟩ := couple
    obtain ⟨hknown, hideal⟩ : heightsKnown man woman ∧ FiveFactor.idealHeights man woman := by
      simpa [hcouple] using hfit
    dsimp only
    rw [hknown, decide_eq_true (FiveFactor.lt_of_idealHeights hknown hideal)]
    rfl

theorem gives_ageClose :
    (judge today a b addition).gives .ageClose ↔ FiveFactor.agesClose today a b :=
  (Verdict.gives_iff_mem (by decide)).trans (by simp [reasons, ← agePoints_eq_iff])

theorem gives_heightsFit : (judge today a b addition).gives .heightsFit ↔ heightPoints a b = 5 :=
  (Verdict.gives_iff_mem (by decide)).trans (by simp [reasons])

/-- Seen from either of the two, close ages are so for both verdicts, and heights that fit are a
reason at a glance as well. -/
theorem gives_of_precise :
    ((FiveFactor.judge today a b).gives .ageClose ↔ (judge today a b addition).gives .ageClose) ∧
      ((FiveFactor.judge today a b).gives .heightsFit →
        (judge today a b addition).gives .heightsFit) := by
  rw [FiveFactor.gives_ageClose, gives_ageClose, FiveFactor.gives_heightsFit, gives_heightsFit]
  exact ⟨Iff.rfl, heightPoints_of_heightsFit⟩

end Glance

/-! Both verdicts. -/

/-- The reasons of a precise verdict tell the truth about its points: the heights fit where they
bring all 30, the educations and the incomes are close where they bring at least 15 and all 30, and
close ages of a man and a woman bring some. There is a reason, none is given twice, and
`worthATry` stands alone: it is given where there is no other, and the score is then at most 68. At
a glance, whoever of the two is the client, ages are close for the same pairs, and heights that fit
do so as well. -/
theorem Verdict.reasons_tell (today : Date) (a b : Profile) :
    let v := FiveFactor.judge today a b
    (v.gives .heightsFit ↔ FiveFactor.heightPoints a b = 30) ∧
    (v.gives .educationClose ↔ 15 ≤ FiveFactor.educationPoints a b) ∧
    (v.gives .incomeClose ↔ FiveFactor.incomePoints a b = 30) ∧
    (areOpposite Profile.gender a b → v.gives .ageClose → 0 < FiveFactor.agePoints today a b) ∧
    (v.tags.Nodup ∧ v.tags ≠ [] ∧ "" ∉ v.tags) ∧
    (v.gives .worthATry ↔ v.tags = [Vocabulary.word Tag.worthATry]) ∧
    (v.gives .worthATry → v.score.toInt ≤ 68 ∧ v.grade ≠ .good ∧ v.grade ≠ .perfect) ∧
    ∀ addition, ∀ w ∈ [Glance.judge today a b addition, Glance.judge today b a addition],
      (v.gives .ageClose ↔ w.gives .ageClose) ∧ (v.gives .heightsFit → w.gives .heightsFit) := by
  intro v
  have hout : .worthATry ∉ (FiveFactor.reasons today a b).map Prod.fst := by
    rw [FiveFactor.tags_reasons]
    decide
  have hnodup : ((FiveFactor.reasons today a b).map Prod.fst).Nodup := by
    rw [FiveFactor.tags_reasons]
    decide
  have hnonempty : v.tags ≠ [] := fun hnil => tagsOf_ne_nil (List.map_eq_nil_iff.1 hnil)
  refine ⟨FiveFactor.gives_heightsFit.trans FiveFactor.heightsFit_iff,
    FiveFactor.gives_educationClose.trans FiveFactor.educationsClose_iff,
    FiveFactor.gives_incomeClose.trans FiveFactor.incomesClose_iff, fun hopposite hgives => ?_,
    ⟨nodup_ofReasons hnodup, hnonempty, blank_notMem_ofReasons⟩, gives_worthATry_iff_alone hout,
    fun hgives => ?_, fun addition w hw => ?_⟩
  · exact FiveFactor.agePoints_pos_of_agesClose hopposite (FiveFactor.gives_ageClose.1 hgives)
  · have hunspoken := FiveFactor.unspoken_of_no_reason ((gives_worthATry hout).1 hgives)
    have hscore : v.score.toInt ≤ 68 := hunspoken.toInt_score_le
    obtain hgrade | hgrade := grade_of_score_le hscore
    · exact ⟨hscore, by simp [hgrade], by simp [hgrade]⟩
    · exact ⟨hscore, by simp [hgrade], by simp [hgrade]⟩
  · obtain rfl | hw := List.mem_cons.1 hw
    · exact Glance.gives_of_precise
    · obtain rfl := List.mem_singleton.1 hw
      have hswap : v = FiveFactor.judge today b a := FiveFactor.judge_comm
      rw [hswap]
      exact Glance.gives_of_precise

namespace Sample

def reserved (gender : Gender) : Profile where
  name := ""
  gender
  age := match gender with | .male => 35 | .female => 30
  height := match gender with | .male => 175 | .female => 170
  marital := match gender with | .male => .divorced | .female => .widowed
  monthlyIncome := match gender with | .male => 2000 | .female => 1000
  housing := match gender with | .male => .owned | .female => .none
  hasCar := match gender with | .male => true | .female => false

end Sample

/-- The highest score without a reason is reached. -/
theorem Verdict.reasons_tell_sample :
    let today := Sample.newYear.today
    let v := FiveFactor.judge today (Sample.suited .male) (Sample.suited .female)
    let w := FiveFactor.judge today (Sample.reserved .male) (Sample.reserved .female)
    (areOpposite Profile.gender (Sample.suited .male) (Sample.suited .female) ∧ v.gives .ageClose ∧
      0 < FiveFactor.agePoints today (Sample.suited .male) (Sample.suited .female)) ∧
    (v.gives .heightsFit ∧
      (Glance.judge today (Sample.suited .female) (Sample.suited .male) 0).gives .heightsFit) ∧
    w.gives .worthATry ∧ w.tags = ["worth trying"] ∧ w.score = 68 ∧ w.grade ≠ .good := by
  intro today v w
  obtain ⟨-, -, -, hage, -, -, -, hglance⟩ :=
    reasons_tell today (Sample.suited .male) (Sample.suited .female)
  obtain ⟨-, -, -, -, -, halone, hlow, -⟩ :=
    reasons_tell today (Sample.reserved .male) (Sample.reserved .female)
  have hclose : v.gives .ageClose := by decide +kernel
  have hfit : v.gives .heightsFit := by decide +kernel
  have hnone : w.gives .worthATry := by decide +kernel
  obtain ⟨-, hheights⟩ := hglance 0 _ (List.mem_cons_of_mem _ List.mem_cons_self)
  exact ⟨⟨rfl, hclose, hage rfl hclose⟩, ⟨hfit, hheights hfit⟩, hnone, halone.1 hnone,
    by decide +kernel, (hlow hnone).2.1⟩

end Matchmaking
