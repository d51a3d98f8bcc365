import Matchmaking.Agency.Advice
import Matchmaking.Proofs.Requests

/-! What a verdict can show of a pair. Where an attribute of one of the two is unknown, nothing of
the other's value shows; and nothing else of the two shows at all. -/
namespace Matchmaking

/-- Two pairs of values that cannot be told apart: they agree, or in either pair a value is
unknown. -/
def ShowSame {α : Type} (known : α → Bool) (x y x' y' : α) : Prop :=
  x = x' ∧ y = y' ∨ (known x && known y) = false ∧ (known x' && known y') = false

theorem ShowSame.swap {α : Type} {known : α → Bool} {x y x' y' : α}
    (h : ShowSame known x y x' y') : ShowSame known y x y' x' := by
  rw [ShowSame, Bool.and_comm (known y), Bool.and_comm (known y')]
  exact h.imp_left And.symm

structure Glance.Alike (today : Date) (a b a' b' : Profile) : Prop where
  gender : a.gender = a'.gender
  gender' : b.gender = b'.gender
  ages : ShowSame Option.isSome (a.ageOn today) (b.ageOn today) (a'.ageOn today) (b'.ageOn today)
  heights : ShowSame (0 < ·) a.height b.height a'.height b'.height
  educations : ShowSame (0 < ·) a.education b.education a'.education b'.education

structure FiveFactor.Alike (today : Date) (a b a' b' : Profile) : Prop
    extends Glance.Alike today a b a' b' where
  incomes : ShowSame (0 < ·) a.monthlyIncome b.monthlyIncome a'.monthlyIncome b'.monthlyIncome
  marital : a.marital = a'.marital
  marital' : b.marital = b'.marital
  isOwner : a.housing.isOwner = a'.housing.isOwner
  isOwner' : b.housing.isOwner = b'.housing.isOwner
  hasCar : a.hasCar = a'.hasCar
  hasCar' : b.hasCar = b'.hasCar

variable {today : Date} {a b a' b' : Profile}

namespace Glance
open Pair

theorem Alike.swap (h : Alike today a b a' b') : Alike today b a b' a' :=
  ⟨h.gender', h.gender, h.ages.swap, h.heights.swap, h.educations.swap⟩

/-- Both pairs are a man and a woman or neither is, and the couples are alike in their turn. -/
theorem Alike.couple? (h : Alike today a b a' b') :
    couple? a b = none ∧ couple? a' b' = none ∨
      ∃ man woman man' woman', couple? a b = some (man, woman) ∧
        couple? a' b' = some (man', woman') ∧ Alike today man woman man' woman' := by
  unfold Pair.couple? coupleBy
  rw [← h.gender, ← h.gender']
  cases a.gender <;> cases b.gender
  · exact .inl ⟨rfl, rfl⟩
  · exact .inr ⟨a, b, a', b', rfl, rfl, h⟩
  · exact .inr ⟨b, a, b', a', rfl, rfl, h.swap⟩
  · exact .inl ⟨rfl, rfl⟩

theorem ages_eq_none (h : ((a.ageOn today).isSome && (b.ageOn today).isSome) = false) :
    Pair.ages today a b = none := by
  rw [Pair.ages]
  cases hx : a.ageOn today with
  | none => rfl
  | some x =>
    cases hy : b.ageOn today with
    | none => rfl
    | some y => simp [hx, hy] at h

theorem Alike.ages_eq (h : Alike today a b a' b') :
    Pair.ages today a b = Pair.ages today a' b' := by
  obtain ⟨hx, hy⟩ | ⟨hknown, hknown'⟩ := h.ages
  · rw [Pair.ages, Pair.ages, hx, hy]
  · rw [ages_eq_none hknown, ages_eq_none hknown']

theorem Alike.agePoints_eq (h : Alike today a b a' b') :
    agePoints today a b = agePoints today a' b' := by
  rw [agePoints, agePoints, h.ages_eq]

theorem Alike.eq_or_educations_unknown (h : Alike today a b a' b') :
    (a.education = a'.education ∧ b.education = b'.education) ∨
      educationsKnown a b = false ∧ educationsKnown a' b' = false :=
  h.educations

theorem Alike.eq_or_heights_unknown (h : Alike today a b a' b') :
    (a.height = a'.height ∧ b.height = b'.height) ∨
      heightsKnown a b = false ∧ heightsKnown a' b' = false :=
  h.heights

theorem Alike.educationPoints_eq (h : Alike today a b a' b') :
    educationPoints a b = educationPoints a' b' := by
  rw [educationPoints, educationPoints]
  obtain ⟨hx, hy⟩ | ⟨hknown, hknown'⟩ := h.eq_or_educations_unknown
  · rw [educationsKnown, educationsKnown, hx, hy]
  · rw [hknown, hknown', if_neg Bool.false_ne_true, if_neg Bool.false_ne_true]

theorem Alike.heightPoints_eq (h : Alike today a b a' b') :
    heightPoints a b = heightPoints a' b' := by
  rw [heightPoints, heightPoints]
  obtain ⟨hc, hc'⟩ | ⟨man, woman, man', woman', hc, hc', hcouple⟩ := h.couple?
  · rw [hc, hc']
  · rw [hc, hc']
    dsimp only
    obtain ⟨hx, hy⟩ | ⟨hknown, hknown'⟩ := hcouple.eq_or_heights_unknown
    · rw [heightsKnown, heightsKnown, hx, hy]
    · rw [hknown, hknown', Bool.false_and, Bool.false_and, if_neg Bool.false_ne_true]

theorem judge_eq_of_alike (h : Alike today a b a' b') (addition : Int32) :
    judge today a b addition = judge today a' b' addition := by
  rw [judge, judge, score, score, total, total, reasons, reasons, h.agePoints_eq,
    h.educationPoints_eq, h.heightPoints_eq]

end Glance

namespace FiveFactor
open Pair

/-! The factors read nothing that does not show. -/

theorem heightPoints_eq_of_alike (h : Glance.Alike today a b a' b') :
    heightPoints a b = heightPoints a' b' := by
  rw [heightPoints, heightPoints]
  obtain ⟨hc, hc'⟩ | ⟨man, woman, man', woman', hc, hc', hcouple⟩ := h.couple?
  · rw [hc, hc']
  · rw [hc, hc']
    dsimp only
    obtain ⟨hx, hy⟩ | ⟨hknown, hknown'⟩ := hcouple.eq_or_heights_unknown
    · rw [heightsKnown, heightsKnown, idealHeights, idealHeights, hx, hy]
    · rw [hknown, hknown', Bool.false_and, Bool.false_and, if_neg Bool.false_ne_true,
        if_neg Bool.false_ne_true]

theorem heightsFit_eq_of_alike (h : Glance.Alike today a b a' b') :
    heightsFit a b = heightsFit a' b' := by
  rw [heightsFit, heightsFit]
  obtain ⟨hc, hc'⟩ | ⟨man, woman, man', woman', hc, hc', hcouple⟩ := h.couple?
  · rw [hc, hc']
  · rw [hc, hc']
    dsimp only
    obtain ⟨hx, hy⟩ | ⟨hknown, hknown'⟩ := hcouple.eq_or_heights_unknown
    · rw [heightsKnown, heightsKnown, idealHeights, idealHeights, hx, hy]
    · rw [hknown, hknown', Bool.false_and, Bool.false_and]

theorem agePoints_eq_of_alike (h : Glance.Alike today a b a' b') :
    agePoints today a b = agePoints today a' b' := by
  rw [agePoints, agePoints]
  obtain ⟨hc, hc'⟩ | ⟨man, woman, man', woman', hc, hc', hcouple⟩ := h.couple?
  · rw [hc, hc']
  · rw [hc, hc']
    simp only [hcouple.ages_eq]

theorem agesClose_eq_of_alike (h : Glance.Alike today a b a' b') :
    agesClose today a b = agesClose today a' b' := by
  rw [agesClose, h.ages_eq, agesClose]

theorem educationPoints_eq_of_alike (h : Glance.Alike today a b a' b') :
    educationPoints a b = educationPoints a' b' := by
  rw [educationPoints, educationPoints]
  obtain ⟨hx, hy⟩ | ⟨hknown, hknown'⟩ := h.eq_or_educations_unknown
  · rw [educationsKnown, educationsKnown, hx, hy]
  · rw [hknown, hknown', if_neg Bool.false_ne_true, if_neg Bool.false_ne_true]

theorem educationsClose_eq_of_alike (h : Glance.Alike today a b a' b') :
    educationsClose a b = educationsClose a' b' := by
  rw [educationsClose, educationsClose]
  obtain ⟨hx, hy⟩ | ⟨hknown, hknown'⟩ := h.eq_or_educations_unknown
  · rw [educationsKnown, educationsKnown, hx, hy]
  · rw [hknown, hknown', Bool.false_and, Bool.false_and]

theorem Alike.incomeGap_eq (h : Alike today a b a' b') : incomeGap a b = incomeGap a' b' := by
  rw [incomeGap, incomeGap]
  obtain ⟨hx, hy⟩ | ⟨hknown, hknown'⟩ :
      (a.monthlyIncome = a'.monthlyIncome ∧ b.monthlyIncome = b'.monthlyIncome) ∨
        incomesKnown a b = false ∧ incomesKnown a' b' = false := h.incomes
  · rw [incomesKnown, incomesKnown, hx, hy]
  · rw [hknown, hknown', if_neg Bool.false_ne_true, if_neg Bool.false_ne_true]

theorem Alike.score_eq (h : Alike today a b a' b') : score today a b = score today a' b' := by
  have hglance := h.toAlike
  rw [score, score, total, total, factors, factors, personPoints, personPoints, maritalPoints,
    maritalPoints, incomePoints, incomePoints, belongingsPoints, belongingsPoints,
    heightPoints_eq_of_alike hglance, agePoints_eq_of_alike hglance,
    educationPoints_eq_of_alike hglance, h.incomeGap_eq, h.marital, h.marital', h.isOwner,
    h.isOwner', h.hasCar, h.hasCar']

theorem Alike.reasons_eq (h : Alike today a b a' b') :
    reasons today a b = reasons today a' b' := by
  have hglance := h.toAlike
  rw [reasons, reasons, incomesClose, incomesClose, agesClose_eq_of_alike hglance,
    educationsClose_eq_of_alike hglance, heightsFit_eq_of_alike hglance, h.incomeGap_eq, h.marital,
    h.marital', h.isOwner, h.isOwner', h.hasCar, h.hasCar']

theorem judge_eq_of_alike (h : Alike today a b a' b') : judge today a b = judge today a' b' := by
  rw [judge, judge, h.score_eq, h.reasons_eq]

end FiveFactor

/-! Both judgements. -/

def Profile.bare (p : Profile) : Profile := { p with name := "", avatar := none }

theorem FiveFactor.alike_of_bare_eq (ha : a.bare = a'.bare) (hb : b.bare = b'.bare) :
    Alike today a b a' b' := by
  cases a
  cases a'
  cases b
  cases b'
  cases ha
  cases hb
  exact ⟨⟨rfl, rfl, .inl ⟨rfl, rfl⟩, .inl ⟨rfl, rfl⟩, .inl ⟨rfl, rfl⟩⟩, .inl ⟨rfl, rfl⟩, rfl, rfl,
    rfl, rfl, rfl, rfl⟩

/-- Pairs that cannot be told apart by what is compared get the same score and the same reasons:
where an attribute of one of the two is unknown the other's value does not count. Neither do names,
pictures, numbers, standings, partners and shortlists ever. -/
theorem Client.judged_alike (today : Date) (c d c' d' : Client) :
    (FiveFactor.Alike today c.profile d.profile c'.profile d'.profile →
      Advice.judge today c d = Advice.judge today c' d') ∧
    (Glance.Alike today c.profile d.profile c'.profile d'.profile → ∀ addition,
      Glance.judge today c.profile d.profile addition =
        Glance.judge today c'.profile d'.profile addition) ∧
    (c.profile.bare = c'.profile.bare → d.profile.bare = d'.profile.bare →
      Advice.judge today c d = Advice.judge today c' d' ∧ ∀ addition,
        Glance.judge today c.profile d.profile addition =
          Glance.judge today c'.profile d'.profile addition) := by
  refine ⟨FiveFactor.judge_eq_of_alike, Glance.judge_eq_of_alike, fun hc hd => ?_⟩
  have h : FiveFactor.Alike today c.profile d.profile c'.profile d'.profile :=
    FiveFactor.alike_of_bare_eq hc hd
  exact ⟨FiveFactor.judge_eq_of_alike h, Glance.judge_eq_of_alike h.toAlike⟩

namespace Sample

def reticent : Client × Client :=
  ({ id := 1, profile := { man with age := 30, education := 3, housing := .owned } },
    { id := 2, profile := { woman with birthMonth := "1996-05", height := 165 } })

def reticent' : Client × Client :=
  ({ id := 3, profile := { man with age := 30, education := 5, housing := .mortgaged } },
    { id := 4, profile := { woman with age := 29, height := 180 } })

def renamed : Client where
  id := 5
  profile := { reticent.1.profile with name := "Bo", avatar := some "bo.png" }
  standing := .matched
  partner := some 4
  shortlist := some "[]"

end Sample

/-- In the other pair he has another education and she has another height, and the verdicts are the
same. So they are for the man under another name. -/
theorem Client.judged_alike_sample :
    let today := Sample.newYear.today
    let (c, d) := Sample.reticent
    let (c', d') := Sample.reticent'
    (c.profile.education ≠ c'.profile.education ∧ d.profile.height ≠ d'.profile.height ∧
      Advice.judge today c d = Advice.judge today c' d' ∧
      ∀ addition, Glance.judge today c.profile d.profile addition =
        Glance.judge today c'.profile d'.profile addition) ∧
    (c.profile ≠ Sample.renamed.profile ∧
      Advice.judge today c d = Advice.judge today Sample.renamed d ∧
      ∀ addition, Glance.judge today c.profile d.profile addition =
        Glance.judge today Sample.renamed.profile d.profile addition) := by
  have halike : FiveFactor.Alike Sample.newYear.today Sample.reticent.1.profile
      Sample.reticent.2.profile Sample.reticent'.1.profile Sample.reticent'.2.profile :=
    ⟨⟨rfl, rfl, .inl (by decide +kernel), .inr (by decide), .inr (by decide)⟩, .inl ⟨rfl, rfl⟩, rfl,
      rfl, rfl, rfl, rfl, rfl⟩
  obtain ⟨hprecise, hglance, -⟩ := Client.judged_alike Sample.newYear.today Sample.reticent.1
    Sample.reticent.2 Sample.reticent'.1 Sample.reticent'.2
  obtain ⟨-, -, hrenamed⟩ := Client.judged_alike Sample.newYear.today Sample.reticent.1
    Sample.reticent.2 Sample.renamed Sample.reticent.2
  exact ⟨⟨by decide, by decide, hprecise halike, hglance halike.toAlike⟩, by decide,
    hrenamed rfl rfl⟩

end Matchmaking
