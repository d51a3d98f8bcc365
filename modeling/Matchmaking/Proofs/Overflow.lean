import Matchmaking.Proofs.Scores

/-! Both verdicts with every sum, difference and absolute value of words checked. No check fails,
whatever the two clients have told of themselves, so none of these results wraps around. -/
namespace Matchmaking

structure Overflow where
  exact : Int

/-! Checked operations on words. -/
namespace Checked

def word (i : Int) : Except Overflow Int32 :=
  if -2 ^ 31 ≤ i ∧ i < 2 ^ 31 then .ok (.ofInt i) else .error ⟨i⟩

def add (x y : Int32) : Except Overflow Int32 := word (x.toInt + y.toInt)
def sub (x y : Int32) : Except Overflow Int32 := word (x.toInt - y.toInt)
def abs (x : Int32) : Except Overflow Int32 := word |x.toInt|

def gap (x y : Int32) : Except Overflow Int32 := do abs (← sub x y)

theorem ok_bind {α β : Type} (x : α) (f : α → Except Overflow β) : (Except.ok x >>= f) = f x := rfl

variable {x y : Int32}

theorem word_toInt (x : Int32) : word x.toInt = .ok x := by
  rw [word, if_pos ⟨x.le_toInt, x.toInt_lt⟩, Int32.ofInt_toInt]

theorem add_eq_ok (hlow : -2 ^ 31 ≤ x.toInt + y.toInt) (hhigh : x.toInt + y.toInt < 2 ^ 31) :
    add x y = .ok (x + y) := by
  rw [add, ← toInt_add_of_range hlow hhigh, word_toInt]

theorem add_eq_ok_of_inFives {low high low' high' : Int} (hx : InFives low high x)
    (hy : InFives low' high' y) (hlow : -2 ^ 31 ≤ low + low') (hhigh : high + high' < 2 ^ 31) :
    add x y = .ok (x + y) := by
  obtain ⟨hsum, hsum'⟩ := hx.sum_mem hy hlow hhigh
  exact add_eq_ok hsum hsum'

theorem sub_eq_ok (hlow : -2 ^ 31 ≤ x.toInt - y.toInt) (hhigh : x.toInt - y.toInt < 2 ^ 31) :
    sub x y = .ok (x - y) := by
  rw [sub, ← toInt_sub_of_range hlow hhigh, word_toInt]

theorem toInt_abs (hx : -2 ^ 31 < x.toInt) : x.abs.toInt = |x.toInt| := by
  have hmin : x.toBitVec ≠ BitVec.intMin 32 := by
    intro h
    rw [← Int32.toInt_toBitVec, h] at hx
    exact absurd hx (by decide)
  rw [← Int32.toInt_toBitVec, Int32.toBitVec_abs, BitVec.toInt_abs_eq_natAbs_of_ne_intMin hmin,
    Int32.toInt_toBitVec, Int.natCast_natAbs]

theorem abs_eq_ok (hx : -2 ^ 31 < x.toInt) : abs x = .ok x.abs := by
  rw [abs, ← toInt_abs hx, word_toInt]

theorem sub_eq_ok_of_pos (hx : 0 < x) (hy : 0 < y) : sub x y = .ok (x - y) := by
  have hx' : 0 < x.toInt := Int32.lt_iff_toInt_lt.1 hx
  have hy' : 0 < y.toInt := Int32.lt_iff_toInt_lt.1 hy
  have hxlt := x.toInt_lt
  have hylt := y.toInt_lt
  exact sub_eq_ok (by omega) (by omega)

/-- Two known numbers are never too far apart. -/
theorem gap_eq_ok_of_pos (hx : 0 < x) (hy : 0 < y) : gap x y = .ok (Pair.gap x y) := by
  have hx' : 0 < x.toInt := Int32.lt_iff_toInt_lt.1 hx
  have hy' : 0 < y.toInt := Int32.lt_iff_toInt_lt.1 hy
  have hylt := y.toInt_lt
  have hxlt := x.toInt_lt
  have hdiff : (x - y).toInt = x.toInt - y.toInt := toInt_sub_of_range (by omega) (by omega)
  rw [gap, sub_eq_ok_of_pos hx hy]
  exact abs_eq_ok (by omega)

-- It is not so for numbers that are unknown.
example : gap (-2147483648) 1 = .error ⟨-2147483649⟩ := rfl

/-! The age. -/

def years (today : Date) (year month : Int32) : Except Overflow Int32 := do
  let years ← sub (.ofNat today.year) year
  if Int32.ofNat today.month < month then sub years 1 else pure years

def ageOn (p : Profile) (today : Date) : Except Overflow (Option Int32) :=
  if 0 < p.age then pure (some p.age)
  else
    match p.birthMonth.bind readYearMonth with
    | none => pure none
    | some (year, month) => do
      let age ← years today year month
      pure (if 1 ≤ age ∧ age ≤ 120 then some age else none)

def ages (today : Date) (a b : Profile) : Except Overflow (Option (Int32 × Int32)) := do
  let x ← ageOn a today
  let y ← ageOn b today
  pure (do pure (← x, ← y))

variable {p a b : Profile} {today : Date}

theorem readInt32_nonneg {s : List Char} {i : Int32} (hs : '-' ∉ s)
    (hi : Text.Decimal.readInt32 s = some i) : 0 ≤ i.toInt := by
  have hunsigned : Text.Decimal.readInt s = (Text.Decimal.readNat s).map Int.ofNat := by
    rw [Text.Decimal.readInt]
    rintro rest rfl
    simp at hs
  obtain ⟨j, hj, rfl⟩ := Option.map_eq_some_iff.1 hi
  obtain ⟨hread, hrange⟩ := Option.filter_eq_some_iff.1 hj
  obtain ⟨n, -, rfl⟩ := Option.map_eq_some_iff.1 (hunsigned ▸ hread)
  have hmax : Int32.maxValue.toInt = 2 ^ 31 - 1 := rfl
  have hnat : (0 : Int) ≤ Int.ofNat n := Int.natCast_nonneg n
  have hle : Int.ofNat n ≤ Int32.maxValue.toInt := (of_decide_eq_true hrange).2
  rw [Int32.toInt_ofInt_of_le (by omega) (by omega)]
  exact hnat

/-- A year is read up to the first dash, so it has no sign. -/
theorem year_nonneg {s : String} {year month : Int32} (hs : readYearMonth s = some (year, month)) :
    0 ≤ year.toInt := by
  obtain ⟨⟨text, rest⟩, hcut, hs⟩ := Option.bind_eq_some_iff.1 hs
  obtain ⟨y, hy, hs⟩ := Option.bind_eq_some_iff.1 hs
  obtain ⟨m, -, hs⟩ := Option.bind_eq_some_iff.1 hs
  obtain ⟨-, hs⟩ := Option.ite_none_right_eq_some.1 hs
  cases hs
  exact readInt32_nonneg (Text.eq_append_of_cut hcut).2 hy

theorem pos_of_ageOn {age : Int32} (hage : p.ageOn today = some age) : 0 < age := by
  rw [Profile.ageOn] at hage
  split at hage
  · rename_i hpos
    cases hage
    exact hpos
  · obtain ⟨_, -, hage⟩ := Option.bind_eq_some_iff.1 hage
    obtain ⟨⟨year, month⟩, -, hage⟩ := Option.bind_eq_some_iff.1 hage
    obtain ⟨hrange, hage⟩ := Option.ite_none_right_eq_some.1 hage
    cases hage
    exact Int32.lt_of_lt_of_le (by decide) hrange.1

theorem years_eq_ok {year month : Int32} (hyear : 0 ≤ year.toInt) :
    years today year month =
      .ok (let years := Int32.ofNat today.year - year
        if Int32.ofNat today.month < month then years - 1 else years) := by
  have hlt := year.toInt_lt
  have htoday : (Int32.ofNat today.year).toInt = today.year :=
    Int32.toInt_ofNat_of_lt (today.year_lt.trans (by decide))
  have hyear' := today.year_lt
  have hyears : (Int32.ofNat today.year - year).toInt = (Int32.ofNat today.year).toInt - year.toInt :=
    toInt_sub_of_range (by omega) (by omega)
  have hone : (1 : Int32).toInt = 1 := rfl
  rw [years, sub_eq_ok (by omega) (by omega)]
  dsimp only
  split
  · exact sub_eq_ok (by omega) (by omega)
  · rfl

theorem ageOn_eq_ok : ageOn p today = .ok (p.ageOn today) := by
  rw [ageOn, Profile.ageOn]
  split
  · rfl
  · cases p.birthMonth with
    | none => rfl
    | some s =>
      rw [Option.bind_some, Option.bind_eq_bind, Option.bind_some]
      cases hread : readYearMonth s with
      | none => rfl
      | some yearMonth =>
        dsimp only
        rw [years_eq_ok (year_nonneg hread)]
        rfl

theorem ages_eq_ok : ages today a b = .ok (Pair.ages today a b) := by
  rw [ages, ageOn_eq_ok, ageOn_eq_ok]
  rfl

theorem gap_ages_eq_ok {x y : Int32} (h : Pair.ages today a b = some (x, y)) :
    gap x y = .ok (Pair.gap x y) := by
  obtain ⟨x', hx, h⟩ := Option.bind_eq_some_iff.1 h
  obtain ⟨y', hy, h⟩ := Option.bind_eq_some_iff.1 h
  cases h
  exact gap_eq_ok_of_pos (pos_of_ageOn hx) (pos_of_ageOn hy)

end Checked

/-! The precise verdict. -/
namespace FiveFactor.Checked
open Matchmaking.Checked Pair

variable (today : Date) (a b : Profile)

def idealHeights (man woman : Profile) : Except Overflow Bool := do
  let steps ← sub man.height woman.height
  pure (10 ≤ steps && steps ≤ 20)

def heightPoints : Except Overflow Int32 :=
  match couple? a b with
  | none => pure 0
  | some (man, woman) =>
    if heightsKnown man woman && woman.height < man.height then do
      if ← idealHeights man woman then add 20 10 else pure 20
    else pure 0

def personPoints : Except Overflow Int32 := do
  add (← heightPoints a b) (maritalPoints a b)

def agePoints : Except Overflow Int32 :=
  match couple? a b with
  | none => pure 0
  | some (man, woman) => do
    match ← ages today man woman with
    | none => pure 0
    | some (x, y) =>
      let years ← Checked.gap x y
      pure (if y ≤ x then
          if 12 < years then -20
          else if 1 ≤ years ∧ years ≤ 5 then 30
          else 20
        else if years ≤ 3 then 5
        else if 8 < years then -20
        else -5)

def educationPoints : Except Overflow Int32 :=
  if educationsKnown a b then do
    let steps ← Checked.gap a.education b.education
    pure (if steps = 0 then 30 else if steps = 1 then 15 else if steps = 2 then 0 else -15)
  else pure 0

def belongingsPoints : Except Overflow Int32 := do
  let home ← add 0 (shared 20 10 a.housing.isOwner b.housing.isOwner)
  add home (shared 10 5 a.hasCar b.hasCar)

def score : Except Overflow Int32 := do
  let factors := [(2/5, ← personPoints a b), (1/5, ← agePoints today a b),
    (3/20, ← educationPoints a b), (3/20, incomePoints a b), (1/10, ← belongingsPoints a b)]
  let total := factors.foldl (fun sum (weight, points) =>
    Binary64.add sum (Binary64.mul (Binary64.round weight) (Binary64.ofInt points.toInt))) 50
  pure (.ofInt (min 100 (max 0 (Binary64.roundHalfAway total))))

def agesClose : Except Overflow Bool := do
  match ← ages today a b with
  | none => pure false
  | some (x, y) => pure ((← Checked.gap x y) ≤ 3)

def educationsClose : Except Overflow Bool :=
  if educationsKnown a b then do
    let steps ← Checked.gap a.education b.education
    pure (steps ≤ 1)
  else pure false

def heightsFit : Except Overflow Bool :=
  match couple? a b with
  | none => pure false
  | some (man, woman) => if heightsKnown man woman then idealHeights man woman else pure false

def reasons : Except Overflow (List (Tag × Bool)) := do
  pure [(.ageClose, ← agesClose today a b),
    (.educationClose, ← educationsClose a b),
    (.heightsFit, ← heightsFit a b),
    (.maritalAlike, a.marital = b.marital),
    (.incomeClose, incomesClose a b),
    (.bothHoused, a.housing.isOwner && b.housing.isOwner),
    (.bothDriving, a.hasCar && b.hasCar)]

def judge : Except Overflow Verdict := do
  pure (.ofReasons (← score today a b) (← reasons today a b))

variable {today a b}

theorem idealHeights_eq_ok (h : heightsKnown a b) :
    idealHeights a b = .ok (FiveFactor.idealHeights a b) := by
  obtain ⟨ha, hb⟩ : 0 < a.height ∧ 0 < b.height := by simpa [heightsKnown] using h
  rw [idealHeights, sub_eq_ok_of_pos ha hb]
  rfl

theorem heightPoints_eq_ok : heightPoints a b = .ok (FiveFactor.heightPoints a b) := by
  rw [heightPoints, FiveFactor.heightPoints]
  cases couple? a b with
  | none => rfl
  | some couple =>
    dsimp only
    split
    · rename_i hknown
      rw [idealHeights_eq_ok (Bool.and_eq_true_iff.1 hknown).1]
      cases FiveFactor.idealHeights couple.1 couple.2 <;> rfl
    · rfl

theorem personPoints_eq_ok : personPoints a b = .ok (FiveFactor.personPoints a b) := by
  rw [personPoints, heightPoints_eq_ok]
  exact add_eq_ok_of_inFives (heightPoints_inFives a b) (maritalPoints_inFives a b) (by decide)
    (by decide)

theorem agePoints_eq_ok : agePoints today a b = .ok (FiveFactor.agePoints today a b) := by
  rw [agePoints, FiveFactor.agePoints]
  cases couple? a b with
  | none => rfl
  | some couple =>
    dsimp only
    rw [ages_eq_ok, ok_bind]
    cases hages : Pair.ages today couple.1 couple.2 with
    | none => rfl
    | some years =>
      dsimp only
      rw [gap_ages_eq_ok hages]
      rfl

theorem gap_educations_eq_ok (h : educationsKnown a b) :
    Checked.gap a.education b.education = .ok (Pair.gap a.education b.education) := by
  obtain ⟨ha, hb⟩ : 0 < a.education ∧ 0 < b.education := by simpa [educationsKnown] using h
  exact gap_eq_ok_of_pos ha hb

theorem educationPoints_eq_ok : educationPoints a b = .ok (FiveFactor.educationPoints a b) := by
  rw [educationPoints, FiveFactor.educationPoints]
  split
  · rw [gap_educations_eq_ok ‹_›]
    rfl
  · rfl

theorem belongingsPoints_eq_ok : belongingsPoints a b = .ok (FiveFactor.belongingsPoints a b) := by
  have hadd : ∀ p q r s, (do add (← add 0 (shared 20 10 p q)) (shared 10 5 r s)) =
      .ok (shared 20 10 p q + shared 10 5 r s) := by
    intro p q r s
    cases p <;> cases q <;> cases r <;> cases s <;> rfl
  exact hadd _ _ _ _

theorem score_eq_ok : score today a b = .ok (FiveFactor.score today a b) := by
  rw [score, personPoints_eq_ok, agePoints_eq_ok, educationPoints_eq_ok, belongingsPoints_eq_ok]
  rfl

theorem agesClose_eq_ok : agesClose today a b = .ok (FiveFactor.agesClose today a b) := by
  rw [agesClose, FiveFactor.agesClose, ages_eq_ok, ok_bind]
  cases hages : Pair.ages today a b with
  | none => rfl
  | some years =>
    dsimp only
    rw [gap_ages_eq_ok hages]
    rfl

theorem educationsClose_eq_ok : educationsClose a b = .ok (FiveFactor.educationsClose a b) := by
  rw [educationsClose, FiveFactor.educationsClose]
  cases hknown : educationsKnown a b with
  | false => rfl
  | true =>
    rw [if_pos rfl, gap_educations_eq_ok hknown]
    rfl

theorem heightsFit_eq_ok : heightsFit a b = .ok (FiveFactor.heightsFit a b) := by
  rw [heightsFit, FiveFactor.heightsFit]
  cases couple? a b with
  | none => rfl
  | some couple =>
    dsimp only
    cases hknown : heightsKnown couple.1 couple.2 with
    | false => rfl
    | true =>
      rw [if_pos rfl, idealHeights_eq_ok hknown]
      rfl

theorem judge_eq_ok : judge today a b = .ok (FiveFactor.judge today a b) := by
  rw [judge, reasons, score_eq_ok, agesClose_eq_ok, educationsClose_eq_ok, heightsFit_eq_ok]
  rfl

end FiveFactor.Checked

/-! The verdict at a glance. -/
namespace Glance.Checked
open Matchmaking.Checked Pair

variable (today : Date) (client candidate : Profile)

def agePoints : Except Overflow Int32 := do
  match ← ages today client candidate with
  | none => pure 0
  | some (x, y) =>
    let years ← Checked.gap x y
    pure (if years ≤ 3 then 20 else if years ≤ 5 then 10 else if 10 < years then -10 else 0)

def educationPoints : Except Overflow Int32 :=
  if educationsKnown client candidate then
    if client.education ≤ candidate.education then pure 15
    else do
      let steps ← sub client.education candidate.education
      pure (if 1 < steps then -5 else 0)
  else pure 0

def total : Except Overflow Int32 := do
  let sum ← add 60 (← agePoints today client candidate)
  let sum ← add sum (← educationPoints client candidate)
  add sum (heightPoints client candidate)

def judge (addition : Int32) : Except Overflow Verdict := do
  let agePoints ← agePoints today client candidate
  let educationPoints ← educationPoints client candidate
  let sum := addSaturating (← total today client candidate) addition
  pure (.ofReasons (min 99 (max 40 sum))
    [(.ageClose, agePoints = 20), (.educationClose, educationPoints = 15),
      (.heightsFit, heightPoints client candidate = 5)])

variable {today client candidate}

theorem agePoints_eq_ok :
    agePoints today client candidate = .ok (Glance.agePoints today client candidate) := by
  rw [agePoints, Glance.agePoints, ages_eq_ok, ok_bind]
  cases hages : Pair.ages today client candidate with
  | none => rfl
  | some years =>
    dsimp only
    rw [gap_ages_eq_ok hages]
    rfl

theorem educationPoints_eq_ok :
    educationPoints client candidate = .ok (Glance.educationPoints client candidate) := by
  rw [educationPoints, Glance.educationPoints]
  split
  · rename_i hknown
    obtain ⟨hclient, hcandidate⟩ : 0 < client.education ∧ 0 < candidate.education := by
      simpa [educationsKnown] using hknown
    split
    · rfl
    · rw [sub_eq_ok_of_pos hclient hcandidate]
      rfl
  · rfl

theorem total_eq_ok : total today client candidate = .ok (Glance.total today client candidate) := by
  have hbase : InFives 60 60 60 := by decide
  have hage := hbase.add (agePoints_inFives today client candidate) (by decide) (by decide)
  have heducation := hage.add (educationPoints_inFives client candidate) (by decide) (by decide)
  rw [total, agePoints_eq_ok, ok_bind,
    add_eq_ok_of_inFives hbase (agePoints_inFives _ _ _) (by decide) (by decide), ok_bind,
    educationPoints_eq_ok, ok_bind,
    add_eq_ok_of_inFives hage (educationPoints_inFives _ _) (by decide) (by decide), ok_bind]
  exact add_eq_ok_of_inFives heducation (heightPoints_inFives _ _) (by decide) (by decide)

theorem judge_eq_ok (addition : Int32) :
    judge today client candidate addition =
      .ok (Glance.judge today client candidate addition) := by
  rw [judge, agePoints_eq_ok, educationPoints_eq_ok, total_eq_ok]
  rfl

end Glance.Checked

/-! Both scores. -/

namespace Sample

def suited (gender : Gender) : Profile where
  name := ""
  gender
  age := match gender with | .male => 32 | .female => 29
  height := match gender with | .male => 180 | .female => 165
  education := 4
  monthlyIncome := 10000
  housing := .owned
  hasCar := true

def unsuited (gender : Gender) : Profile where
  name := ""
  gender
  age := match gender with | .male => 45 | .female => 25
  education := match gender with | .male => 5 | .female => 1
  marital := match gender with | .male => .unmarried | .female => .divorced
  monthlyIncome := match gender with | .male => 100 | .female => 1

end Sample

theorem FiveFactor.toInt_score_suited (today : Date) :
    (score today (Sample.suited .male) (Sample.suited .female)).toInt = 86 := by
  have hage : agePoints today (Sample.suited .male) (Sample.suited .female) = 30 := rfl
  rw [(toInt_score _ _ _).1, exactTotal, hage]
  decide +kernel

theorem FiveFactor.toInt_score_unsuited (today : Date) :
    (score today (Sample.unsuited .male) (Sample.unsuited .female)).toInt = 39 := by
  have hage : agePoints today (Sample.unsuited .male) (Sample.unsuited .female) = -20 := rfl
  rw [(toInt_score _ _ _).1, exactTotal, hage]
  decide +kernel

theorem Glance.toInt_score_suited (today : Date) :
    (score today (Sample.suited .male) (Sample.suited .female) 0).toInt = 99 := by
  have hage : agePoints today (Sample.suited .male) (Sample.suited .female) = 20 := rfl
  rw [toInt_score _ _ _ _ (by decide) (by decide), total, hage]
  decide

theorem Glance.toInt_score_unsuited (today : Date) :
    (score today (Sample.unsuited .male) (Sample.unsuited .female) 0).toInt = 45 := by
  have hage : agePoints today (Sample.unsuited .male) (Sample.unsuited .female) = -10 := rfl
  rw [toInt_score _ _ _ _ (by decide) (by decide), total, hage]
  decide

/-- On whatever two clients have told of themselves, no operation of either score wraps around. The
precise score is the exact weighted sum, rounded, from 39 to 86; the score at a glance is its sum
with the addition, up to 99, from 45. Each of these ends is reached. -/
theorem Verdict.score_exact (today : Date) :
    (∀ a b, FiveFactor.Checked.judge today a b = .ok (FiveFactor.judge today a b) ∧
      let score := (FiveFactor.judge today a b).score.toInt
      score = Binary64.roundHalfAway (FiveFactor.exactTotal today a b) ∧ 39 ≤ score ∧ score ≤ 86) ∧
    (∀ client candidate setting draw,
      let addition := Glance.drawn setting draw
      Glance.Checked.judge today client candidate addition =
          .ok (Glance.judge today client candidate addition) ∧
        addition.toInt = min (draw : Int) (min 20 (max 0 setting.toInt)) ∧
        let score := (Glance.judge today client candidate addition).score.toInt
        score = min 99 ((Glance.total today client candidate).toInt + addition.toInt) ∧
          45 ≤ score ∧ score ≤ 99) ∧
    (∃ a b, (FiveFactor.judge today a b).score.toInt = 39) ∧
    (∃ a b, (FiveFactor.judge today a b).score.toInt = 86) ∧
    (∃ a b, (Glance.judge today a b 0).score.toInt = 45) ∧
    ∃ a b, (Glance.judge today a b 0).score.toInt = 99 := by
  refine ⟨fun a b => ⟨FiveFactor.Checked.judge_eq_ok, FiveFactor.toInt_score today a b⟩,
    fun client candidate setting draw => ⟨Glance.Checked.judge_eq_ok _,
      Glance.toInt_drawn setting draw, ?_⟩,
    ⟨_, _, FiveFactor.toInt_score_unsuited today⟩, ⟨_, _, FiveFactor.toInt_score_suited today⟩,
    ⟨_, _, Glance.toInt_score_unsuited today⟩, ⟨_, _, Glance.toInt_score_suited today⟩⟩
  have hdrawn := Glance.toInt_drawn setting draw
  obtain ⟨-, hsum, -⟩ := Glance.total_inFives today client candidate
  have hscore := Glance.toInt_score today client candidate (Glance.drawn setting draw) (by omega)
    (by omega)
  refine ⟨hscore, ?_⟩
  rw [Glance.judge, Verdict.ofReasons, hscore]
  omega

end Matchmaking
