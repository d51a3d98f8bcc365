import Matchmaking.Proofs.Numerals
import Matchmaking.Proofs.Overflow
import Matchmaking.Proofs.Requests

/-! The age that a birth month gives on a date. Every text of a year and a month is read, and no
other; the age is the number of whole years between the two months, which no word is too short for,
and it does not fall as the dates go on. -/
namespace Matchmaking
open Text Text.Decimal

/-- Dates in the order of the calendar. -/
instance : LE Date where
  le d d' := d.year < d'.year ∨ d.year = d'.year ∧
    (d.month < d'.month ∨ d.month = d'.month ∧ d.day ≤ d'.day)

instance (d d' : Date) : Decidable (d ≤ d') := inferInstanceAs (Decidable (_ ∨ _))

/-- The text is a year and a month, each of 32 bits, cut at the first dash, with blanks around. -/
def IsYearMonth (s : String) (year month : Int) : Prop :=
  ∃ y m, IsPadded s.toList (y ++ '-' :: m) ∧ '-' ∉ y ∧ (Numeral y year ∧ year < 2 ^ 31) ∧
    Numeral m month ∧ 1 ≤ month ∧ month ≤ 12

def Date.yearsSince (today : Date) (year month : Int) : Int :=
  (12 * (today.year - year) + (today.month - month)) / 12

theorem Date.yearsSince_mono {d d' : Date} (h : d ≤ d') (year month : Int) :
    d.yearsSince year month ≤ d'.yearsSince year month := by
  have hmonth := d.month_mem
  have hmonth' := d'.month_mem
  have hmonths : 12 * d.year + d.month ≤ 12 * d'.year + d'.month := by
    obtain h | ⟨h, h' | ⟨h', -⟩⟩ := h <;> omega
  exact Int.ediv_le_ediv (by decide) (by omega)

section
variable {s : String} {year month : Int32} {t y m : List Char}

theorem Text.isPadded_of_cut (h : cut '-' (trim t) = some (y, m)) :
    IsPadded t (y ++ '-' :: m) ∧ '-' ∉ y := by
  obtain ⟨htrim, hdash⟩ := cut_eq_some_iff.1 h
  exact ⟨(trim_eq_iff.1 htrim).2, hdash⟩

theorem Text.IsPadded.cut_trim (ht : IsPadded t (y ++ '-' :: m)) (hdash : '-' ∉ y)
    (hy : ∀ c ∈ y, isBlank c = false) (hm : ∀ c ∈ m, isBlank c = false) :
    cut '-' (trim t) = some (y, m) := by
  refine cut_eq_some_iff.2 ⟨ht.trim_eq fun c hc => ?_, hdash⟩
  obtain hc | hc := List.mem_append.1 hc
  · exact hy c hc
  · obtain rfl | hc := List.mem_cons.1 hc
    · decide
    · exact hm c hc

theorem readYearMonth_eq_some_iff :
    readYearMonth s = some (year, month) ↔ IsYearMonth s year.toInt month.toInt := by
  have hone : (1 : Int32).toInt = 1 := rfl
  have htwelve : (12 : Int32).toInt = 12 := rfl
  constructor
  · intro hread
    obtain ⟨⟨y, m⟩, hcut, hread⟩ := Option.bind_eq_some_iff.1 hread
    obtain ⟨year', hyear, hread⟩ := Option.bind_eq_some_iff.1 hread
    obtain ⟨month', hmonth, hread⟩ := Option.bind_eq_some_iff.1 hread
    obtain ⟨⟨hlow, hhigh⟩, hread⟩ := Option.ite_none_right_eq_some.1 hread
    cases hread
    obtain ⟨hs, hdash⟩ := isPadded_of_cut hcut
    rw [Int32.le_iff_toInt_le] at hlow hhigh
    exact ⟨y, m, hs, hdash, ⟨readInt32_eq_some_iff.1 hyear, year.toInt_lt⟩,
      readInt32_eq_some_iff.1 hmonth, hlow, hhigh⟩
  · rintro ⟨y, m, hs, hdash, ⟨hyear, -⟩, hmonth, hlow, hhigh⟩
    have hcut := hs.cut_trim hdash hyear.isBlank_eq_false hmonth.isBlank_eq_false
    have hrange : 1 ≤ month ∧ month ≤ 12 :=
      ⟨Int32.le_iff_toInt_le.2 hlow, Int32.le_iff_toInt_le.2 hhigh⟩
    rw [readYearMonth, hcut]
    simp only [Option.bind_eq_bind, Option.bind_some, readInt32_eq_some_iff.2 hyear,
      readInt32_eq_some_iff.2 hmonth, if_pos hrange]

theorem IsYearMonth.exists_words {i j : Int} (h : IsYearMonth s i j) :
    ∃ year month : Int32, i = year.toInt ∧ j = month.toInt := by
  obtain ⟨_, _, -, hdash, ⟨hyear, hlt⟩, -, hlow, hhigh⟩ := h
  have hnonneg := hyear.nonneg hdash
  refine ⟨.ofInt i, .ofInt j, ?_, ?_⟩
  · exact (Int32.toInt_ofInt_of_le (by omega) (by omega)).symm
  · exact (Int32.toInt_ofInt_of_le (by omega) (by omega)).symm

end

namespace Profile
variable {p : Profile} {s : String} {year month age : Int32} {today : Date}

/-- A month later in the year than the date's takes one year off. -/
theorem toInt_years (hyear : 0 ≤ year.toInt) (hlow : 1 ≤ month.toInt) (hhigh : month.toInt ≤ 12) :
    (if Int32.ofNat today.month < month then Int32.ofNat today.year - year - 1
      else Int32.ofNat today.year - year).toInt = today.yearsSince year.toInt month.toInt := by
  have hlt := year.toInt_lt
  have hyear' := today.year_lt
  have hmonth' := today.month_mem
  have htoday : (Int32.ofNat today.year).toInt = today.year :=
    Int32.toInt_ofNat_of_lt (by omega)
  have hthis : (Int32.ofNat today.month).toInt = today.month :=
    Int32.toInt_ofNat_of_lt (by omega)
  have hyears : (Int32.ofNat today.year - year).toInt = today.year - year.toInt := by
    rw [toInt_sub_of_range (by omega) (by omega), htoday]
  have hone : (1 : Int32).toInt = 1 := rfl
  rw [Date.yearsSince]
  split
  · rename_i hless
    rw [Int32.lt_iff_toInt_lt, hthis] at hless
    rw [toInt_sub_of_range (by omega) (by omega), hyears]
    omega
  · rename_i hless
    rw [Int32.lt_iff_toInt_lt, hthis] at hless
    rw [hyears]
    omega

theorem ageOn_of_recorded (hage : 0 < p.age) : p.ageOn today = some p.age := by
  rw [ageOn, if_pos hage]

theorem ageOn_of_read (hage : ¬0 < p.age) (hs : p.birthMonth = some s)
    (hread : readYearMonth s = some (year, month)) :
    (p.ageOn today).map Int32.toInt =
      if 1 ≤ today.yearsSince year.toInt month.toInt ∧
          today.yearsSince year.toInt month.toInt ≤ 120 then
        some (today.yearsSince year.toInt month.toInt)
      else none := by
  obtain ⟨_, _, -, hdash, ⟨hyear, -⟩, -, hlow, hhigh⟩ :=
    readYearMonth_eq_some_iff.1 hread
  rw [← toInt_years (hyear.nonneg hdash) hlow hhigh, ageOn, if_neg hage, hs]
  simp only [Option.bind_eq_bind, Option.bind_some, hread]
  generalize (if Int32.ofNat today.month < month then Int32.ofNat today.year - year - 1
    else Int32.ofNat today.year - year) = years
  have hone : (1 : Int32).toInt = 1 := rfl
  have hlimit : (120 : Int32).toInt = 120 := rfl
  simp only [Int32.le_iff_toInt_le, hone, hlimit]
  split <;> rfl

theorem ageOn_of_unread (hage : ¬0 < p.age)
    (hread : ∀ s, p.birthMonth = some s → readYearMonth s = none) : p.ageOn today = none := by
  rw [ageOn, if_neg hage]
  cases hs : p.birthMonth with
  | none => rfl
  | some s => simp [hread s hs]

/-- Without a recorded age, an age comes from a birth month that is read. -/
theorem exists_of_ageOn (hage : ¬0 < p.age) (h : p.ageOn today = some age) :
    ∃ s year month, p.birthMonth = some s ∧ readYearMonth s = some (year, month) := by
  by_contra hnone
  have hread : ∀ s, p.birthMonth = some s → readYearMonth s = none := by
    intro s hs
    cases hr : readYearMonth s with
    | none => rfl
    | some yearMonth => exact absurd ⟨s, yearMonth.1, yearMonth.2, hs, hr⟩ hnone
  rw [ageOn_of_unread hage hread] at h
  cases h

theorem toInt_ageOn (hage : ¬0 < p.age) (hs : p.birthMonth = some s)
    (hread : readYearMonth s = some (year, month)) (h : p.ageOn today = some age) :
    age.toInt = today.yearsSince year.toInt month.toInt := by
  have hyears : (p.ageOn today).map Int32.toInt = some age.toInt := by rw [h, Option.map_some]
  rw [ageOn_of_read hage hs hread, Option.ite_none_right_eq_some] at hyears
  exact (Option.some.inj hyears.2).symm

theorem ageOn_mono {d d' : Date} {x y : Int32} (hage : ¬0 < p.age) (hle : d ≤ d')
    (hx : p.ageOn d = some x) (hy : p.ageOn d' = some y) : x ≤ y := by
  obtain ⟨s, year, month, hs, hread⟩ := exists_of_ageOn hage hx
  rw [Int32.le_iff_toInt_le, toInt_ageOn hage hs hread hx, toInt_ageOn hage hs hread hy]
  exact Date.yearsSince_mono hle _ _

/-- An age is found without a step that wraps around. One that is recorded is the age on every date.
Otherwise it is the whole years since the birth month, if that is the text of a year and a month and
they are 1 to 120, and it does not fall as the dates go on; for no other text is there an age. -/
theorem ageOn_exact (p : Profile) :
    (∀ today, Checked.ageOn p today = .ok (p.ageOn today)) ∧
    (0 < p.age → ∀ today, p.ageOn today = some p.age) ∧
    (¬0 < p.age →
      (∀ s year month, p.birthMonth = some s → IsYearMonth s year month → ∀ today : Date,
        let years : Int := (12 * (today.year - year) + (today.month - month)) / 12
        (p.ageOn today).map Int32.toInt = if 1 ≤ years ∧ years ≤ 120 then some years else none) ∧
      ((∀ s, p.birthMonth = some s → ∀ year month, ¬IsYearMonth s year month) →
        ∀ today, p.ageOn today = none) ∧
      ∀ d d', d ≤ d' → ∀ x y, p.ageOn d = some x → p.ageOn d' = some y → x ≤ y) := by
  refine ⟨fun _ => Checked.ageOn_eq_ok, fun hage _ => ageOn_of_recorded hage, fun hage => ?_⟩
  refine ⟨?_, ?_, ?_⟩
  · intro s i j hs hwritten today
    obtain ⟨year, month, rfl, rfl⟩ := hwritten.exists_words
    exact ageOn_of_read hage hs (readYearMonth_eq_some_iff.2 hwritten)
  · intro hnone today
    refine ageOn_of_unread hage fun s hs => ?_
    cases hread : readYearMonth s with
    | none => rfl
    | some yearMonth => exact absurd (readYearMonth_eq_some_iff.1 hread) (hnone s hs _ _)
  · exact fun d d' hle x y hx hy => ageOn_mono hage hle hx hy

end Profile

namespace Sample

def bornInJune : Profile := { man with age := -1, birthMonth := "\t+01996-+006 \n" }

def bornLast : Profile := { man with birthMonth := "2147483647-12" }

def midsummer : Date :=
  { newYear.today with month := 6, day := 21, month_mem := by decide, day_mem := by decide }

def dawn : Date := { newYear.today with year := 0, year_lt := by decide, day_mem := by decide }

theorem isYearMonth_bornInJune : IsYearMonth "\t+01996-+006 \n" 1996 6 := by
  have hyear : Digits "01996".toList 1996 := ⟨by decide, List.all_eq_true.1 rfl, by decide⟩
  have hmonth : Digits "006".toList 6 := ⟨by decide, List.all_eq_true.1 rfl, by decide⟩
  exact ⟨"+01996".toList, "+006".toList,
    ⟨['\t'], [' ', '\n'], by decide, List.all_eq_true.1 rfl, List.all_eq_true.1 rfl⟩, by decide,
    ⟨.unsigned (.plus hyear), by decide⟩, .unsigned (.plus hmonth), by decide, by decide⟩

end Sample

/-- From the first of all dates to the last month the difference is the least word there is. -/
theorem Profile.ageOn_exact_sample :
    let p := Sample.bornInJune
    let d := Sample.newYear.today
    let d' := Sample.midsummer
    (¬0 < p.age ∧ p.birthMonth = some "\t+01996-+006 \n" ∧ IsYearMonth "\t+01996-+006 \n" 1996 6 ∧
      (p.ageOn d).map Int32.toInt = some 29) ∧
    (d ≤ d' ∧ p.ageOn d = some 29 ∧ p.ageOn d' = some 30 ∧ (29 : Int32) ≤ 30) ∧
    (0 < (Sample.suited .male).age ∧ (Sample.suited .male).ageOn d = some 32) ∧
    Checked.ageOn Sample.bornLast Sample.dawn = .ok (Sample.bornLast.ageOn Sample.dawn) ∧
      Checked.sub (0 - 2147483647) 1 = .ok (-2147483648) := by
  intro p d d'
  obtain ⟨-, -, hderived⟩ := ageOn_exact p
  obtain ⟨hchecked, -⟩ := ageOn_exact Sample.bornLast
  obtain ⟨-, hrecorded, -⟩ := ageOn_exact (Sample.suited .male)
  have hage : ¬0 < p.age := by decide
  obtain ⟨hread, -, hmono⟩ := hderived hage
  have hpos : 0 < (Sample.suited .male).age := by decide
  have hle : d ≤ d' := by decide
  have hd : p.ageOn d = some 29 := by decide +kernel
  have hd' : p.ageOn d' = some 30 := by decide +kernel
  have hyears := hread _ 1996 6 rfl Sample.isYearMonth_bornInJune d
  exact ⟨⟨hage, rfl, Sample.isYearMonth_bornInJune, hyears.trans (by decide)⟩,
    ⟨hle, hd, hd', hmono d d' hle _ _ hd hd'⟩, ⟨hpos, hrecorded hpos d⟩, hchecked Sample.dawn, rfl⟩

end Matchmaking
