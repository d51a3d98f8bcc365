import Matchmaking.Proofs.Ages
import Matchmaking.Proofs.Shortlists

/-! What is taken in, and that it is understood. The month of a birth month may be put in any way that
is a number from 1 to 12, not only in two digits; the same year and month are then read from it, so
that whoever is in the books with a birth month has an age wherever the years since are 1 to 120. -/
namespace Matchmaking
open Text Text.Decimal

/-! Birth months. -/

/-- Four digits, a dash and a month from 1 to 12, with blanks around them; `form` says which texts
are which numbers in the place of the month. -/
def IsBirthMonth (form : List Char → Nat → Prop) (s : String) (year month : Nat) : Prop :=
  ∃ y m, IsPadded s.toList (y ++ '-' :: m) ∧ (Digits y year ∧ y.length = 4) ∧ form m month ∧
    1 ≤ month ∧ month ≤ 12

def IsShort (s : List Char) (n : Nat) : Prop := Digits s n ∧ s.length ≤ 2

def IsLoose (s : List Char) (n : Nat) : Prop := Unsigned s n ∧ (s.head? = some '+' ∨ 2 < s.length)

section
variable {form form' : List Char → Nat → Prop} {s : String} {m : List Char}
variable {n year month year' month' : Nat}

theorem IsShort.unsigned (h : IsShort m n) : Unsigned m n := .plain h.1

theorem unsigned_cases (h : Unsigned m n) : IsShort m n ∨ IsLoose m n := by
  cases h with
  | plain hd =>
    obtain hlong | hle := Nat.lt_or_ge 2 m.length
    · exact .inr ⟨.plain hd, .inr hlong⟩
    · exact .inl ⟨hd, hle⟩
  | plus hd => exact .inr ⟨.plus hd, .inl rfl⟩

theorem IsShort.not_isLoose (h : IsShort m n) : ¬IsLoose m month := by
  rintro ⟨-, hplus | hlong⟩
  · have hdigit := h.1.digits '+' (List.mem_of_mem_head? hplus)
    cases hdigit
  · exact absurd hlong (Nat.not_lt.2 h.2)

theorem IsBirthMonth.mono (hform : ∀ m n, form m n → form' m n)
    (h : IsBirthMonth form s year month) : IsBirthMonth form' s year month := by
  obtain ⟨y, m, hs, hy, hm, hrange⟩ := h
  exact ⟨y, m, hs, hy, hform m month hm, hrange⟩

/-- The text is cut where its year ends, so there is one month in it. -/
theorem IsBirthMonth.exists_cut (hform : ∀ m n, form m n → Unsigned m n)
    (h : IsBirthMonth form s year month) : ∃ y m, cut '-' (trim s.toList) = some (y, m) ∧
      (Digits y year ∧ y.length = 4) ∧ form m month ∧ 1 ≤ month ∧ month ≤ 12 := by
  obtain ⟨y, m, hs, hy, hm, hrange⟩ := h
  have hdash : '-' ∉ y := Digits.notMem rfl hy.1
  exact ⟨y, m, hs.cut_trim hdash hy.1.isBlank_eq_false (hform m month hm).isBlank_eq_false,
    hy, hm, hrange⟩

theorem IsBirthMonth.not_loose (h : IsBirthMonth IsShort s year month) :
    ¬IsBirthMonth IsLoose s year' month' := by
  intro h'
  obtain ⟨y, m, hcut, -, hshort, -⟩ := h.exists_cut fun _ _ => IsShort.unsigned
  obtain ⟨y', m', hcut', -, hloose, -⟩ := h'.exists_cut fun _ _ => And.left
  obtain ⟨-, rfl⟩ := Prod.mk.inj (Option.some.inj (hcut.symm.trans hcut'))
  exact hshort.not_isLoose hloose

theorem checkBirthMonth_eq_ok_iff :
    Profile.checkBirthMonth s = .ok () ↔ ∃ year month, IsBirthMonth Unsigned s year month := by
  have hone : (1 : UInt32).toNat = 1 := rfl
  have htwelve : (12 : UInt32).toNat = 12 := rfl
  constructor
  · intro hok
    rw [Profile.checkBirthMonth] at hok
    split at hok
    · cases hok
    · rename_i y m hcut
      split at hok
      · cases hok
      · rename_i hyear
        obtain ⟨hfour, hdigits⟩ := not_not.1 hyear
        split at hok
        · cases hok
        · rename_i u hmonth
          split at hok
          · rename_i hrange
            rw [UInt32.le_iff_toNat_le, UInt32.le_iff_toNat_le] at hrange
            have hne : y ≠ [] := by
              rintro rfl
              cases hfour
            have hdigits : Digits y _ := ⟨hne, List.all_eq_true.1 hdigits, rfl⟩
            exact ⟨_, u.toNat, y, m, (isPadded_of_cut hcut).1, ⟨hdigits, hfour⟩,
              readUInt32_eq_some_iff.1 hmonth, hrange⟩
          · cases hok
  · rintro ⟨year, month, hborn⟩
    obtain ⟨y, m, hcut, hy, hm, hlow, hhigh⟩ := hborn.exists_cut fun _ _ => id
    have hmonth : (UInt32.ofNat month).toNat = month := UInt32.toNat_ofNat_of_lt' (by
      rw [UInt32.size]
      omega)
    have hread : readUInt32 m = some (.ofNat month) := by
      rwa [readUInt32_eq_some_iff, hmonth]
    have hrange : 1 ≤ UInt32.ofNat month ∧ UInt32.ofNat month ≤ 12 := by
      rw [UInt32.le_iff_toNat_le, UInt32.le_iff_toNat_le, hmonth]
      exact ⟨hlow, hhigh⟩
    have hyear : y.length = 4 ∧ y.all Char.isDigit := ⟨hy.2, List.all_eq_true.2 hy.1.digits⟩
    simp only [Profile.checkBirthMonth, hcut, hread, hyear, hrange, not_true_eq_false, if_false,
      and_self, if_true]
    rfl

theorem IsBirthMonth.year_le (h : IsBirthMonth form s year month) : year ≤ 9999 := by
  obtain ⟨y, m, -, ⟨hyear, hfour⟩, -⟩ := h
  have hlt := hyear.lt_pow
  rw [hfour] at hlt
  omega

/-- The year and the month that are taken in are the ones that are read. -/
theorem IsBirthMonth.readYearMonth_eq (h : IsBirthMonth Unsigned s year month) :
    readYearMonth s = some (.ofNat year, .ofNat month) := by
  have hle := h.year_le
  obtain ⟨y, m, hs, ⟨hyear, -⟩, hmonth, hlow, hhigh⟩ := h
  have hyears : (Int32.ofNat year).toInt = year := Int32.toInt_ofNat_of_lt (by omega)
  have hmonths : (Int32.ofNat month).toInt = month := Int32.toInt_ofNat_of_lt (by omega)
  rw [readYearMonth_eq_some_iff, hyears, hmonths]
  exact ⟨y, m, hs, hyear.notMem rfl, ⟨.unsigned (.plain hyear), by omega⟩, .unsigned hmonth,
    by omega, by omega⟩

end

/-- A birth month is taken in if it is four digits, a dash and a month from 1 to 12, with blanks around
them, and if it is nothing else. The month may have a plus sign and leading zeros: to ask for one digit
or two instead comes to the same for every text but those whose month has a plus sign or more digits. -/
theorem Profile.checkBirthMonth_exact (s : String) :
    (checkBirthMonth s = .ok () ↔ ∃ year month, IsBirthMonth Unsigned s year month) ∧
    ((checkBirthMonth s = .ok () ↔ ∃ year month, IsBirthMonth IsShort s year month) ↔
      ¬∃ year month, IsBirthMonth IsLoose s year month) := by
  refine ⟨checkBirthMonth_eq_ok_iff, ?_, fun hnone => ⟨fun hok => ?_, ?_⟩⟩
  · rintro hiff ⟨year, month, hloose⟩
    have hok := checkBirthMonth_eq_ok_iff.2 ⟨year, month, hloose.mono fun _ _ => And.left⟩
    obtain ⟨_, _, hshort⟩ := hiff.1 hok
    exact hshort.not_loose hloose
  · obtain ⟨year, month, y, m, hs, hy, hm, hrange⟩ := checkBirthMonth_eq_ok_iff.1 hok
    obtain hshort | hloose := unsigned_cases hm
    · exact ⟨year, month, y, m, hs, hy, hshort, hrange⟩
    · exact absurd ⟨year, month, y, m, hs, hy, hloose, hrange⟩ hnone
  · rintro ⟨year, month, hshort⟩
    exact checkBirthMonth_eq_ok_iff.2 ⟨year, month, hshort.mono fun _ _ => IsShort.unsigned⟩

/-- A month with a plus sign is taken in. -/
theorem Profile.not_isShort_of_checked :
    checkBirthMonth "2000-+5" = .ok () ∧
      ¬∃ year month, IsBirthMonth IsShort "2000-+5" year month := by
  have hyear : Digits "2000".toList 2000 := ⟨by decide, List.all_eq_true.1 rfl, by decide⟩
  have hmonth : Digits ['5'] 5 := ⟨by decide, List.all_eq_true.1 rfl, by decide⟩
  have hloose : IsBirthMonth IsLoose "2000-+5" 2000 5 :=
    ⟨"2000".toList, "+5".toList, ⟨[], [], by decide, nofun, nofun⟩, ⟨hyear, by decide⟩,
      ⟨.plus hmonth, .inl rfl⟩, by decide, by decide⟩
  refine ⟨by decide +kernel, ?_⟩
  rintro ⟨_, _, hshort⟩
  exact hshort.not_loose hloose

/-! The check of a whole profile. -/

namespace Profile
variable {p : Profile} {s : String} {today : Date} {age : Int32}

theorem within_eq_ok_iff {field : Field} {low high value : Int} {u : Unit} :
    within field low high value = .ok u ↔ low ≤ value ∧ value ≤ high := by
  rw [within]
  split
  · rename_i hrange
    exact ⟨fun _ => hrange, fun _ => rfl⟩
  · rename_i hrange
    refine ⟨fun h => ?_, fun h => absurd h hrange⟩
    cases h

structure Passes (p : Profile) : Prop where
  name : checkName p.name = .ok ()
  age : 0 ≤ p.age.toInt ∧ p.age.toInt ≤ ageLimit
  height : 0 ≤ p.height.toInt ∧ p.height.toInt ≤ heightLimit
  education : 0 ≤ p.education.toInt ∧ p.education.toInt ≤ educationLimit
  income : 0 ≤ p.monthlyIncome.toInt ∧ p.monthlyIncome.toInt ≤ incomeLimit
  birthMonth : ∀ s, p.birthMonth = some s → checkBirthMonth s = .ok ()

theorem check_eq_ok_iff : p.check = .ok () ↔ p.Passes := by
  simp only [check, bind_eq_ok, within_eq_ok_iff]
  constructor
  · rintro ⟨_, hname, _, hage, _, hheight, _, heducation, _, hincome, hbirth⟩
    refine ⟨hname, hage, hheight, heducation, hincome, fun s hs => ?_⟩
    rwa [hs] at hbirth
  · intro hp
    refine ⟨(), hp.name, (), hp.age, (), hp.height, (), hp.education, (), hp.income, ?_⟩
    cases hs : p.birthMonth with
    | none => rfl
    | some s => exact hp.birthMonth s hs

/-! Only the name is kept otherwise than it was checked. -/

theorem IsTakenIn.age_le (hp : p.IsTakenIn) : p.age ≤ 120 := by
  obtain ⟨q, hq, rfl⟩ := hp
  rw [age_normalize]
  exact Int32.le_iff_toInt_le.2 (check_eq_ok_iff.1 hq).age.2

theorem IsTakenIn.checkBirthMonth_eq (hp : p.IsTakenIn) (hs : p.birthMonth = some s) :
    checkBirthMonth s = .ok () := by
  obtain ⟨q, hq, rfl⟩ := hp
  exact (check_eq_ok_iff.1 hq).birthMonth s hs

theorem IsTakenIn.ageOn_mem (hp : p.IsTakenIn) (hage : p.ageOn today = some age) :
    1 ≤ age ∧ age ≤ 120 :=
  ⟨Int32.le_iff_toInt_le.2 (Int32.lt_iff_toInt_lt.1 (Checked.pos_of_ageOn hage)),
    (Profile.ageOn_mem hp.age_le hage).2⟩

theorem ageOn_eq_none_iff {year month : Int32} (hage : ¬0 < p.age) (hs : p.birthMonth = some s)
    (hread : readYearMonth s = some (year, month)) :
    p.ageOn today = none ↔ ¬(1 ≤ today.yearsSince year.toInt month.toInt ∧
      today.yearsSince year.toInt month.toInt ≤ 120) := by
  rw [← Option.map_eq_none_iff (f := Int32.toInt), ageOn_of_read hage hs hread]
  split
  · rename_i hrange
    refine ⟨fun h => ?_, fun h => absurd hrange h⟩
    cases h
  · rename_i hrange
    exact ⟨fun _ => hrange, fun _ => rfl⟩

end Profile

/-! The profiles in the books. -/

namespace Books
variable {marks : Prop} {b b' : Books}

def AllTakenIn (b : Books) : Prop := ∀ c ∈ b.clients.rows, c.profile.IsTakenIn

theorem allTakenIn_empty : ({} : Books).AllTakenIn :=
  fun _ hc => absurd hc List.not_mem_nil

theorem AllTakenIn.mapClients {g : Client → Client} (hb : b.AllTakenIn)
    (hg : ∀ c, (g c).profile = c.profile ∨ (g c).profile.IsTakenIn) :
    (b.mapClients g).AllTakenIn := by
  intro c hc
  obtain ⟨d, hd, rfl⟩ := List.mem_map.1 hc
  obtain hsame | htaken := hg d
  · rw [hsame]
    exact hb d hd
  · exact htaken

theorem Stroke.allTakenIn (hs : b.Stroke marks b') (hb : b.AllTakenIn) : b'.AllTakenIn := by
  cases hs with
  | register p htaken =>
    intro c hc
    obtain hc | rfl := (Table.mem_rows_add b.clients).1 hc
    · exact hb c hc
    · exact htaken
  | revise hid hp hprofile => exact hb.mapClients hprofile
  | attach hid hp hno hhas hprofile => exact hb.mapClients fun c => .inl (hprofile c)
  | @remove id g hid hp hprofile =>
    have hleft : (b.withoutClient id).AllTakenIn :=
      fun c hc => hb c (Table.mem_rows_erase.1 hc).1
    exact hleft.mapClients fun c => .inl (hprofile c)
  | _ => exact hb

end Books

namespace Agency

theorem allTakenIn_after {rs : List (Moment × Request)} :
    (({} : Agency).after rs).books.AllTakenIn :=
  strokes_of_after.keep Books.Stroke.allTakenIn Books.allTakenIn_empty

/-- Whatever is taken in as a birth month is read, as the year of its four digits and the same
month. So whoever is in the books after any requests has no age on a date, or one from 1 to 120; and
with a birth month and no recorded age there is none only where the years since that month are not
1 to 120. -/
theorem birth_months_read :
    (∀ s, Profile.checkBirthMonth s = .ok () → ∃ year month : Nat,
      IsBirthMonth Unsigned s year month ∧ year ≤ 9999 ∧
        readYearMonth s = some (.ofNat year, .ofNat month)) ∧
    ∀ rs, ∀ c ∈ (({} : Agency).after rs).books.clients.rows, ∀ today : Date,
      (∀ age, c.profile.ageOn today = some age → 1 ≤ age ∧ age ≤ 120) ∧
      (c.profile.age = 0 → ∀ s, c.profile.birthMonth = some s → ∃ year month : Nat,
        IsBirthMonth Unsigned s year month ∧
        readYearMonth s = some (.ofNat year, .ofNat month) ∧
        (c.profile.ageOn today = none ↔
          ¬(1 ≤ today.yearsSince year month ∧ today.yearsSince year month ≤ 120))) := by
  have hread : ∀ s, Profile.checkBirthMonth s = .ok () → ∃ year month : Nat,
      IsBirthMonth Unsigned s year month ∧ year ≤ 9999 ∧
        readYearMonth s = some (.ofNat year, .ofNat month) := by
    intro s hs
    obtain ⟨year, month, hborn⟩ := checkBirthMonth_eq_ok_iff.1 hs
    exact ⟨year, month, hborn, hborn.year_le, hborn.readYearMonth_eq⟩
  refine ⟨hread, fun rs c hc today => ?_⟩
  have htaken : c.profile.IsTakenIn := allTakenIn_after c hc
  refine ⟨fun age => htaken.ageOn_mem, fun hage s hs => ?_⟩
  obtain ⟨year, month, hborn, hle, hread⟩ := hread s (htaken.checkBirthMonth_eq hs)
  have hyear : (Int32.ofNat year).toInt = year := Int32.toInt_ofNat_of_lt (by omega)
  have hmonth : (Int32.ofNat month).toInt = month := by
    obtain ⟨_, _, -, -, -, -, hhigh⟩ := hborn
    exact Int32.toInt_ofNat_of_lt (by omega)
  have hnot : ¬0 < c.profile.age := by
    rw [hage]
    decide
  refine ⟨year, month, hborn, hread, ?_⟩
  rw [Profile.ageOn_eq_none_iff hnot hs hread, hyear, hmonth]

end Agency

namespace Sample

def bornInMay : Profile := { man with birthMonth := " 2000-+5\n" }

def newcomer : List (Moment × Request) :=
  [.book (.register woman), .book (.editProfile 1 bornInMay)].map (newYear, ·)

end Sample

theorem Agency.birth_months_read_sample :
    let s := " 2000-+5\n"
    let rows := (({} : Agency).after Sample.newcomer).books.clients.rows
    (Profile.checkBirthMonth s = .ok () ∧ ∃ year month : Nat, IsBirthMonth Unsigned s year month ∧
      year ≤ 9999 ∧ readYearMonth s = some (.ofNat year, .ofNat month)) ∧
    ∃ c ∈ rows, (c.profile.age = 0 ∧ c.profile.birthMonth = some s) ∧
      (c.profile.ageOn Sample.newYear.today = some 25 ∧ (1 : Int32) ≤ 25 ∧ (25 : Int32) ≤ 120) ∧
      c.profile.ageOn Sample.dawn = none ∧ ∃ year month : Nat,
        readYearMonth s = some (.ofNat year, .ofNat month) ∧
        ¬(1 ≤ Sample.dawn.yearsSince year month ∧ Sample.dawn.yearsSince year month ≤ 120) := by
  intro s rows
  obtain ⟨hread, hbooks⟩ := birth_months_read
  have hcheck : Profile.checkBirthMonth s = .ok () := by decide +kernel
  have hrow : ∃ c ∈ rows, c.profile.age = 0 ∧ c.profile.birthMonth = some s ∧
      c.profile.ageOn Sample.newYear.today = some 25 ∧ c.profile.ageOn Sample.dawn = none := by
    decide +kernel
  obtain ⟨c, hc, hage, hs, hthen, hbefore⟩ := hrow
  obtain ⟨hrange, -⟩ := hbooks _ c hc Sample.newYear.today
  obtain ⟨-, hnone⟩ := hbooks _ c hc Sample.dawn
  obtain ⟨year, month, -, hmonth, hyears⟩ := hnone hage s hs
  exact ⟨⟨hcheck, hread s hcheck⟩, c, hc, ⟨hage, hs⟩, ⟨hthen, hrange 25 hthen⟩, hbefore,
    year, month, hmonth, hyears.1 hbefore⟩

end Matchmaking
