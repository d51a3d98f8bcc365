import Matchmaking.Proofs.Intake
import Matchmaking.Proofs.Integrity

/-! Profiles that are handed in once more. A profile is kept with the blanks around its name cut off,
and what is kept was checked before they were: it still passes, and to keep it again changes
nothing. So the profile of any client in the books can be handed in as it is, by one who is linked as
well, and it is a new profile's check alone that decides whether it is taken in. -/
namespace Matchmaking
open Text

namespace Profile
variable {p : Profile} {s : String}

theorem checkName_trimString : checkName (trimString s) = checkName s := by
  rw [checkName, toList_trimString, trim_trim, checkName]

/-- A name is in order if 1 to 64 characters are left of it. -/
theorem checkName_eq_ok_iff :
    checkName s = .ok () ↔ 1 ≤ (trimString s).length ∧ (trimString s).length ≤ nameLimit := by
  rw [← String.length_toList, toList_trimString, checkName]
  split
  · rename_i hnone
    refine ⟨nofun, fun h => ?_⟩
    omega
  · rename_i hsome
    split
    · rename_i hlong
      refine ⟨nofun, fun h => ?_⟩
      omega
    · rename_i hshort
      exact ⟨fun _ => ⟨by omega, by omega⟩, fun _ => rfl⟩

/-- The blanks around the name count for nothing in any of the checks. -/
theorem check_normalize : p.normalize.check = p.check := by
  rw [check, normalize, checkName_trimString, check]

theorem normalize_normalize : p.normalize.normalize = p.normalize := by
  simp only [normalize, trimString_trimString]

namespace IsTakenIn

theorem check_eq (hp : p.IsTakenIn) : p.check = .ok () := by
  obtain ⟨q, hq, rfl⟩ := hp
  rw [check_normalize, hq]

theorem normalize_eq (hp : p.IsTakenIn) : p.normalize = p := by
  obtain ⟨q, -, rfl⟩ := hp
  exact normalize_normalize

theorem trimString_name (hp : p.IsTakenIn) : trimString p.name = p.name :=
  congrArg name hp.normalize_eq

theorem length_name (hp : p.IsTakenIn) : 1 ≤ p.name.length ∧ p.name.length ≤ nameLimit := by
  have hlength := checkName_eq_ok_iff.1 (check_eq_ok_iff.1 hp.check_eq).name
  rwa [hp.trimString_name] at hlength

end IsTakenIn

end Profile

/-- What the storage checks of a client's row by itself: an education from 0 to 5, and words that it
knows. -/
structure Client.IsStorable (c : Client) : Prop where
  education : 0 ≤ c.profile.education.toInt ∧ c.profile.education.toInt ≤ 5
  gender : Vocabulary.word c.profile.gender ∈ ["male", "female"]
  marital : Vocabulary.word c.profile.marital ∈ ["unmarried", "married", "divorced", "widowed"]
  housing : Vocabulary.word c.profile.housing ∈ ["none", "owned", "mortgaged"]
  standing : Vocabulary.word c.standing ∈ ["single", "matching", "matched", "stopped"]

/-- The check of a profile asks for all of it that is not a matter of words. -/
theorem Client.isStorable_of_check {c : Client} (hc : c.profile.check = .ok ()) : c.IsStorable where
  education := (Profile.check_eq_ok_iff.1 hc).education
  gender := by cases c.profile.gender <;> decide
  marital := by cases c.profile.marital <;> decide
  housing := by cases c.profile.housing <;> decide
  standing := by cases c.standing <;> decide

namespace Books
variable {h : Hazards} {b : Books} {c : Client} {p : Profile} {f : Client → Client}

/-- To write what is there changes nothing. -/
theorem modifyClient_eq_self (hb : b.clients.Sound) (hc : c ∈ b.clients.rows) (hf : f c = c) :
    b.modifyClient c.id f = b := by
  have hsame : ∀ d ∈ b.clients.rows, (if d.id = c.id then f d else d) = d := by
    intro d hd
    split
    · rename_i hid
      rw [hb.eq_of_mem hd hc hid, hf]
    · rfl
  rw [modifyClient_eq_mapClients, mapClients, List.map_congr_left hsame, List.map_id']

/-- The gender that a client has is no change of it, so a partner does not stand against it. -/
theorem editProfile_own (hw : h.foreignWriter = none) (hb : b.clients.Sound)
    (hc : c ∈ b.clients.rows) (hp : c.profile.IsTakenIn) :
    b.editProfile h c.id c.profile = .ok b := by
  have hfind : b.client? c.id = some c := hb.find?_of_mem hc
  have hallow : h.allow = .ok () := by rw [Hazards.allow, hw]; rfl
  have hsame : (b.modifyClient c.id fun d => { d with profile := c.profile.normalize }) = b :=
    modifyClient_eq_self hb hc (by rw [hp.normalize_eq])
  simp only [editProfile, hp.check_eq, hallow, hfind, hsame, beq_self_eq_true, Bool.or_true, if_true]
  rfl

theorem register_eq (hw : h.foreignWriter = none) :
    b.register h p = match p.check with
      | .ok _ => .ok (b.clients.next, b.withClient p.normalize)
      | .error e => .error (.badProfile e) := by
  have hallow : h.allow = .ok () := by rw [Hazards.allow, hw]; rfl
  rw [register, hallow]
  cases p.check with
  | error e => rfl
  | ok u => rfl

end Books

namespace Agency
variable {a : Agency} {m : Moment} {c : Client} {p : Profile}

theorem serve_editProfile_own (hw : a.hazards.foreignWriter = none) (hb : a.books.clients.Sound)
    (hc : c ∈ a.books.clients.rows) (hp : c.profile.IsTakenIn) :
    a.serve m (.book (.editProfile c.id c.profile)) = (.ok (.book .done), a) := by
  rw [serve, BookRequest.attempt, Books.editProfile_own hw hb hc hp]
  rfl

theorem exists_number_iff_check (hw : a.hazards.foreignWriter = none) :
    (∃ id, (a.serve m (.book (.register p))).1 = .ok (.book (.number id))) ↔ p.check = .ok () := by
  rw [serve, BookRequest.attempt, Books.register_eq hw]
  cases p.check with
  | error e =>
    constructor
    · rintro ⟨id, hid⟩
      cases hid
    · intro hok
      cases hok
  | ok u => exact ⟨fun _ => rfl, fun _ => ⟨_, rfl⟩⟩

/-- After any requests and with any faults armed, every client's profile passes the check and what the
storage checks itself, and its name has no blanks around it and 1 to 64 characters. As long as no
foreign writer holds the books, whoever is there can hand in the profile that is kept, linked or
not, and nothing changes; and a new profile is taken in exactly where it passes the check. What is
refused leaves the agency as it was. -/
theorem profiles_resubmittable (rs : List (Moment × Request)) :
    let a := ({} : Agency).after rs
    (∀ c ∈ a.books.clients.rows, c.profile.check = .ok () ∧ c.IsStorable ∧
      trimString c.profile.name = c.profile.name ∧
      1 ≤ c.profile.name.length ∧ c.profile.name.length ≤ 64) ∧
    (a.hazards.foreignWriter = none → ∀ m,
      (∀ c ∈ a.books.clients.rows,
        a.serve m (.book (.editProfile c.id c.profile)) = (.ok (.book .done), a)) ∧
      ∀ p, (∃ id, (a.serve m (.book (.register p))).1 = .ok (.book (.number id))) ↔
        p.check = .ok ()) ∧
    ∀ m p e,
      ((a.serve m (.book (.register p))).1 = .error e → (a.serve m (.book (.register p))).2 = a) ∧
      ∀ id, (a.serve m (.book (.editProfile id p))).1 = .error e →
        (a.serve m (.book (.editProfile id p))).2 = a := by
  intro a
  have hintact : a.books.Intact := intact_after Books.intact_empty
  have htaken : a.books.AllTakenIn := allTakenIn_after
  refine ⟨fun c hc => ?_, fun hw m => ⟨fun c hc => ?_, fun p => ?_⟩, fun m p e => ⟨?_, fun id => ?_⟩⟩
  · have hp : c.profile.IsTakenIn := htaken c hc
    exact ⟨hp.check_eq, Client.isStorable_of_check hp.check_eq, hp.trimString_name, hp.length_name⟩
  · exact serve_editProfile_own hw hintact.clients.sound hc (htaken c hc)
  · exact exists_number_iff_check hw
  · exact eq_self_of_error
  · exact eq_self_of_error

end Agency

namespace Sample

def padded : Profile := { bornInMay with name := "\t\u00a0Wei Lin\u3000\n" }

def paddedCouple : List (Moment × Request) :=
  [.book (.register padded), .book (.register woman), .arrange 1 2 "" "", .arm (.partnerWrite 1),
    .arm (.shortlistWrite 1)].map (newYear, ·)

end Sample

/-- The linked man is what he was after he hands in his profile as it is kept, and after he is
refused another gender. -/
theorem Agency.profiles_resubmittable_sample :
    let a := ({} : Agency).after Sample.paddedCouple
    a.hazards.foreignWriter = none ∧
    (∃ c ∈ a.books.clients.rows, (c.partner = some 2 ∧ c.profile.name = "Wei Lin") ∧
      (c.profile.check = .ok () ∧ c.IsStorable) ∧
      a.serve Sample.newYear (.book (.editProfile c.id c.profile)) = (.ok (.book .done), a)) ∧
    (Sample.padded.check = .ok () ∧ ∃ id,
      (a.serve Sample.newYear (.book (.register Sample.padded))).1 = .ok (.book (.number id))) ∧
    ∃ e, (a.serve Sample.newYear (.book (.editProfile 1 Sample.woman))).1 = .error e ∧
      (a.serve Sample.newYear (.book (.editProfile 1 Sample.woman))).2 = a := by
  intro a
  obtain ⟨hrows, hopen, hrefused⟩ := profiles_resubmittable Sample.paddedCouple
  have hw : a.hazards.foreignWriter = none := by decide +kernel
  have hman : ∃ c ∈ a.books.clients.rows, c.partner = some 2 ∧ c.profile.name = "Wei Lin" := by
    decide +kernel
  have hpadded : Sample.padded.check = .ok () := by decide +kernel
  have hgender : (a.serve Sample.newYear (.book (.editProfile 1 Sample.woman))).1 =
      .error (.book (.barred .client "1" .linkedGender)) := by
    rfl
  obtain ⟨hown, hnew⟩ := hopen hw Sample.newYear
  obtain ⟨c, hc, hpartner, hname⟩ := hman
  obtain ⟨hcheck, hstorable, -⟩ := hrows c hc
  obtain ⟨-, hedit⟩ := hrefused Sample.newYear Sample.woman (.book (.barred .client "1" .linkedGender))
  exact ⟨hw, ⟨c, hc, ⟨hpartner, hname⟩, ⟨hcheck, hstorable⟩, hown c hc⟩,
    ⟨hpadded, (hnew Sample.padded).2 hpadded⟩, _, hgender, hedit 1 hgender⟩

end Matchmaking
