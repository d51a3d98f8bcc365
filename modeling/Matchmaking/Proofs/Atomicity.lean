import Matchmaking.Proofs.Courtship
import Matchmaking.Proofs.Requests

/-! Calls on pairings are atomic: under any hazards, on any books, a call that is turned down has
written nothing. -/
namespace Matchmaking

namespace Books

theorem pairings_setPartner {h : Hazards} {b : Books} {id : Int} {f : Client → Client} :
    (b.setPartner h id f).pairings = b.pairings := by
  have hfold : ∀ (l : List Int) (b : Books),
      (l.foldl (setStanding .stopped) b).pairings = b.pairings := by
    intro l
    induction l with
    | nil => exact fun _ => rfl
    | cons x l ih => exact fun b => ih (setStanding .stopped b x)
  exact hfold _ _

end Books

namespace Courtship
variable {h : Hazards} {today : Date} {b b' : Books} {id n : Int} {u : Unit}
variable {expected next : Stage} {operator reason : String}

/-! A pairing that was entered or moved is there to be read afterwards, so the reply to a call
that was committed is never a refusal. -/

theorem pairings_part {p : Pairing} (hp : part h p b = (.ok u, b')) :
    b'.pairings = b.pairings := by
  have hdetach : ∀ {b b' : Books} {x y r}, b.detach h x y = .ok (r, b') →
      b'.pairings = b.pairings := by
    intro b b' x y r hd
    rw [Books.detach_ok hd]
    split
    · exact Books.pairings_setPartner
    · rfl
  obtain ⟨_, _, b₁, hman, hwoman⟩ := part_ok hp
  exact (hdetach hwoman).trans (hdetach hman)

theorem pairing?_of_enter {p : NewPairing} (he : enter h p b = (.ok n, b')) :
    ∃ q, b'.pairing? n = some q := by
  obtain ⟨_, b₂, -, -, ha⟩ := enter_ok he
  obtain ⟨rfl, -, rfl⟩ := Books.addPairing_ok ha
  have hid : Numbered.id (p.at b₂.pairings.next) = b₂.pairings.next := rfl
  rw [Books.pairing?, Books.withPairing, Table.find?_add_eq, if_pos hid]
  cases b₂.pairings.find? b₂.pairings.next <;> simp

theorem pairing?_of_move (hm : move h id expected next operator reason b = (.ok u, b')) :
    ∃ q, b'.pairing? id = some q := by
  obtain ⟨-, b₁, _, b₂, hs, ha, hend⟩ := move_ok hm
  obtain ⟨_, rfl⟩ := Books.addMove_ok ha
  have hend : b'.pairings = b₁.pairings := by
    obtain ⟨-, rfl⟩ | ⟨-, _, -, hp⟩ := hend
    · rfl
    · exact (pairings_part hp).trans rfl
  obtain ⟨hr, -⟩ | ⟨-, p, hp, -, -, rfl⟩ := Books.moveStage_ok hs
  · cases hr
  · have hp' := Table.find?_modify_self (t := b.pairings) (i := id)
      (f := fun p => { p with stage := next }) fun _ => rfl
    exact ⟨_, by rw [Books.pairing?, hend]; exact hp'.trans (congrArg (Option.map _) hp)⟩

variable {e : AgencyError}

theorem snd_arrange_of_error {x y : Int} {admin remark : String}
    (he : (arrange h today x y admin remark b).1 = .error e) :
    (arrange h today x y admin remark b).2 = b := by
  rw [arrange] at he ⊢
  cases hp : propose today x y admin remark b with
  | error _ => rfl
  | ok p =>
    simp only [hp] at he ⊢
    rcases hc : (enter h p).commit b with ⟨e' | n, b'⟩
    · exact Work.eq_of_commit_error hc
    · obtain ⟨q, hq⟩ := pairing?_of_enter (Work.commit_eq_ok.1 hc)
      simp only [hc, Books.fetchPairing_eq_ok.2 hq] at he
      cases he

theorem snd_advance_of_error
    (he : (advance h id expected next operator reason b).1 = .error e) :
    (advance h id expected next operator reason b).2 = b := by
  rw [advance] at he ⊢
  rcases hc : (move h id expected next operator reason).commit b with ⟨e' | _, b'⟩
  · exact Work.eq_of_commit_error hc
  · obtain ⟨q, hq⟩ := pairing?_of_move (Work.commit_eq_ok.1 hc)
    simp only [hc, Books.fetchPairing_eq_ok.2 hq] at he
    cases he

theorem snd_breakUp_of_error (he : (breakUp h id operator reason b).1 = .error e) :
    (breakUp h id operator reason b).2 = b := by
  rw [breakUp] at he ⊢
  cases hp : b.fetchPairing id with
  | error _ => rfl
  | ok p =>
    simp only [hp] at he
    exact snd_advance_of_error he

theorem snd_strike_of_error (he : (strike h id b).1 = .error e) : (strike h id b).2 = b :=
  Work.eq_of_commit_error (Prod.ext he rfl)

end Courtship

/-- A call on a pairing that is turned down leaves the agency as it was: every client, pairing,
move and lease, and the numbers given out. -/
theorem Agency.unchanged_of_refused {a : Agency} {m : Moment} {r : Request} (hr : r.isCourtship)
    {e : Failure} (he : (a.serve m r).1 = .error e) : (a.serve m r).2 = a := by
  cases r with
  | arrange x y admin remark =>
    obtain ⟨_, he⟩ := error_of_settle he
    exact settle_eq_self (Courtship.snd_arrange_of_error he)
  | advance id expected next operator reason =>
    obtain ⟨_, he⟩ := error_of_settle he
    exact settle_eq_self (Courtship.snd_advance_of_error he)
  | breakUp id operator reason =>
    obtain ⟨_, he⟩ := error_of_settle he
    exact settle_eq_self (Courtship.snd_breakUp_of_error he)
  | strike id =>
    obtain ⟨_, he⟩ := error_of_settle he
    exact settle_eq_self (Courtship.snd_strike_of_error he)
  | _ => cases hr

/-- The man is linked to the woman and the third client stopped, and both are taken back when the
woman is found not to be linkable to him. -/
theorem Agency.unchanged_of_refused_sample :
    let a := ({} : Agency).after Sample.crossed
    let r : Request := .arrange 1 2 "" ""
    r.isCourtship ∧ (∃ e, (a.serve Sample.newYear r).1 = .error e) ∧
      (a.serve Sample.newYear r).2 = a := by
  intro a r
  have hr : r.isCourtship := rfl
  have he : (a.serve Sample.newYear r).1 =
      .error (.agency (.collision (.claimed .partnerLink "1"))) := by
    rfl
  exact ⟨hr, ⟨_, he⟩, unchanged_of_refused hr he⟩

end Matchmaking
