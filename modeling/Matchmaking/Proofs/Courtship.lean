import Matchmaking.Agency.Courtship
import Matchmaking.Proofs.Numbering
import Matchmaking.Proofs.Writes

/-! The calls on pairings, statement by statement, under any hazards. -/
namespace Matchmaking

namespace Books
variable {b : Books} {id : Int}

theorem fetchPairing_eq_ok {p : Pairing} : b.fetchPairing id = .ok p ↔ b.pairing? id = some p := by
  rw [fetchPairing]
  cases b.pairing? id <;> simp [pure, Except.pure, throw, throwThe, MonadExceptOf.throw]

end Books

namespace Courtship

def proposal (today : Date) (man woman : Client) (admin remark : String) : NewPairing where
  man := man.id
  woman := woman.id
  score := (FiveFactor.judge today man.profile woman.profile).score
  remark := remark
  admin := admin

variable {h : Hazards} {b b' : Books} {id n : Int} {u : Unit}
variable {expected next : Stage} {operator reason : String}

/-- The reasons against a proposal are looked at one after the other. -/
theorem propose_of_ne {x y : Int} (hne : x ≠ y) (today : Date) (admin remark : String) :
    propose today x y admin remark b =
      match b.client? x, b.client? y with
      | none, _ => .error (.absent .client (toString x))
      | some _, none => .error (.absent .client (toString y))
      | some c, some d =>
        match coupleBy (·.profile.gender) c d with
        | none => .error (.objection .oneGender)
        | some (man, woman) =>
          if !man.isFree then .error (.unavailable man.id)
          else if !woman.isFree then .error (.unavailable woman.id)
          else .ok (proposal today man woman admin remark) := by
  rw [propose, if_neg hne, Books.fetchClient, Books.fetchClient]
  cases b.client? x with
  | none => rfl
  | some c =>
    cases b.client? y with
    | none => rfl
    | some d => rfl

theorem claim_ok {x y : Int} (hc : claim h x y b = (.ok u, b')) :
    b.attach h x y = .ok (true, b') := by
  obtain ⟨r, b₁, hw, hc⟩ := Work.bind_eq_ok.1 hc
  cases r with
  | false => cases hc
  | true =>
    cases hc
    exact Work.write_eq_ok.1 hw

theorem enter_ok {p : NewPairing} (he : enter h p b = (.ok n, b')) :
    ∃ b₁ b₂, b.attach h p.man p.woman = .ok (true, b₁) ∧
      b₁.attach h p.woman p.man = .ok (true, b₂) ∧ b₂.addPairing h p = .ok (n, b') := by
  obtain ⟨_, b₁, hman, he⟩ := Work.bind_eq_ok.1 he
  obtain ⟨_, b₂, hwoman, he⟩ := Work.bind_eq_ok.1 he
  exact ⟨b₁, b₂, claim_ok hman, claim_ok hwoman, Work.write_eq_ok.1 he⟩

theorem part_ok {p : Pairing} (hp : part h p b = (.ok u, b')) :
    ∃ r₁ r₂ b₁, b.detach h p.man p.woman = .ok (r₁, b₁) ∧
      b₁.detach h p.woman p.man = .ok (r₂, b') := by
  obtain ⟨r₁, b₁, hman, hp⟩ := Work.bind_eq_ok.1 hp
  obtain ⟨r₂, b₂, hwoman, hp⟩ := Work.bind_eq_ok.1 hp
  cases hp
  exact ⟨r₁, r₂, b₁, Work.write_eq_ok.1 hman, Work.write_eq_ok.1 hwoman⟩

theorem move_ok (hm : move h id expected next operator reason b = (.ok u, b')) :
    expected.leadsTo next ∧ ∃ b₁ n b₂, b.moveStage h id expected next = .ok (true, b₁) ∧
      b₁.addMove h id expected next operator reason = .ok (n, b₂) ∧
      ((next ≠ .broken ∧ b' = b₂) ∨
        (next = .broken ∧ ∃ p, b₂.pairing? id = some p ∧ part h p b₂ = (.ok u, b'))) := by
  rw [move] at hm
  split at hm
  · rename_i hl
    obtain ⟨r, b₁, hs, hm⟩ := Work.bind_eq_ok.1 hm
    cases r with
    | false => cases hm
    | true =>
      obtain ⟨n, b₂, ha, hm⟩ := Work.bind_eq_ok.1 hm
      refine ⟨hl, b₁, n, b₂, Work.write_eq_ok.1 hs, Work.write_eq_ok.1 ha, ?_⟩
      split at hm
      · rename_i hb
        obtain ⟨p, b₃, hp, hm⟩ := Work.bind_eq_ok.1 hm
        obtain ⟨hfetch, rfl⟩ := Work.read_eq_ok.1 hp
        exact .inr ⟨hb, p, Books.fetchPairing_eq_ok.1 hfetch, hm⟩
      · rename_i hb
        cases hm
        exact .inl ⟨hb, rfl⟩
  · cases hm

theorem strike_ok (hs : strike h id b = (.ok u, b')) :
    ∃ p b₁, b.removePairing h id = .ok (p, b₁) ∧ part h p b₁ = (.ok u, b') := by
  obtain ⟨p, b₁, hr, hp⟩ := Work.bind_eq_ok.1 (Work.commit_eq_ok.1 hs)
  exact ⟨p, b₁, Work.write_eq_ok.1 hr, hp⟩

end Courtship

end Matchmaking
