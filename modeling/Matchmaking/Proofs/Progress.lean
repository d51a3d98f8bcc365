import Matchmaking.Proofs.Courtship
import Matchmaking.Proofs.Links
import Matchmaking.Proofs.Requests

/-! What the calls on pairings can do to the books when no fault is armed: two free clients are
joined, and a pairing that is there is moved, broken up or struck. -/
namespace Matchmaking

namespace Stage
variable {s t : Stage}

theorem isLive_iff : s.isLive ↔ s ≠ .broken := by simp [isLive]

theorem isLive_of_leadsTo (h : s.leadsTo t) : s.isLive := by
  rw [isLive_iff]
  rintro rfl
  rw [leadsTo_of_isFinal rfl] at h
  cases h

end Stage

theorem of_coupleBy {α : Type} {gender : α → Gender} {x y man woman : α}
    (hc : coupleBy gender x y = some (man, woman)) :
    gender man = .male ∧ gender woman = .female ∧
      (man = x ∧ woman = y ∨ man = y ∧ woman = x) := by
  rw [coupleBy] at hc
  split at hc <;> cases hc
  · exact ⟨‹_›, ‹_›, .inl ⟨rfl, rfl⟩⟩
  · exact ⟨‹_›, ‹_›, .inr ⟨rfl, rfl⟩⟩

namespace Books
variable {h : Hazards} {b b' : Books} {id x y : Int} {p : NewPairing}

structure CanJoin (b : Books) (p : NewPairing) : Prop where
  man : ∃ c, b.client? p.man = some c ∧ c.isFree
  woman : ∃ c, b.client? p.woman = some c ∧ c.isFree
  ne : p.man ≠ p.woman
  unclaimed : ∀ x, b.partner? x ≠ some p.man ∧ b.partner? x ≠ some p.woman
  unpaired : b.liveCount p.man p.woman = 0

/-- The steps in the course of a pairing, each with what it was allowed on, and the request that
alone can lead to it. -/
inductive Progress (b : Books) (r : Request) : Books → Prop
  | keep : Progress b r b
  | move {id : Int} {p : Pairing} {stage : Stage} (operator reason : String)
      (hp : b.pairing? id = some p) (hl : p.stage.leadsTo stage) (hs : stage ≠ .broken) :
      Progress b r ((b.withStage id stage).withMove id p.stage stage operator reason)
  | breakUp {id : Int} {p : Pairing} (operator reason : String) (hp : b.pairing? id = some p)
      (hl : p.stage.leadsTo .broken) :
      Progress b r (((b.withStage id .broken).withMove id p.stage .broken operator reason).parted
        p.man p.woman)
  | strike {id : Int} {p : Pairing} (hr : r = .strike id) (hp : b.pairing? id = some p) :
      Progress b r ((b.withoutPairing id).parted p.man p.woman)

theorem fetchClient_eq_ok {c : Client} : b.fetchClient id = .ok c ↔ b.client? id = some c := by
  rw [fetchClient]
  cases b.client? id <;> simp [pure, Except.pure, throw, throwThe, MonadExceptOf.throw]

theorem wed_of_attach (hf : h.faults = []) (ha : b.attach h x y = .ok (true, b')) :
    (∃ c, b.client? x = some c ∧ c.isFree) ∧ (∀ z, b.partner? z ≠ some y) ∧ b' = b.wed x y := by
  obtain ⟨hr, -⟩ | ⟨-, hfree, hno, -, rfl⟩ := attach_ok ha
  · cases hr
  · refine ⟨by simpa [Option.any_eq_true] using hfree, ?_, setPartner_of_no_faults hf _⟩
    intro z hz
    obtain ⟨c, hc, hp⟩ := partner?_eq_some.1 hz
    exact hno c (Table.mem_of_find? hc) hp

theorem release_of_detach {r : Bool} (hf : h.faults = []) (hd : b.detach h x y = .ok (r, b')) :
    b' = b.release x y := by
  rw [detach_ok hd, setPartner_of_no_faults hf, release]

end Books

namespace Courtship
variable {h : Hazards} {today : Date} {b b' : Books} {id n x y : Int} {u : Unit}
variable {expected next : Stage} {operator reason admin remark : String} {p : NewPairing}
variable {r : Request}

theorem parted_of_part {p : Pairing} (hf : h.faults = []) (hp : part h p b = (.ok u, b')) :
    b' = b.parted p.man p.woman := by
  obtain ⟨_, _, b₁, hman, hwoman⟩ := part_ok hp
  rw [Books.release_of_detach hf hwoman, Books.release_of_detach hf hman, Books.parted]

theorem joined_of_enter (hf : h.faults = []) (he : enter h p b = (.ok n, b')) :
    b.CanJoin p ∧ n = b.pairings.next ∧ b' = b.joined p := by
  obtain ⟨b₁, b₂, hman, hwoman, hadd⟩ := enter_ok he
  obtain ⟨⟨c, hc, hcf⟩, hno, rfl⟩ := Books.wed_of_attach hf hman
  obtain ⟨⟨d, hd, hdf⟩, hno', rfl⟩ := Books.wed_of_attach hf hwoman
  obtain ⟨rfl, hlive, rfl⟩ := Books.addPairing_ok hadd
  rw [Books.wed, Books.client?_modifyClient] at hd
  -- the woman is still free after the man is matched, so she is not the man
  have hne : p.man ≠ p.woman := by
    intro heq
    rw [if_pos heq.symm, hc] at hd
    cases hd
    cases (Client.isFree_iff.1 hdf).1
  rw [if_neg hne.symm] at hd
  have hcp : b.partner? p.man = none := by
    rw [Books.partner?_of_client? hc, (Client.isFree_iff.1 hcf).2]
  refine ⟨⟨⟨c, hc, hcf⟩, ⟨d, hd, hdf⟩, hne, fun z => ⟨fun hz => ?_, hno z⟩, ?_⟩, rfl, rfl⟩
  · have hzm : z ≠ p.man := by
      rintro rfl
      rw [hcp] at hz
      cases hz
    exact hno' z (by rw [Books.partner?_wed hc, if_neg hzm, hz])
  · exact Books.liveCount_eq_zero.2 hlive

theorem propose_ok (hp : propose today x y admin remark b = .ok p) :
    ∃ c d man woman, b.client? x = some c ∧ b.client? y = some d ∧
      coupleBy (·.profile.gender) c d = some (man, woman) ∧
      man.isFree ∧ woman.isFree ∧ p.man = man.id ∧ p.woman = woman.id := by
  have hne : x ≠ y := by
    intro hxy
    rw [propose, if_pos hxy] at hp
    cases hp
  rw [propose_of_ne hne] at hp
  split at hp
  · cases hp
  · cases hp
  · rename_i c d hc hd
    split at hp
    · cases hp
    · rename_i man woman hcouple
      split at hp
      · cases hp
      · rename_i hman
        split at hp
        · cases hp
        · rename_i hwoman
          cases hp
          exact ⟨c, d, man, woman, hc, hd, hcouple, by simpa using hman, by simpa using hwoman,
            rfl, rfl⟩

/-- Who is proposed as the man is one and is free, and so for the woman. -/
theorem parties_of_propose (hp : propose today x y admin remark b = .ok p) :
    ∃ man woman, b.client? p.man = some man ∧ b.client? p.woman = some woman ∧
      man.profile.gender = .male ∧ woman.profile.gender = .female ∧ man.isFree ∧ woman.isFree := by
  obtain ⟨c, d, man, woman, hc, hd, hcouple, hmf, hwf, hpm, hpw⟩ := propose_ok hp
  have hself : ∀ {z e}, b.client? z = some e → b.client? e.id = some e := by
    intro z e he
    have hid : e.id = z := Table.id_of_find? he
    rw [hid, he]
  obtain ⟨hman, hwoman, hparties⟩ := of_coupleBy hcouple
  have hthere : b.client? man.id = some man ∧ b.client? woman.id = some woman := by
    obtain ⟨rfl, rfl⟩ | ⟨rfl, rfl⟩ := hparties
    · exact ⟨hself hc, hself hd⟩
    · exact ⟨hself hd, hself hc⟩
  rw [hpm, hpw]
  exact ⟨man, woman, hthere.1, hthere.2, hman, hwoman, hmf, hwf⟩

theorem genders_of_propose (hp : propose today x y admin remark b = .ok p) :
    b.gender? p.man = some .male ∧ b.gender? p.woman = some .female := by
  obtain ⟨man, woman, hm, hw, hman, hwoman, -, -⟩ := parties_of_propose hp
  rw [Books.gender?_of_client? hm, Books.gender?_of_client? hw, hman, hwoman]
  exact ⟨rfl, rfl⟩

/-- Those proposed are the two who were asked for. -/
theorem names_of_propose (hp : propose today x y admin remark b = .ok p) :
    p.man = x ∧ p.woman = y ∨ p.man = y ∧ p.woman = x := by
  obtain ⟨c, d, man, woman, hc, hd, hcouple, -, -, hpm, hpw⟩ := propose_ok hp
  obtain ⟨-, -, hparties⟩ := of_coupleBy hcouple
  have hx : c.id = x := Table.id_of_find? hc
  have hy : d.id = y := Table.id_of_find? hd
  rw [hpm, hpw, ← hx, ← hy]
  obtain ⟨rfl, rfl⟩ | ⟨rfl, rfl⟩ := hparties
  · exact .inl ⟨rfl, rfl⟩
  · exact .inr ⟨rfl, rfl⟩

/-- A move that goes through, with the pairing it moves. -/
theorem moved_of_move (hf : h.faults = [])
    (hm : move h id expected next operator reason b = (.ok u, b')) :
    ∃ p, b.pairing? id = some p ∧ p.stage = expected ∧ expected.leadsTo next ∧
      b' = if next = .broken then
        ((b.withStage id next).withMove id expected next operator reason).parted p.man p.woman
      else (b.withStage id next).withMove id expected next operator reason := by
  obtain ⟨hl, b₁, _, b₂, hs, ha, hend⟩ := move_ok hm
  obtain ⟨-, rfl⟩ := Books.addMove_ok ha
  obtain ⟨hr, -⟩ | ⟨-, p, hp, hstage, -, rfl⟩ := Books.moveStage_ok hs
  · cases hr
  · refine ⟨p, hp, hstage, hl, ?_⟩
    obtain ⟨hnext, rfl⟩ | ⟨hnext, q, hq, hpart⟩ := hend
    · rw [if_neg hnext]
    · -- the pairing read back for parting names the same two
      have hnames : q.man = p.man ∧ q.woman = p.woman := by
        rw [Books.pairing?, Books.withMove, Books.withStage, Table.find?_modify_self,
          show b.pairings.find? id = some p from hp] at hq
        cases hq
        exact ⟨rfl, rfl⟩
      rw [if_pos hnext, parted_of_part hf hpart, hnames.1, hnames.2]

theorem progress_of_move (hf : h.faults = [])
    (hm : move h id expected next operator reason b = (.ok u, b')) : b.Progress r b' := by
  obtain ⟨p, hp, rfl, hl, rfl⟩ := moved_of_move hf hm
  split
  · rename_i hnext
    rw [hnext] at hl ⊢
    exact .breakUp operator reason hp hl
  · rename_i hnext
    exact .move operator reason hp hl hnext

theorem progress_of_advance (hf : h.faults = []) :
    b.Progress r (advance h id expected next operator reason b).2 := by
  rw [advance]
  split
  · rename_i hc
    rw [Work.eq_of_commit_error hc]
    exact .keep
  · rename_i hc
    exact progress_of_move hf (Work.commit_eq_ok.1 hc)

theorem progress_of_breakUp (hf : h.faults = []) :
    b.Progress r (breakUp h id operator reason b).2 := by
  rw [breakUp]
  split
  · exact .keep
  · exact progress_of_advance hf

theorem progress_of_strike (hf : h.faults = []) : b.Progress (.strike id) (strike h id b).2 := by
  cases hs : strike h id b with
  | mk r b' =>
    cases r with
    | error e =>
      rw [Work.eq_of_commit_error hs]
      exact .keep
    | ok u =>
      obtain ⟨p, b₁, hr, hpart⟩ := strike_ok hs
      obtain ⟨hp, rfl⟩ := Books.removePairing_ok hr
      rw [parted_of_part hf hpart]
      exact .strike rfl hp

/-- An arrangement that is turned down has done nothing, and one that is made has joined two
clients who could be joined. -/
theorem joined_of_arrange (hf : h.faults = []) :
    (arrange h today x y admin remark b).2 = b ∨
      ∃ p, propose today x y admin remark b = .ok p ∧ b.CanJoin p ∧
        (arrange h today x y admin remark b).2 = b.joined p := by
  rw [arrange]
  split
  · exact .inl rfl
  · rename_i p hp
    split
    · rename_i hc
      exact .inl (Work.eq_of_commit_error hc)
    · rename_i hc
      obtain ⟨hjoin, -, rfl⟩ := joined_of_enter hf (Work.commit_eq_ok.1 hc)
      exact .inr ⟨p, hp, hjoin, rfl⟩

end Courtship

/-- A request in the course of a pairing is one such step. -/
theorem Agency.progress_of_serve {a : Agency} {m : Moment} {r : Request}
    (hf : a.hazards.faults = []) (hr : r.isProgress) :
    a.books.Progress r (a.serve m r).2.books := by
  cases r with
  | advance id expected next operator reason => exact Courtship.progress_of_advance hf
  | breakUp id operator reason => exact Courtship.progress_of_breakUp hf
  | strike id => exact Courtship.progress_of_strike hf
  | _ => cases hr

/-- A request to arrange a pairing does nothing, or joins a man and a woman. -/
theorem Agency.joined_of_serve {a : Agency} {m : Moment} {r : Request} (hf : a.hazards.faults = [])
    (hr : r.isArrangement) :
    (a.serve m r).2.books = a.books ∨
      ∃ p, a.books.CanJoin p ∧ a.books.gender? p.man = some .male ∧
        a.books.gender? p.woman = some .female ∧ (a.serve m r).2.books = a.books.joined p := by
  cases r with
  | arrange x y admin remark =>
    cases Courtship.joined_of_arrange (b := a.books) hf with
    | inl hsame => exact .inl hsame
    | inr hjoined =>
      obtain ⟨p, hp, hj, hbooks⟩ := hjoined
      obtain ⟨hman, hwoman⟩ := Courtship.genders_of_propose hp
      exact .inr ⟨p, hj, hman, hwoman, hbooks⟩
  | _ => cases hr

end Matchmaking
