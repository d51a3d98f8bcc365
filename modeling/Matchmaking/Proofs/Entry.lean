import Matchmaking.Proofs.Genders

/-! What stands against the entry of a pairing when no fault is armed. A client who is gone, taken
or stopped and a pairing that lives are met by different statements, and each has its own answer. -/
namespace Matchmaking

namespace Books
variable {b : Books} {x y : Int}

theorem attach_eq : b.attach {} x y =
    if (b.client? x).any Client.isFree then
      if b.clients.rows.any (·.partner == some y) then
        .error (.duplicate .partnerLink (toString y))
      else if b.clients.has y then .ok (true, b.wed x y)
      else .error (.storage .foreignKey)
    else .ok (false, b) := by
  rw [wed, ← setPartner_of_no_faults (h := {}) rfl]
  rfl

theorem any_partner_iff (hb : b.clients.Sound) :
    b.clients.rows.any (·.partner == some y) ↔ ∃ x, b.partner? x = some y := by
  simp only [List.any_eq_true, beq_iff_eq, partner?_eq_some]
  constructor
  · rintro ⟨c, hc, hp⟩
    exact ⟨c.id, c, hb.find?_of_mem hc, hp⟩
  · rintro ⟨x, c, hc, hp⟩
    exact ⟨c, Table.mem_of_find? hc, hp⟩

theorem has_iff_client? : b.clients.has x ↔ b.client? x ≠ none := by
  rw [← Table.isSome_find?, Option.isSome_iff_ne_none, client?]

def hindrance? (b : Books) (p : NewPairing) : Option AgencyError :=
  if (b.client? p.man).any Client.isFree then
    match b.client? p.woman with
    | none => some (.books (.storage .foreignKey))
    | some c =>
      if c.partner.isSome then
        some (.collision (.claimed .partnerLink (toString p.woman)))
      else if !c.isFree then some (.collision (.taken p.woman))
      else if b.liveCount p.man p.woman ≠ 0 then
        some (.collision (.claimed .pairing s!"{p.man}/{p.woman}"))
      else none
  else some (.collision (.taken p.man))

theorem not_any_partner_of_free (hb : b.Linked) (hx : b.partner? x = none) :
    b.clients.rows.any (·.partner == some x) = false := by
  rw [Bool.eq_false_iff, ne_eq, any_partner_iff hb.clients]
  rintro ⟨z, hz⟩
  rw [hb.back hz] at hx
  cases hx

theorem attach_of_not_free (hx : (b.client? x).any Client.isFree = false) :
    b.attach {} x y = .ok (false, b) := by
  rw [attach_eq, hx, if_neg Bool.false_ne_true]

theorem attach_of_linked {z : Int} (hb : b.Linked) (hx : (b.client? x).any Client.isFree)
    (hy : b.partner? y = some z) :
    b.attach {} x y = .error (.duplicate .partnerLink (toString y)) := by
  rw [attach_eq, if_pos hx, if_pos ((any_partner_iff hb.clients).2 ⟨z, hb.back hy⟩)]

theorem attach_of_gone (hb : b.Linked) (hx : (b.client? x).any Client.isFree)
    (hy : b.client? y = none) : b.attach {} x y = .error (.storage .foreignKey) := by
  have hnone : b.partner? y = none := by rw [partner?, hy, Option.bind_none]
  rw [attach_eq, if_pos hx, not_any_partner_of_free hb hnone, if_neg Bool.false_ne_true,
    if_neg fun hhas => has_iff_client?.1 hhas hy]

theorem attach_of_free (hx : (b.client? x).any Client.isFree)
    (hno : b.clients.rows.any (·.partner == some y) = false) (hy : b.client? y ≠ none) :
    b.attach {} x y = .ok (true, b.wed x y) := by
  rw [attach_eq, if_pos hx, hno, if_neg Bool.false_ne_true, if_pos (has_iff_client?.2 hy)]

end Books

namespace Courtship
variable {b : Books} {x y : Int} {p : NewPairing} {c : Client}

theorem claim_eq : claim {} x y b =
    match b.attach {} x y with
    | .ok (true, b) => (.ok (), b)
    | .ok (false, b) => (.error (.collision (.taken x)), b)
    | .error e => (.error (.ofBooks e), b) := by
  rw [claim, Work.bind_apply, Work.write]
  cases b.attach {} x y with
  | error e => rfl
  | ok r =>
    obtain ⟨r, b'⟩ := r
    cases r <;> rfl

/-- The man is claimed, if the woman is there and without a partner. -/
theorem claim_man (hb : b.Linked) (hman : (b.client? p.man).any Client.isFree)
    (hc : b.client? p.woman = some c) (hp : c.partner = none) :
    claim {} p.man p.woman b = (.ok (), b.wed p.man p.woman) := by
  have hno := Books.not_any_partner_of_free hb ((Books.partner?_of_client? hc).trans hp)
  have hthere : b.client? p.woman ≠ none := by
    rw [hc]
    exact Option.some_ne_none c
  rw [claim_eq, Books.attach_of_free hman hno hthere]

/-- Then the woman is, if she is free. -/
theorem claim_woman (hb : b.Linked) (hne : p.man ≠ p.woman)
    (hman : (b.client? p.man).any Client.isFree) (hwoman : (b.client? p.woman).any Client.isFree) :
    claim {} p.woman p.man (b.wed p.man p.woman) =
      (.ok (), (b.wed p.man p.woman).wed p.woman p.man) := by
  obtain ⟨c, hc, hfree⟩ := (Option.any_eq_true _ _).1 hman
  have hstill : ((b.wed p.man p.woman).client? p.woman).any Client.isFree := by
    rwa [Books.wed, Books.client?_modifyClient, if_neg hne.symm]
  have hno : (b.wed p.man p.woman).clients.rows.any (·.partner == some p.man) = false := by
    -- nobody had the man as partner, and he has the woman
    rw [Bool.eq_false_iff, ne_eq, Books.any_partner_iff hb.toSettled.wed.clients]
    rintro ⟨z, hz⟩
    rw [Books.partner?_wed hc] at hz
    split at hz
    · exact hne.symm (Option.some.inj hz)
    · have hback := hb.back hz
      rw [Books.partner?_of_isFree ⟨c, hc, hfree⟩] at hback
      cases hback
  have hthere : (b.wed p.man p.woman).client? p.man ≠ none := by
    rw [Books.wed, Books.client?_modifyClient, if_pos rfl, hc]
    exact Option.some_ne_none _
  rw [claim_eq, Books.attach_of_free hstill hno hthere]

theorem commit_enter_of_man {e : AgencyError} (hm : claim {} p.man p.woman b = (.error e, b)) :
    (enter {} p).commit b = (.error e, b) := by
  have henter : enter {} p b = (.error e, b) := by rw [enter, Work.bind_apply, hm]
  exact Work.commit_of_error henter

theorem commit_enter_of_woman {b₁ : Books} {e : AgencyError}
    (hm : claim {} p.man p.woman b = (.ok (), b₁))
    (hw : claim {} p.woman p.man b₁ = (.error e, b₁)) : (enter {} p).commit b = (.error e, b) := by
  have henter : enter {} p b = (.error e, b₁) := by
    rw [enter, Work.bind_apply, hm]
    dsimp only
    rw [Work.bind_apply, hw]
  exact Work.commit_of_error henter

theorem commit_enter_of_claims {b₁ b₂ : Books} (hm : claim {} p.man p.woman b = (.ok (), b₁))
    (hw : claim {} p.woman p.man b₁ = (.ok (), b₂)) :
    (enter {} p).commit b =
      if b₂.liveCount p.man p.woman ≠ 0 then
        (.error (.collision (.claimed .pairing s!"{p.man}/{p.woman}")), b)
      else (.ok b₂.pairings.next, b₂.withPairing p) := by
  have henter : enter {} p b = Work.write (fun b => b.addPairing {} p) b₂ := by
    rw [enter, Work.bind_apply, hm]
    dsimp only
    rw [Work.bind_apply, hw]
  have hadd : b₂.addPairing {} p =
      if b₂.liveCount p.man p.woman ≠ 0 then .error (.duplicate .pairing s!"{p.man}/{p.woman}")
      else .ok (b₂.pairings.next, b₂.withPairing p) := by
    have hlive : (b₂.liveCount p.man p.woman ≠ 0) =
        (b₂.pairings.rows.any (·.isLiveFor p.man p.woman) = true) := by
      simp [Books.liveCount_eq_zero]
    simp only [hlive]
    rfl
  split
  · rename_i hl
    rw [Work.write, hadd, if_pos hl] at henter
    exact Work.commit_of_error henter
  · rename_i hl
    rw [Work.write, hadd, if_neg hl] at henter
    exact Work.commit_of_ok henter

/-- A pairing is entered exactly where nothing stands against it. -/
theorem commit_enter (hb : b.Linked) (hne : p.man ≠ p.woman) :
    (enter {} p).commit b =
      match b.hindrance? p with
      | some e => (.error e, b)
      | none => (.ok b.pairings.next, b.joined p) := by
  rw [Books.hindrance?]
  cases hman : (b.client? p.man).any Client.isFree with
  | false =>
    refine commit_enter_of_man ?_
    rw [claim_eq, Books.attach_of_not_free hman]
  | true =>
    rw [if_pos rfl]
    cases hc : b.client? p.woman with
    | none =>
      refine commit_enter_of_man ?_
      rw [claim_eq, Books.attach_of_gone hb hman hc]
      rfl
    | some c =>
      dsimp only
      cases hp : c.partner with
      | some z =>
        have hlink : b.partner? p.woman = some z := (Books.partner?_of_client? hc).trans hp
        refine commit_enter_of_man ?_
        rw [claim_eq, Books.attach_of_linked hb hman hlink]
        rfl
      | none =>
        have hm := claim_man hb hman hc hp
        have hwoman : (b.client? p.woman).any Client.isFree = c.isFree := by
          rw [hc, Option.any_some]
        cases hfree : c.isFree with
        | false =>
          have hstill : ((b.wed p.man p.woman).client? p.woman).any Client.isFree = false := by
            rw [Books.wed, Books.client?_modifyClient, if_neg hne.symm, hwoman, hfree]
          refine commit_enter_of_woman hm ?_
          rw [claim_eq, Books.attach_of_not_free hstill]
        | true =>
          have hw := claim_woman hb hne hman (hwoman.trans hfree)
          have hcount : ((b.wed p.man p.woman).wed p.woman p.man).liveCount = b.liveCount := rfl
          have hpairings : ((b.wed p.man p.woman).wed p.woman p.man).pairings = b.pairings := rfl
          rw [commit_enter_of_claims hm hw, hcount]
          by_cases hlive : b.liveCount p.man p.woman = 0
          · simp [hlive, hpairings, Books.joined]
          · simp [hlive]

end Courtship

namespace Books
variable {b b' : Books} {p : NewPairing} {x : Int}

def Bereft (b : Books) (p : NewPairing) : Prop :=
  (b.client? p.man).any Client.isFree ∧ b.client? p.woman = none

theorem hindrance?_of_bereft (hp : b.Bereft p) :
    b.hindrance? p = some (.books (.storage .foreignKey)) := by
  obtain ⟨hman, hwoman⟩ := hp
  rw [hindrance?, if_pos hman, hwoman]

theorem isCollision_of_hindrance? {e : AgencyError} (hp : ¬b.Bereft p)
    (he : b.hindrance? p = some e) : e.isCollision := by
  rw [hindrance?] at he
  split at he
  · rename_i hman
    split at he
    · rename_i hwoman
      exact absurd ⟨hman, hwoman⟩ hp
    · split at he
      · cases he
        rfl
      · split at he
        · cases he
          rfl
        · split at he
          · cases he
            rfl
          · cases he
  · cases he
    rfl

/-! Who is there stays there, unless they are removed. -/

theorem has_iff_gender? : b.clients.has x ↔ b.gender? x ≠ none := by
  rw [has_iff_client?, gender?, ne_eq, ne_eq, Option.map_eq_none_iff]

theorem has_of_annotates (ha : b.Annotates b') (hx : b.clients.has x) : b'.clients.has x := by
  obtain ⟨g, l, rfl⟩ := ha
  have hid : ∀ c : Client, Numbered.id { c with shortlist := g c } = Numbered.id c := fun _ => rfl
  exact (Table.has_map_rows hid).trans hx

theorem has_of_removeClient {h : Hazards} {id : Int} (hb : b.Linked) (hf : h.faults = [])
    (hr : b.removeClient h id = .ok b') (hx : b.clients.has x) (hne : x ≠ id) :
    b'.clients.has x := by
  obtain ⟨c, hc, -, hs, hl⟩ := removeClient_ok hr
  have hb' : b' = b.removed id := foldl_of_bereave hf hl
  rw [hb', removed_eq hb (hb.partner?_of_not_matched hc hs)]
  exact Table.has_erase.2 ⟨hx, hne⟩

end Books

theorem Agency.has_serve {a : Agency} {m : Moment} {r : Request} {x : Int}
    (hf : a.hazards.faults = []) (hb : a.books.Linked) (hr : r.isUpkeep)
    (hx : a.books.clients.has x) (hne : r ≠ .removeClient x) :
    (a.serve m r).2.books.clients.has x := by
  have hmodify : ∀ {id : Int} {f : Client → Client}, (∀ c, (f c).id = c.id) →
      (a.books.modifyClient id f).clients.has x := fun hf => (Table.has_modify hf).trans hx
  cases r with
  | book r =>
    cases r with
    | register p =>
      refine books_settleBook (P := (·.clients.has x)) hx fun _ _ hok => ?_
      obtain ⟨⟨n, b⟩, hreg, hok⟩ := bind_eq_ok.1 hok
      cases hok
      obtain ⟨-, -, rfl⟩ := Books.register_ok hreg
      exact Table.has_add.2 (.inl hx)
    | editProfile id p =>
      refine books_settleBook_write (P := (·.clients.has x)) hx fun _ hedit => ?_
      obtain ⟨-, c, -, -, rfl⟩ := Books.editProfile_ok hedit
      exact hmodify fun _ => rfl
    | writeShortlist id text =>
      refine books_settleBook_write (P := (·.clients.has x)) hx fun _ hwrite => ?_
      rw [Books.writeShortlist_ok hwrite]
      exact hmodify fun _ => rfl
    | _ => cases hr
  | removeClient id =>
    refine books_settleBook_write (P := (·.clients.has x)) hx fun _ hremove => ?_
    exact Books.has_of_removeClient hb hf hremove hx fun h => hne (h ▸ rfl)
  | switchStanding id s =>
    refine books_settleBook_write (P := (·.clients.has x)) hx fun _ hswitch => ?_
    obtain ⟨-, c, -, -, -, rfl⟩ := Books.switchStanding_ok hswitch
    exact hmodify fun _ => rfl
  | sweep s => exact Books.has_of_annotates (Sweep.annotates_run a.books) hx
  | _ => cases hr

namespace Desk
variable {d : Desk} {m : Moment} {a : Act} {acts : List (Moment × Act)} {x : Int} {p : NewPairing}

theorem has_act (hd : d.books.Linked) (hx : d.books.clients.has x) :
    (d.act m a).books.clients.has x ∨ ∃ hr, a = .request (.removeClient x) hr := by
  cases a with
  | request r hr =>
    by_cases hremove : r = .removeClient x
    · subst hremove
      exact .inr ⟨hr, rfl⟩
    · left
      cases hp : r.isProgress with
      | true =>
        have hprogress := Agency.progress_of_serve (a := { books := d.books }) (m := m) rfl hp
        rw [Books.has_iff_gender?] at hx ⊢
        rwa [act, hprogress.gender?_eq]
      | false =>
        have hu : r.isUpkeep := by simpa [hp] using hr
        exact Agency.has_serve (a := { books := d.books }) rfl hd hu hx hremove
  | propose x y admin remark =>
    left
    rw [act]
    split
    · exact hx
    · exact hx
  | enter i =>
    left
    by_cases hc : ∃ p, d.Commits (.enter i) p
    · obtain ⟨p, hc⟩ := hc
      rw [Books.has_iff_gender?] at hx ⊢
      rwa [books_of_commits hc, Books.gender?_joined]
    · rwa [books_enter_of_not_commits (not_exists.1 hc)]

theorem ne_of_fits {b : Books} (hf : b.Fits p) : p.man ≠ p.woman := by
  obtain ⟨hman, hwoman⟩ := hf
  intro heq
  rw [heq, hwoman] at hman
  cases hman

theorem ne_of_mem_waiting (hp : p ∈ (({} : Desk).after acts).waiting) : p.man ≠ p.woman := by
  induction acts using List.reverseRecOn with
  | nil => cases hp
  | append_singleton acts q ih =>
    rw [after_snoc] at hp
    obtain hp | hfits := mem_waiting_act hp
    · exact ih hp
    · exact ne_of_fits hfits

def RemovedMeanwhile (acts : List (Moment × Act)) (p : NewPairing) : Prop :=
  ∃ acts₁ m hr acts₂, acts = acts₁ ++ (m, .request (.removeClient p.woman) hr) :: acts₂ ∧
    p ∈ (({} : Desk).after acts₁).waiting

theorem has_or_removed (hp : p ∈ (({} : Desk).after acts).waiting) :
    (({} : Desk).after acts).books.clients.has p.woman ∨ RemovedMeanwhile acts p := by
  induction acts using List.reverseRecOn with
  | nil => cases hp
  | append_singleton acts q ih =>
    have hd : (({} : Desk).after acts).books.Linked := linked_after Books.linked_empty
    rw [after_snoc] at hp ⊢
    obtain hwaits | hfits := mem_waiting_act hp
    · obtain hhas | ⟨acts₁, m, hr, acts₂, rfl, hbefore⟩ := ih hwaits
      · obtain hhas | ⟨hr, ha⟩ := has_act (m := q.1) (a := q.2) hd hhas
        · exact .inl hhas
        · exact .inr ⟨acts, q.1, hr, [], by rw [← ha], hwaits⟩
      · exact .inr ⟨acts₁, m, hr, acts₂ ++ [q], by simp, hbefore⟩
    · refine .inl (Books.has_iff_gender?.2 ?_)
      rw [hfits.2]
      exact Option.some_ne_none _

/-- An entry of a pairing that was checked goes through or is turned down because someone else got
there first, unless the man is free and the woman is gone. Then it is the storage that refuses, and
she was removed while the pairing waited. -/
theorem collision_unless_bereft (acts : List (Moment × Act)) :
    let d := ({} : Desk).after acts
    ∀ p ∈ d.waiting,
      (¬d.books.Bereft p → ∀ e, ((Courtship.enter {} p).commit d.books).1 = .error e →
        e.isCollision) ∧
      (d.books.Bereft p →
        ((Courtship.enter {} p).commit d.books).1 = .error (.books (.storage .foreignKey)) ∧
          RemovedMeanwhile acts p) := by
  intro d p hp
  have hd : d.books.Linked := linked_after Books.linked_empty
  have hcommit := Courtship.commit_enter hd (ne_of_mem_waiting hp)
  refine ⟨fun hthere e he => ?_, fun hbereft => ⟨?_, ?_⟩⟩
  · rw [hcommit] at he
    cases hh : d.books.hindrance? p with
    | none =>
      rw [hh] at he
      cases he
    | some e' =>
      rw [hh] at he
      cases he
      exact Books.isCollision_of_hindrance? hthere hh
  · rw [hcommit, Books.hindrance?_of_bereft hbereft]
  · refine (has_or_removed hp).resolve_left ?_
    rw [Books.has_iff_client?, not_not]
    exact hbereft.2

end Desk

namespace Sample

def removedMeanwhile (id : Int) : List (Moment × Act) :=
  proposedTwice ++ [(newYear, .request (.removeClient id) rfl)]

end Sample

/-- Without the man the entry is a collision, and without the woman a failure of the storage. -/
theorem Desk.collision_unless_bereft_sample :
    let d₁ := ({} : Desk).after (Sample.removedMeanwhile 1)
    let d₂ := ({} : Desk).after (Sample.removedMeanwhile 2)
    (∃ p ∈ d₁.waiting, ¬d₁.books.Bereft p ∧ ∃ e,
      ((Courtship.enter {} p).commit d₁.books).1 = .error e ∧ e.isCollision) ∧
    ∃ p ∈ d₂.waiting, d₂.books.Bereft p ∧
      ((Courtship.enter {} p).commit d₂.books).1 = .error (.books (.storage .foreignKey)) ∧
        RemovedMeanwhile (Sample.removedMeanwhile 2) p := by
  intro d₁ d₂
  have hman : ∃ p ∈ d₁.waiting, d₁.books.client? p.woman ≠ none ∧
      ((Courtship.enter {} p).commit d₁.books).1 = .error (.collision (.taken 1)) := by
    decide +kernel
  have hwoman : ∃ p ∈ d₂.waiting, (d₂.books.client? p.man).any Client.isFree ∧
      d₂.books.client? p.woman = none := by
    decide +kernel
  obtain ⟨p, hp, hthere, hfails⟩ := hman
  obtain ⟨q, hq, hbereft⟩ := hwoman
  have hp' : ¬d₁.books.Bereft p := fun hb => hthere hb.2
  refine ⟨⟨p, hp, hp', _, hfails, ?_⟩, q, hq, hbereft, ?_⟩
  · exact (collision_unless_bereft _ p hp).1 hp' _ hfails
  · exact (collision_unless_bereft _ q hq).2 hbereft

/-- The two were checked, she was removed, and the entry fails without a collision. -/
theorem Desk.not_collision_removedMeanwhile :
    let d := ({} : Desk).after (Sample.removedMeanwhile 2)
    ∃ p ∈ d.waiting, ∃ e, ((Courtship.enter {} p).commit d.books).1 = .error e ∧
      ¬e.isCollision := by
  intro d
  have hfails : ∃ p ∈ d.waiting,
      ((Courtship.enter {} p).commit d.books).1 = .error (.books (.storage .foreignKey)) := by
    decide +kernel
  obtain ⟨p, hp, hfails⟩ := hfails
  exact ⟨p, hp, _, hfails, by decide⟩

end Matchmaking
