import Matchmaking.Proofs.Couples
import Matchmaking.Proofs.Desk
import Mathlib.Data.List.Induction

/-! Genders between the check and the entry. That a pairing is of a man and a woman is checked once,
before it waits, and the entry asks only whether the two are free. A client who is free can change
their gender in between, and nothing else can make the entry one of two men or two women. -/
namespace Matchmaking

namespace Books
variable {b b' : Books} {r : Request} {p : NewPairing} {x y : Int}

def Fits (b : Books) (p : NewPairing) : Prop :=
  b.gender? p.man = some .male ∧ b.gender? p.woman = some .female

def Suits (b : Books) (x : Int) (g : Gender) : Prop := ∀ g', b.gender? x = some g' → g' = g

theorem Fits.suits (hf : b.Fits p) : b.Suits p.man .male ∧ b.Suits p.woman .female := by
  obtain ⟨hman, hwoman⟩ := hf
  constructor
  · intro g hg
    exact Option.some.inj (hg.symm.trans hman)
  · intro g hg
    exact Option.some.inj (hg.symm.trans hwoman)

theorem fits_of_suits (hj : b.CanJoin p)
    (hs : b.Suits p.man .male ∧ b.Suits p.woman .female) : b.Fits p := by
  obtain ⟨c, hc, -⟩ := hj.man
  obtain ⟨d, hd, -⟩ := hj.woman
  have hman := gender?_of_client? hc
  have hwoman := gender?_of_client? hd
  exact ⟨by rw [hman, hs.1 _ hman], by rw [hwoman, hs.2 _ hwoman]⟩

def Mixed (b : Books) : Prop :=
  ∀ x y, b.partner? x = some y → ∃ g, b.gender? x = some g ∧ b.gender? y = some g.other

theorem mixed_empty : Mixed {} := by
  intro x y h
  cases h

theorem Upkeep.mixed (hb : b.Linked) (hu : b.Upkeep b') (hm : b.Mixed) : b'.Mixed := by
  intro x y h
  rw [hu.partner?_eq hb] at h
  obtain ⟨g, hx, hy⟩ := hm x y h
  exact ⟨g, (hu.gender?_eq hb h).trans hx, (hu.gender?_eq hb (hb.back h)).trans hy⟩

theorem Progress.gender?_eq (hp : b.Progress r b') : b'.gender? x = b.gender? x := by
  cases hp with
  | keep => rfl
  | move operator reason hq hl hs => rfl
  | breakUp operator reason hq hl => exact gender?_parted
  | strike hr hq => exact gender?_parted

theorem partner?_of_parted {z w : Int} (h : (b.parted x y).partner? z = some w) :
    b.partner? z = some w := by
  rw [partner?_parted] at h
  split at h
  · cases h
  · exact h

theorem Progress.partner?_before (hp : b.Progress r b') (h : b'.partner? x = some y) :
    b.partner? x = some y := by
  cases hp with
  | keep => exact h
  | move operator reason hq hl hs => exact h
  | breakUp operator reason hq hl => exact (partner?_of_parted h :)
  | strike hr hq => exact (partner?_of_parted h :)

theorem Progress.mixed (hp : b.Progress r b') (hm : b.Mixed) : b'.Mixed := by
  intro x y h
  rw [hp.gender?_eq, hp.gender?_eq]
  exact hm x y (hp.partner?_before h)

theorem Mixed.joined (hm : b.Mixed) (hj : b.CanJoin p) (hf : b.Fits p) : (b.joined p).Mixed := by
  obtain ⟨hman, hwoman⟩ := hf
  intro x y h
  rw [partner?_joined hj] at h
  rw [gender?_joined, gender?_joined]
  split at h
  · rename_i hx
    obtain rfl := Option.some.inj h
    exact ⟨.female, by rw [hx, hwoman], hman⟩
  · split at h
    · rename_i hx
      obtain rfl := Option.some.inj h
      exact ⟨.male, by rw [hx, hman], hwoman⟩
    · exact hm x y h

theorem Upkeep.gender?_cases (hb : b.Linked) (hu : b.Upkeep b') (hx : x ≤ b.clients.last) :
    b'.gender? x = b.gender? x ∨ b'.gender? x = none ∨
      b.partner? x = none ∧ ∃ g, b.gender? x = some g ∧ b'.gender? x = some g.other := by
  cases hu with
  | keep => exact .inl rfl
  | annotate g l => exact .inl gender?_annotated
  | register p =>
    have hne : x ≠ b.clients.next := by
      rw [Table.next]
      omega
    exact .inl (by rw [gender?, client?_withClient hb.clients, if_neg hne, gender?])
  | @edit id p c hc hg =>
    by_cases hid : x = id
    · subst hid
      rw [gender?_withProfile hc, if_pos rfl, gender?_of_client? hc, partner?_of_client? hc]
      by_cases hsame : c.profile.gender = p.gender
      · exact .inl (by rw [hsame])
      · refine .inr (.inr ⟨hg.resolve_right hsame, c.profile.gender, rfl, ?_⟩)
        cases hcg : c.profile.gender <;> cases hpg : p.gender <;> simp_all [Gender.other]
    · exact .inl (by rw [gender?_withProfile hc, if_neg hid])
  | @remove id c hc hs =>
    rw [removed_eq hb (hb.partner?_of_not_matched hc hs.2), gender?, client?_withoutClient]
    by_cases hid : x = id
    · exact .inr (.inl (by rw [if_pos hid]; rfl))
    · exact .inl (by rw [if_neg hid, gender?])
  | switch hc hp hs => exact .inl gender?_modifyClient_of_same

theorem Progress.last_eq (hp : b.Progress r b') : b'.clients.last = b.clients.last := by
  have hparted : ∀ {b : Books} {x y}, (b.parted x y).clients.last = b.clients.last := by
    intro b x y
    simp only [parted, release]
    split <;> split <;> rfl
  cases hp with
  | keep => rfl
  | move operator reason hq hl hs => rfl
  | breakUp operator reason hq hl => exact hparted
  | strike hr hq => exact hparted

/-- Numbers of clients are not given back. -/
theorem Upkeep.last_le (hb : b.Linked) (hu : b.Upkeep b') : b.clients.last ≤ b'.clients.last := by
  cases hu with
  | register p =>
    have hlast : (b.withClient p).clients.last = b.clients.last + 1 := rfl
    omega
  | remove hc hs =>
    rw [removed_eq hb (hb.partner?_of_not_matched hc hs.2)]
    exact Int.le_refl _
  | _ => exact Int.le_refl _

end Books

namespace Desk
variable {d : Desk} {m : Moment} {a : Act} {acts : List (Moment × Act)} {x : Int} {p : NewPairing}

def Regenders (d : Desk) (m : Moment) (a : Act) (x : Int) : Prop :=
  d.books.partner? x = none ∧
    ∃ g, d.books.gender? x = some g ∧ (d.act m a).books.gender? x = some g.other

def EntersMisfit (d : Desk) (a : Act) (p : NewPairing) : Prop := d.Commits a p ∧ ¬d.books.Fits p

theorem gender?_act_cases (hd : d.books.Linked) (hx : x ≤ d.books.clients.last) :
    (d.act m a).books.gender? x = d.books.gender? x ∨ (d.act m a).books.gender? x = none ∨
      d.Regenders m a x := by
  obtain hu | ⟨-, r, hp⟩ | ⟨p, -, hbooks⟩ := books_act (d := d) (m := m) (a := a)
  · exact hu.gender?_cases hd hx
  · exact .inl hp.gender?_eq
  · rw [hbooks]
    exact .inl Books.gender?_joined

theorem suits_act {g : Gender} (hd : d.books.Linked) (hx : x ≤ d.books.clients.last)
    (hs : d.books.Suits x g) : (d.act m a).books.Suits x g ∨ d.Regenders m a x := by
  obtain hsame | hgone | hr := gender?_act_cases (m := m) (a := a) hd hx
  · refine .inl fun g' hg => hs g' ?_
    rw [← hsame, hg]
  · refine .inl fun g' hg => ?_
    rw [hgone] at hg
    cases hg
  · exact .inr hr

theorem last_le_act (hd : d.books.Linked) :
    d.books.clients.last ≤ (d.act m a).books.clients.last := by
  obtain hu | ⟨-, r, hp⟩ | ⟨p, -, hbooks⟩ := books_act (d := d) (m := m) (a := a)
  · exact hu.last_le hd
  · exact Int.le_of_eq hp.last_eq.symm
  · rw [hbooks]
    exact Int.le_refl _

/-- Whoever waits has been waiting, or has just been checked. -/
theorem mem_waiting_act (hp : p ∈ (d.act m a).waiting) :
    p ∈ d.waiting ∨ (d.act m a).books.Fits p := by
  cases a with
  | request r hr => exact .inl hp
  | propose x y admin remark =>
    rw [act] at hp ⊢
    split at hp
    · rename_i q hq
      obtain hp | hp := List.mem_append.1 hp
      · exact .inl hp
      · obtain rfl := List.mem_singleton.1 hp
        exact .inr (Courtship.genders_of_propose hq)
    · exact .inl hp
  | enter i =>
    rw [act] at hp
    split at hp
    · exact .inl (List.mem_of_mem_eraseIdx hp)
    · exact .inl hp

theorem le_last_of_gender? {b : Books} {g : Gender} (hb : b.Linked) (hx : b.gender? x = some g) :
    x ≤ b.clients.last := by
  obtain ⟨c, hc, -⟩ := Option.map_eq_some_iff.1 hx
  obtain ⟨hrow, rfl⟩ := hb.clients.find?_eq_some_iff.1 hc
  exact hb.clients.le_last c hrow

theorem mixed_act (hd : d.books.Linked) (hm : d.books.Mixed) (hno : ∀ p, ¬d.EntersMisfit a p) :
    (d.act m a).books.Mixed := by
  obtain hu | ⟨-, r, hp⟩ | ⟨p, hc, hbooks⟩ := books_act (d := d) (m := m) (a := a)
  · exact hu.mixed hd hm
  · exact hp.mixed hm
  · have hfits : d.books.Fits p := by
      by_contra hmisfit
      exact hno p ⟨hc, hmisfit⟩
    rw [hbooks]
    exact hm.joined (canJoin_of_commits hc) hfits

/-! From an entry back to the check. Numbers are not given out twice, so the two of a pairing that
waits are still the two who were checked, if they are there. -/

def Regendered (acts : List (Moment × Act)) (p : NewPairing) : Prop :=
  ∃ acts₁ e acts₂ x, acts = acts₁ ++ e :: acts₂ ∧ p ∈ (({} : Desk).after acts₁).waiting ∧
    (x = p.man ∨ x = p.woman) ∧ (({} : Desk).after acts₁).Regenders e.1 e.2 x

theorem Regendered.snoc (hr : Regendered acts p) (q : Moment × Act) :
    Regendered (acts ++ [q]) p := by
  obtain ⟨acts₁, e, acts₂, x, rfl, hrest⟩ := hr
  exact ⟨acts₁, e, acts₂ ++ [q], x, by simp, hrest⟩

theorem after_snoc (acts : List (Moment × Act)) (q : Moment × Act) :
    d.after (acts ++ [q]) = (d.after acts).act q.1 q.2 := after_append _

theorem le_last_of_mem_waiting (hp : p ∈ (({} : Desk).after acts).waiting) :
    p.man ≤ (({} : Desk).after acts).books.clients.last ∧
      p.woman ≤ (({} : Desk).after acts).books.clients.last := by
  induction acts using List.reverseRecOn with
  | nil => cases hp
  | append_singleton acts q ih =>
    have hd : (({} : Desk).after acts).books.Linked := linked_after Books.linked_empty
    rw [after_snoc] at hp ⊢
    obtain hp | ⟨hman, hwoman⟩ := mem_waiting_act hp
    · have hle := last_le_act (m := q.1) (a := q.2) hd
      obtain ⟨hman, hwoman⟩ := ih hp
      exact ⟨Int.le_trans hman hle, Int.le_trans hwoman hle⟩
    · have hd' := linked_act (m := q.1) (a := q.2) hd
      exact ⟨le_last_of_gender? hd' hman, le_last_of_gender? hd' hwoman⟩

/-- A pairing that waits is of a man and a woman, as far as they are there, or one of the two
changed their gender while it waited. -/
theorem suits_or_regendered (hp : p ∈ (({} : Desk).after acts).waiting) :
    ((({} : Desk).after acts).books.Suits p.man .male ∧
      (({} : Desk).after acts).books.Suits p.woman .female) ∨ Regendered acts p := by
  induction acts using List.reverseRecOn with
  | nil => cases hp
  | append_singleton acts q ih =>
    have hd : (({} : Desk).after acts).books.Linked := linked_after Books.linked_empty
    rw [after_snoc] at hp ⊢
    obtain hp | hfits := mem_waiting_act hp
    · obtain ⟨hleman, hlewoman⟩ := le_last_of_mem_waiting hp
      obtain ⟨hman, hwoman⟩ | hr := ih hp
      · obtain hman' | hr := suits_act (m := q.1) (a := q.2) hd hleman hman
        · obtain hwoman' | hr := suits_act (m := q.1) (a := q.2) hd hlewoman hwoman
          · exact .inl ⟨hman', hwoman'⟩
          · exact .inr ⟨acts, q, [], p.woman, rfl, hp, .inr rfl, hr⟩
        · exact .inr ⟨acts, q, [], p.man, rfl, hp, .inl rfl, hr⟩
      · exact .inr (hr.snoc q)
    · exact .inl hfits.suits

theorem regendered_of_entersMisfit (hp : (({} : Desk).after acts).EntersMisfit a p) :
    Regendered acts p := by
  obtain ⟨hc, hmisfit⟩ := hp
  obtain ⟨i, n, -, hwaits, -⟩ := id hc
  obtain hsuits | hr := suits_or_regendered (List.mem_of_getElem? hwaits)
  · exact absurd (Books.fits_of_suits (canJoin_of_commits hc) hsuits) hmisfit
  · exact hr

/-- Through a run of checks, entries and other requests, every entry that goes through is of a man
and a woman and whoever is linked is so to one of the other gender, for as long as no entry goes
through for a misfit. There is a misfit only where one of the two changed their gender between the
check and the entry. -/
theorem mixed_iff (acts : List (Moment × Act)) :
    (((∀ qs q p, qs ++ [q] <+: acts → (({} : Desk).after qs).Commits q.2 p →
          (({} : Desk).after (qs ++ [q])).books.Fits p) ∧
        ∀ qs, qs <+: acts → (({} : Desk).after qs).books.Mixed) ↔
      ∀ qs q p, qs ++ [q] <+: acts → ¬(({} : Desk).after qs).EntersMisfit q.2 p) ∧
    ∀ qs q p, qs ++ [q] <+: acts → (({} : Desk).after qs).EntersMisfit q.2 p →
      Regendered qs p := by
  have hfits : ∀ qs (q : Moment × Act) p, (({} : Desk).after qs).Commits q.2 p →
      ((({} : Desk).after (qs ++ [q])).books.Fits p ↔ (({} : Desk).after qs).books.Fits p) := by
    intro qs q p hc
    rw [after_snoc, Books.Fits, books_of_commits hc, Books.gender?_joined, Books.gender?_joined,
      Books.Fits]
  refine ⟨⟨fun ⟨hall, _⟩ qs q p hqs hmisfit => ?_, fun hno => ⟨fun qs q p hqs hc => ?_, ?_⟩⟩,
    fun qs q p _ hmisfit => regendered_of_entersMisfit hmisfit⟩
  · obtain ⟨hc, hnot⟩ := hmisfit
    exact hnot ((hfits qs q p hc).1 (hall qs q p hqs hc))
  · refine (hfits qs q p hc).2 ?_
    by_contra hnot
    exact hno qs q p hqs ⟨hc, hnot⟩
  · intro qs hqs
    induction qs using List.reverseRecOn with
    | nil => exact Books.mixed_empty
    | append_singleton qs q ih =>
      have hd : (({} : Desk).after qs).books.Linked := linked_after Books.linked_empty
      rw [after_snoc]
      exact mixed_act hd (ih ((List.prefix_append qs [q]).trans hqs)) fun p => hno qs q p hqs

end Desk

namespace Sample

def changedMeanwhile : List (Moment × Act) :=
  proposedTwice ++ [(newYear, .request (.book (.editProfile 2 man)) rfl)]

end Sample

/-- The two who waited are entered all the same, and two men are linked. -/
theorem Desk.not_mixed_changedMeanwhile :
    let d := ({} : Desk).after Sample.changedMeanwhile
    let d' := ({} : Desk).after (Sample.changedMeanwhile ++ [(Sample.newYear, .enter 0)])
    (∃ p, d.Commits (.enter 0) p ∧ ¬d'.books.Fits p) ∧ ¬d'.books.Mixed := by
  intro d d'
  have hcommit : ∃ p ∈ d.waiting[0]?, ((Courtship.enter {} p).commit d.books).1 = .ok 1 ∧
      d'.books.gender? p.woman = some .male := by
    decide +kernel
  have hlink : d'.books.partner? 1 = some 2 ∧ d'.books.gender? 1 = some .male ∧
      d'.books.gender? 2 = some .male := by
    decide +kernel
  obtain ⟨p, hwaits, hcommit, hwoman⟩ := hcommit
  obtain ⟨hlink, hfirst, hsecond⟩ := hlink
  refine ⟨⟨p, ⟨0, 1, rfl, hwaits, hcommit⟩, fun hfits => ?_⟩, fun hmixed => ?_⟩
  · have hfemale := hfits.2
    rw [hwoman] at hfemale
    cases hfemale
  · obtain ⟨g, hg, hother⟩ := hmixed 1 2 hlink
    rw [hfirst] at hg
    rw [hsecond] at hother
    cases hg
    cases hother

/-- The misfit comes of the change of gender in between. -/
theorem Desk.mixed_iff_sample :
    let acts := Sample.changedMeanwhile
    ∃ p, (({} : Desk).after acts).EntersMisfit (.enter 0) p ∧ Regendered acts p := by
  intro acts
  have hmisfit : ∃ p ∈ (({} : Desk).after acts).waiting[0]?,
      ((Courtship.enter {} p).commit (({} : Desk).after acts).books).1 = .ok 1 ∧
        (({} : Desk).after acts).books.gender? p.woman = some .male := by
    decide +kernel
  obtain ⟨p, hwaits, hcommit, hwoman⟩ := hmisfit
  have hmisfit : (({} : Desk).after acts).EntersMisfit (.enter 0) p := by
    refine ⟨⟨0, 1, rfl, hwaits, hcommit⟩, fun hfits => ?_⟩
    have hfemale := hfits.2
    rw [hwoman] at hfemale
    cases hfemale
  obtain ⟨-, hcause⟩ := mixed_iff (acts ++ [(Sample.newYear, .enter 0)])
  exact ⟨p, hmisfit, hcause acts (Sample.newYear, .enter 0) p List.prefix_rfl hmisfit⟩

end Matchmaking
