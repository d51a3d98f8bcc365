import Matchmaking.Proofs.Linkage

/-! Arranging in two phases. Two clients are checked and proposed at one time, and entered in a
transaction at any later one, when the check may say nothing any more about them. Whatever is done
in between, links stay sound and no client is taken twice without having been freed. -/
namespace Matchmaking

/-- A request other than to arrange, the check before a pairing, or the entry of a pairing that
passed it. -/
inductive Act where
  | request (r : Request) (hr : r.isUpkeep || r.isProgress)
  | propose (x y : Int) (admin remark : String)
  | enter (i : Nat)

def Act.isProgress : Act → Bool
  | .request r _ => r.isProgress
  | _ => false

structure Desk where
  books : Books := {}
  waiting : List NewPairing := []

namespace Desk

section
variable (d : Desk)

def act (m : Moment) : Act → Desk
  | .request r _ => { d with books := (({ books := d.books } : Agency).serve m r).2.books }
  | .propose x y admin remark =>
    match Courtship.propose m.today x y admin remark d.books with
    | .ok p => { d with waiting := d.waiting ++ [p] }
    | .error _ => d
  | .enter i =>
    match d.waiting[i]? with
    | some p =>
      { books := ((Courtship.enter {} p).commit d.books).2, waiting := d.waiting.eraseIdx i }
    | none => d

def after (acts : List (Moment × Act)) : Desk := acts.foldl (fun d a => d.act a.1 a.2) d

def Commits (a : Act) (p : NewPairing) : Prop :=
  ∃ i n, a = .enter i ∧ d.waiting[i]? = some p ∧
    ((Courtship.enter {} p).commit d.books).1 = .ok n

def Frees (m : Moment) (a : Act) (x : Int) : Prop :=
  a.isProgress ∧ d.books.partner? x ≠ none ∧
    ∃ c, (d.act m a).books.client? x = some c ∧ c.isFree

end

variable {d : Desk} {m : Moment} {a : Act} {acts : List (Moment × Act)} {x : Int} {p : NewPairing}

theorem after_append (acts' : List (Moment × Act)) :
    d.after (acts ++ acts') = (d.after acts).after acts' :=
  List.foldl_append

/-- Nothing between the two phases is arranging in one. -/
theorem books_propose_enter {x y : Int} {admin remark : String} (b : Books) :
    ((({ books := b } : Desk).act m (.propose x y admin remark)).act m (.enter 0)).books =
      (Courtship.arrange {} m.today x y admin remark b).2 := by
  rw [Courtship.arrange, act]
  cases Courtship.propose m.today x y admin remark b with
  | error e => rfl
  | ok p =>
    cases hc : (Courtship.enter {} p).commit b with
    | mk r b' => cases r <;> simp [act, hc]

theorem canJoin_of_commits (hc : d.Commits a p) : d.books.CanJoin p := by
  obtain ⟨i, n, -, -, hcommit⟩ := hc
  have henter := Work.commit_eq_ok.1 (Prod.ext hcommit rfl)
  exact (Courtship.joined_of_enter rfl henter).1

theorem books_of_commits (hc : d.Commits a p) : (d.act m a).books = d.books.joined p := by
  obtain ⟨i, n, rfl, hp, hcommit⟩ := hc
  have henter := Work.commit_eq_ok.1 (Prod.ext hcommit rfl)
  obtain ⟨-, -, hbooks⟩ := Courtship.joined_of_enter rfl henter
  simp only [act, hp]
  exact hbooks

/-- An entry that does not go through leaves the books alone. -/
theorem books_enter_of_not_commits {i : Nat} (hc : ∀ p, ¬d.Commits (.enter i) p) :
    (d.act m (.enter i)).books = d.books := by
  cases hp : d.waiting[i]? with
  | none => simp only [act, hp]
  | some p =>
    simp only [act, hp]
    cases hcommit : ((Courtship.enter {} p).commit d.books).1 with
    | error e => exact Work.eq_of_commit_error (Prod.ext hcommit rfl)
    | ok n => exact absurd ⟨i, n, rfl, hp, hcommit⟩ (hc p)

/-- An act does upkeep, carries on a pairing or enters one. -/
theorem books_act : d.books.Upkeep (d.act m a).books ∨
    (a.isProgress ∧ ∃ r, d.books.Progress r (d.act m a).books) ∨
      ∃ p, d.Commits a p ∧ (d.act m a).books = d.books.joined p := by
  cases a with
  | request r hr =>
    cases hp : r.isProgress with
    | true => exact .inr (.inl ⟨hp, r, Agency.progress_of_serve (a := { books := d.books }) rfl hp⟩)
    | false =>
      have hu : r.isUpkeep := by simpa [hp] using hr
      exact .inl (Agency.upkeep_of_serve (a := { books := d.books }) rfl hu)
  | propose x y admin remark =>
    refine .inl ?_
    rw [act]
    split
    · exact .keep
    · exact .keep
  | enter i =>
    by_cases hc : ∃ p, d.Commits (.enter i) p
    · obtain ⟨p, hc⟩ := hc
      exact .inr (.inr ⟨p, hc, books_of_commits hc⟩)
    · rw [books_enter_of_not_commits (not_exists.1 hc)]
      exact .inl .keep

theorem linked_act (hd : d.books.Linked) : (d.act m a).books.Linked := by
  obtain hu | ⟨-, r, hp⟩ | ⟨p, hc, hbooks⟩ := books_act (d := d) (m := m) (a := a)
  · exact hu.linked hd
  · exact hp.linked hd
  · rw [hbooks]
    exact hd.joined (canJoin_of_commits hc)

theorem linked_after (hd : d.books.Linked) : (d.after acts).books.Linked := by
  induction acts generalizing d with
  | nil => exact hd
  | cons a acts ih => exact ih (linked_act hd)

theorem frees_of_unlinked (hd : d.books.Linked) (hx : d.books.partner? x ≠ none)
    (hnone : (d.act m a).books.partner? x = none) : d.Frees m a x := by
  obtain hu | ⟨ha, r, hp⟩ | ⟨p, hc, hbooks⟩ := books_act (d := d) (m := m) (a := a)
  · rw [hu.partner?_eq hd] at hnone
    exact absurd hnone hx
  · exact ⟨ha, hx, hp.isFree_of_unlinked hx hnone⟩
  · -- the two who are joined are linked, and the others as before
    rw [hbooks, Books.partner?_joined (canJoin_of_commits hc)] at hnone
    split at hnone
    · cases hnone
    · split at hnone
      · cases hnone
      · exact absurd hnone hx

theorem exists_frees (hd : d.books.Linked) (hx : d.books.partner? x ≠ none)
    (hnone : (d.after acts).books.partner? x = none) :
    ∃ acts₁ a acts₂, acts = acts₁ ++ a :: acts₂ ∧ (d.after acts₁).Frees a.1 a.2 x := by
  induction acts generalizing d with
  | nil => exact absurd hnone hx
  | cons a acts ih =>
    by_cases ha : (d.act a.1 a.2).books.partner? x = none
    · exact ⟨[], a, acts, rfl, frees_of_unlinked hd hx ha⟩
    · obtain ⟨acts₁, a', acts₂, rfl, hfrees⟩ := ih (linked_act hd) ha hnone
      exact ⟨a :: acts₁, a', acts₂, rfl, hfrees⟩

/-- Between two entries that name the same client someone has freed that client. -/
theorem exists_frees_between {a' : Act} {q : NewPairing} (hd : d.books.Linked)
    (hp : d.Commits a p) (hq : ((d.act m a).after acts).Commits a' q)
    (hxp : x = p.man ∨ x = p.woman) (hxq : x = q.man ∨ x = q.woman) :
    ∃ acts₁ b acts₂, acts = acts₁ ++ b :: acts₂ ∧
      ((d.act m a).after acts₁).Frees b.1 b.2 x := by
  have hj : d.books.CanJoin p := canJoin_of_commits hp
  have hj' := canJoin_of_commits hq
  have hlinked : (d.act m a).books.partner? x ≠ none := by
    rw [books_of_commits hp, Books.partner?_joined hj]
    obtain rfl | rfl := hxp <;> simp [hj.ne]
  have hfree : ((d.act m a).after acts).books.partner? x = none := by
    obtain rfl | rfl := hxq
    · exact Books.partner?_of_isFree hj'.man
    · exact Books.partner?_of_isFree hj'.woman
  exact exists_frees (linked_act hd) hlinked hfree

/-- In whatever order checks, entries and other requests come: links are mutual and between two
clients who are there, whoever is linked is matched and nobody else, an entry goes through only
for two free clients and else does nothing, and a client who is entered twice was freed between. -/
theorem race_safe (acts : List (Moment × Act)) :
    let d := ({} : Desk).after acts
    (∀ c ∈ d.books.clients.rows, (c.partner.isSome ↔ c.standing = .matched) ∧
      ∀ p, c.partner = some p → p ≠ c.id ∧
        ∃ e ∈ d.books.clients.rows, e.id = p ∧ e.partner = some c.id) ∧
    (∀ a p, d.Commits a p → (∃ c, d.books.client? p.man = some c ∧ c.isFree) ∧
      ∃ c, d.books.client? p.woman = some c ∧ c.isFree) ∧
    (∀ m i, (∀ p, ¬d.Commits (.enter i) p) → (d.act m (.enter i)).books = d.books) ∧
    ∀ acts₁ b acts₂ p, acts = acts₁ ++ b :: acts₂ → (({} : Desk).after acts₁).Commits b.2 p →
      ∀ a q, d.Commits a q → ∀ x, (x = p.man ∨ x = p.woman) → (x = q.man ∨ x = q.woman) →
        ∃ mid f rest, acts₂ = mid ++ f :: rest ∧
          (({} : Desk).after (acts₁ ++ b :: mid)).Frees f.1 f.2 x := by
  intro d
  have hd : d.books.Linked := linked_after Books.linked_empty
  refine ⟨fun c hc => ?_, fun a p hp => ?_, fun m i => books_enter_of_not_commits, ?_⟩
  · have hfind : d.books.client? c.id = some c := hd.clients.find?_of_mem hc
    refine ⟨(hd.settled hfind).2, fun p hp => ?_⟩
    have hlink : d.books.partner? c.id = some p := by rw [Books.partner?_of_client? hfind, hp]
    obtain ⟨e, he, hback⟩ := Books.partner?_eq_some.1 (hd.back hlink)
    exact ⟨(hd.ne hlink).symm, e, Table.mem_of_find? he, Table.id_of_find? he, hback⟩
  · have hj : d.books.CanJoin p := canJoin_of_commits hp
    exact ⟨hj.man, hj.woman⟩
  · intro acts₁ b acts₂ p hacts hp a q hq x hxp hxq
    have hbefore : (({} : Desk).after acts₁).books.Linked := linked_after Books.linked_empty
    have hthen : ∀ acts₃, ({} : Desk).after (acts₁ ++ b :: acts₃) =
        ((({} : Desk).after acts₁).act b.1 b.2).after acts₃ := fun acts₃ => after_append _
    have hq' : (((({} : Desk).after acts₁).act b.1 b.2).after acts₂).Commits a q := by
      rw [← hthen, ← hacts]
      exact hq
    obtain ⟨mid, f, rest, hsplit, hfrees⟩ := exists_frees_between hbefore hp hq' hxp hxq
    refine ⟨mid, f, rest, hsplit, ?_⟩
    rw [hthen]
    exact hfrees

end Desk

namespace Sample

def proposedTwice : List (Moment × Act) :=
  [.request (.book (.register man)) rfl, .request (.book (.register woman)) rfl,
    .propose 1 2 "" "", .propose 1 2 "" ""].map (newYear, ·)

def enteredOnce : List (Moment × Act) :=
  proposedTwice ++ [(newYear, .enter 0), (newYear, .request (.breakUp 1 "" "") rfl)]

end Sample

/-- Both proposals go through, with the break between them. -/
theorem Desk.race_safe_sample :
    ∃ p q, (({} : Desk).after Sample.proposedTwice).Commits (.enter 0) p ∧ 1 = p.man ∧
      (({} : Desk).after Sample.enteredOnce).Commits (.enter 0) q ∧ 1 = q.man ∧
      ∃ mid f rest, [(Sample.newYear, .request (.breakUp 1 "" "") rfl)] = mid ++ f :: rest ∧
        (({} : Desk).after (Sample.proposedTwice ++ (Sample.newYear, .enter 0) :: mid)).Frees
          f.1 f.2 1 := by
  have hfirst : ∃ p ∈ (({} : Desk).after Sample.proposedTwice).waiting[0]?, 1 = p.man ∧
      ((Courtship.enter {} p).commit (({} : Desk).after Sample.proposedTwice).books).1 = .ok 1 := by
    decide +kernel
  have hsecond : ∃ q ∈ (({} : Desk).after Sample.enteredOnce).waiting[0]?, 1 = q.man ∧
      ((Courtship.enter {} q).commit (({} : Desk).after Sample.enteredOnce).books).1 = .ok 2 := by
    decide +kernel
  obtain ⟨p, hp, hpm, hpc⟩ := hfirst
  obtain ⟨q, hq, hqm, hqc⟩ := hsecond
  have hcommits : (({} : Desk).after Sample.proposedTwice).Commits (.enter 0) p :=
    ⟨0, 1, rfl, hp, hpc⟩
  have hcommits' : (({} : Desk).after Sample.enteredOnce).Commits (.enter 0) q :=
    ⟨0, 2, rfl, hq, hqc⟩
  obtain ⟨-, -, -, hbetween⟩ := race_safe Sample.enteredOnce
  exact ⟨p, q, hcommits, hpm, hcommits', hqm,
    hbetween Sample.proposedTwice _ _ p rfl hcommits _ q hcommits' 1 (.inl hpm) (.inl hqm)⟩

end Matchmaking
