import Matchmaking.Proofs.Couples
import Mathlib.Data.List.Induction

/-! Live pairings and the links behind them. Two clients are parted by their numbers, so striking
an old pairing of two who have come together again unlinks them and leaves their new pairing live
with nothing behind it. No other step does so. -/
namespace Matchmaking

theorem Pairing.names_iff {p : Pairing} {x : Int} : p.names x ↔ x = p.man ∨ x = p.woman := by
  simp [names]

namespace Books
open Pairing
variable {b b' : Books} {id x : Int} {p : Pairing}

/-- The two of every live pairing are linked to each other, and a client is in one at most. -/
structure Backed (b : Books) : Prop where
  linked : ∀ q ∈ b.pairings.rows, q.stage.isLive →
    b.partner? q.man = some q.woman ∧ b.partner? q.woman = some q.man
  alone : ∀ q ∈ b.pairings.rows, ∀ q' ∈ b.pairings.rows, q.stage.isLive → q'.stage.isLive →
    ∀ x, q.names x → q'.names x → q = q'

theorem backed_empty : Backed {} where
  linked q hq := by cases hq
  alone q hq := by cases hq

/-- The request strikes a broken pairing of two who are linked to each other. -/
def StrikesReunited (b : Books) (r : Request) : Prop :=
  ∃ id p, r = .strike id ∧ b.pairing? id = some p ∧ p.stage = .broken ∧
    b.partner? p.man = some p.woman

theorem Backed.linked_of_names (hk : b.Backed) {q : Pairing} (hq : q ∈ b.pairings.rows)
    (hl : q.stage.isLive) (hx : q.names x) : b.partner? x ≠ none := by
  obtain ⟨hman, hwoman⟩ := hk.linked q hq hl
  obtain rfl | rfl := names_iff.1 hx
  · simp [hman]
  · simp [hwoman]

/-- Where every live pairing was live before and its two have the partners they had. -/
theorem Backed.of_rows (hk : b.Backed) (hs : b'.pairings.Sound)
    (hrows : ∀ q' ∈ b'.pairings.rows, q'.stage.isLive → ∃ q ∈ b.pairings.rows, q.stage.isLive ∧
      q.id = q'.id ∧ q.man = q'.man ∧ q.woman = q'.woman ∧
      ∀ x, q.names x → b'.partner? x = b.partner? x) : b'.Backed := by
  constructor
  · intro q' hq' hl'
    obtain ⟨q, hq, hl, -, hman, hwoman, hpartner⟩ := hrows q' hq' hl'
    rw [← hman, ← hwoman, hpartner _ (names_iff.2 (.inl rfl)), hpartner _ (names_iff.2 (.inr rfl))]
    exact hk.linked q hq hl
  · intro q₁' hq₁' q₂' hq₂' hl₁' hl₂' x hx₁ hx₂
    obtain ⟨q₁, hq₁, hl₁, hid₁, hman₁, hwoman₁, -⟩ := hrows q₁' hq₁' hl₁'
    obtain ⟨q₂, hq₂, hl₂, hid₂, hman₂, hwoman₂, -⟩ := hrows q₂' hq₂' hl₂'
    have hx₁ : q₁.names x := by rw [names_iff, hman₁, hwoman₁, ← names_iff, hx₁]
    have hx₂ : q₂.names x := by rw [names_iff, hman₂, hwoman₂, ← names_iff, hx₂]
    have hq : q₁ = q₂ := hk.alone q₁ hq₁ q₂ hq₂ hl₁ hl₂ x hx₁ hx₂
    refine hs.eq_of_mem hq₁' hq₂' ?_
    rw [show Numbered.id q₁' = q₁.id from hid₁.symm, hq]
    exact hid₂

theorem Upkeep.backed (hb : b.Paired) (hk : b.Backed) (hu : b.Upkeep b') : b'.Backed := by
  have hpairings := hu.pairings_eq hb.toLinked
  refine hk.of_rows (hpairings ▸ hb.pairings) fun q hq hl => ?_
  rw [hpairings] at hq
  exact ⟨q, hq, hl, rfl, rfl, rfl, fun x _ => hu.partner?_eq hb.toLinked⟩

theorem Backed.joined {p : NewPairing} (hk : b.Backed) (hj : b.CanJoin p) :
    (b.joined p).Backed := by
  have hfree : ∀ x, (p.at b.pairings.next).names x → b.partner? x = none := by
    intro x hx
    obtain rfl | rfl := names_iff.1 hx
    · exact partner?_of_isFree hj.man
    · exact partner?_of_isFree hj.woman
  -- nobody in a pairing that is live already is one of the two
  have hother : ∀ q ∈ b.pairings.rows, q.stage.isLive → ∀ x, q.names x →
      ¬(p.at b.pairings.next).names x := by
    intro q hq hl x hx hnew
    exact hk.linked_of_names hq hl hx (hfree x hnew)
  have hpartner : ∀ x, ¬(p.at b.pairings.next).names x →
      (b.joined p).partner? x = b.partner? x := by
    intro x hx
    have hne : ¬(x = p.man ∨ x = p.woman) := fun h => hx (names_iff.2 h)
    rw [not_or] at hne
    rw [partner?_joined hj, if_neg hne.2, if_neg hne.1]
  have hrows : ∀ q, q ∈ (b.joined p).pairings.rows ↔
      q ∈ b.pairings.rows ∨ q = p.at b.pairings.next := fun q => Table.mem_rows_add _
  constructor
  · intro q hq hl
    obtain hq | rfl := (hrows q).1 hq
    · rw [hpartner _ (hother q hq hl _ (names_iff.2 (.inl rfl))),
        hpartner _ (hother q hq hl _ (names_iff.2 (.inr rfl)))]
      exact hk.linked q hq hl
    · rw [partner?_joined hj, partner?_joined hj]
      simp [NewPairing.at, hj.ne]
  · intro q hq q' hq' hl hl' x hx hx'
    obtain hq | rfl := (hrows q).1 hq
    · obtain hq' | rfl := (hrows q').1 hq'
      · exact hk.alone q hq q' hq' hl hl' x hx hx'
      · exact absurd hx' (hother q hq hl x hx)
    · obtain hq' | rfl := (hrows q').1 hq'
      · exact absurd hx (hother q' hq' hl' x hx')
      · rfl

theorem mem_withStage {stage : Stage} {q' : Pairing} (hb : b.pairings.Sound)
    (hp : b.pairing? id = some p) (hq' : q' ∈ (b.withStage id stage).pairings.rows) :
    q' = { p with stage } ∨ q' ∈ b.pairings.rows ∧ q' ≠ p :=
  hb.mem_rows_modify hp hq'

/-- The two of a live pairing are parted only with the pairing. -/
theorem Backed.partner?_parted {q : Pairing} (hk : b.Backed) (hq : q ∈ b.pairings.rows)
    (hl : q.stage.isLive) (hp : p ∈ b.pairings.rows) (hpl : p.stage.isLive) (hne : q ≠ p)
    (hx : q.names x) {b₁ : Books} (hclients : b₁.clients = b.clients) :
    (b₁.parted p.man p.woman).partner? x = b.partner? x := by
  have hother : ¬(x = p.man ∨ x = p.woman) := by
    intro hparty
    exact hne (hk.alone q hq p hp hl hpl x hx (names_iff.2 hparty))
  have hsame : b₁.partner? x = b.partner? x := partner?_of_clients hclients
  rw [not_or] at hother
  rw [Books.partner?_parted, hsame, if_neg]
  rintro (⟨hman, -⟩ | ⟨hwoman, -⟩)
  · exact hother.1 hman
  · exact hother.2 hwoman

theorem Progress.backed {r : Request} (hb : b.Paired) (hk : b.Backed) (hp : b.Progress r b')
    (hno : ¬b.StrikesReunited r) : b'.Backed := by
  have hs : b'.pairings.Sound := (hp.paired hb).pairings
  cases hp with
  | keep => exact hk
  | @move id p stage operator reason hp hl hlive =>
    refine hk.of_rows hs fun q' hq' hl' => ?_
    obtain rfl | ⟨hq, -⟩ := mem_withStage hb.pairings hp hq'
    · exact ⟨p, Table.mem_of_find? hp, Stage.isLive_of_leadsTo hl, rfl, rfl, rfl, fun _ _ => rfl⟩
    · exact ⟨q', hq, hl', rfl, rfl, rfl, fun _ _ => rfl⟩
  | @breakUp id p operator reason hp hl =>
    refine hk.of_rows hs fun q' hq' hl' => ?_
    rw [pairings_parted] at hq'
    obtain rfl | ⟨hq, hne⟩ := mem_withStage hb.pairings hp hq'
    · cases hl'
    · refine ⟨q', hq, hl', rfl, rfl, rfl, fun x hx => ?_⟩
      have hpl : p.stage.isLive := Stage.isLive_of_leadsTo hl
      exact hk.partner?_parted hq hl' (Table.mem_of_find? hp) hpl hne hx rfl
  | @strike id p hr hp =>
    refine hk.of_rows hs fun q hq hl => ?_
    rw [pairings_parted] at hq
    obtain ⟨hq, hid⟩ := Table.mem_rows_erase.1 hq
    refine ⟨q, hq, hl, rfl, rfl, rfl, fun x hx => ?_⟩
    by_cases hpl : p.stage.isLive
    · have hne : q ≠ p := by
        rintro rfl
        exact hid (Table.id_of_find? hp)
      exact hk.partner?_parted hq hl (Table.mem_of_find? hp) hpl hne hx rfl
    · have hbroken : p.stage = .broken := by
        rw [Stage.isLive_iff] at hpl
        exact not_not.1 hpl
      have hman : b.partner? p.man ≠ some p.woman := fun h => hno ⟨id, p, hr, hp, hbroken, h⟩
      have hwoman : b.partner? p.woman ≠ some p.man := fun h => hman (hb.back h)
      have hsame : ∀ {z}, (b.withoutPairing id).partner? z = b.partner? z := rfl
      rw [Books.partner?_parted, hsame, hsame, hsame, if_neg]
      rintro (⟨-, h⟩ | ⟨-, h⟩)
      · exact hman h
      · exact hwoman h

/-- Two who are linked have a live pairing. -/
theorem Paired.exists_live {x y : Int} (hb : b.Paired) (hx : b.partner? x = some y) :
    ∃ q ∈ b.pairings.rows, q.stage.isLive ∧
      (q.man = x ∧ q.woman = y ∨ q.man = y ∧ q.woman = x) := by
  have hcount : ∀ {man woman}, b.IsCouple man woman →
      ∃ q ∈ b.pairings.rows, q.stage.isLive ∧ q.man = man ∧ q.woman = woman := by
    intro man woman hcouple
    have hpos : 0 < b.liveCount man woman := by rw [hcouple.2.2]; omega
    simpa [liveCount, List.countP_pos_iff, Pairing.isLiveFor, and_assoc] using hpos
  cases hb.couple hx with
  | inl hcouple =>
    obtain ⟨q, hq, hl, hparties⟩ := hcount hcouple
    exact ⟨q, hq, hl, .inl hparties⟩
  | inr hcouple =>
    obtain ⟨q, hq, hl, hparties⟩ := hcount hcouple
    exact ⟨q, hq, hl, .inr hparties⟩

theorem not_backed_of_struck (hb : b.Paired) (hp : b.pairing? id = some p)
    (hbroken : p.stage = .broken) (hlink : b.partner? p.man = some p.woman) :
    ¬((b.withoutPairing id).parted p.man p.woman).Backed := by
  intro hk
  obtain ⟨q, hq, hl, hparties⟩ := hb.exists_live hlink
  have hid : Numbered.id q ≠ id := by
    intro hid
    obtain rfl := hb.pairings.eq_of_find? hp hq hid
    rw [hbroken] at hl
    cases hl
  have hq' : q ∈ ((b.withoutPairing id).parted p.man p.woman).pairings.rows := by
    rw [pairings_parted]
    exact Table.mem_rows_erase.2 ⟨hq, hid⟩
  obtain ⟨hman, -⟩ := hk.linked q hq' hl
  have hback : b.partner? p.woman = some p.man := hb.back hlink
  have hsame : ∀ {z}, (b.withoutPairing id).partner? z = b.partner? z := rfl
  rw [Books.partner?_parted, hsame, hsame, if_pos] at hman
  · cases hman
  · obtain ⟨hx, -⟩ | ⟨hx, -⟩ := hparties
    · exact .inl ⟨hx, hlink⟩
    · exact .inr ⟨hx, hback⟩

end Books

/-- With no hazards nothing stands in the way of letting a client go. -/
theorem Books.detach_eq {b : Books} {x y : Int} :
    ∃ r, b.detach {} x y = .ok (r, b.release x y) := by
  by_cases hl : (b.client? x).any (·.partner == some y)
  · refine ⟨true, ?_⟩
    rw [detach, release, if_pos hl, if_pos hl]
    rfl
  · refine ⟨false, ?_⟩
    rw [detach, release, if_neg hl, if_neg hl]
    rfl

namespace Courtship
variable {b : Books} {id : Int} {p : Pairing}

theorem part_eq : part {} p b = (.ok (), b.parted p.man p.woman) := by
  obtain ⟨r₁, hman⟩ := Books.detach_eq (b := b) (x := p.man) (y := p.woman)
  obtain ⟨r₂, hwoman⟩ :=
    Books.detach_eq (b := b.release p.man p.woman) (x := p.woman) (y := p.man)
  refine Work.bind_eq_ok.2 ⟨r₁, _, Work.write_eq_ok.2 hman, ?_⟩
  exact Work.bind_eq_ok.2 ⟨r₂, _, Work.write_eq_ok.2 hwoman, rfl⟩

/-- With no hazards a pairing that is there is struck. -/
theorem strike_eq (hp : b.pairing? id = some p) :
    strike {} id b = (.ok (), (b.withoutPairing id).parted p.man p.woman) := by
  have hremove : b.removePairing {} id = .ok (p, b.withoutPairing id) := by
    rw [Books.removePairing, hp]
    rfl
  exact Work.commit_eq_ok.2 (Work.bind_eq_ok.2 ⟨p, _, Work.write_eq_ok.2 hremove, part_eq⟩)

end Courtship

namespace Agency
variable {a : Agency} {m : Moment} {r : Request} {rs : List (Moment × Request)}

theorem backed_of_serve (ha : a.hazards.faults = []) (hr : r.isRegular) (hb : a.books.Paired)
    (hk : a.books.Backed) (hno : ¬a.books.StrikesReunited r) : (a.serve m r).2.books.Backed := by
  simp only [Request.isRegular, Request.isCourtship, Bool.or_eq_true] at hr
  obtain hr | hr | hr := hr
  · exact (upkeep_of_serve ha hr).backed hb hk
  · obtain hsame | ⟨p, hj, -, -, hjoined⟩ := joined_of_serve ha hr
    · rw [hsame]
      exact hk
    · rw [hjoined]
      exact hk.joined hj
  · exact (progress_of_serve ha hr).backed hb hk hno

theorem not_backed_of_serve (ha : a.hazards = {}) (hb : a.books.Paired)
    (hr : a.books.StrikesReunited r) : ¬(a.serve m r).2.books.Backed := by
  obtain ⟨id, p, rfl, hp, hbroken, hlink⟩ := hr
  have hbooks : (a.serve m (.strike id)).2.books = (Courtship.strike a.hazards id a.books).2 := rfl
  rw [hbooks, ha, Courtship.strike_eq hp]
  exact Books.not_backed_of_struck hb hp hbroken hlink

/-- Through a run of regular requests every live pairing is backed, for as long as no request
strikes a broken pairing of two who are linked again, and no longer. -/
theorem backed_iff (hr : ∀ q ∈ rs, q.2.isRegular) :
    (∀ qs, qs <+: rs → (({} : Agency).after qs).books.Backed) ↔
      ∀ qs q, qs ++ [q] <+: rs → ¬(({} : Agency).after qs).books.StrikesReunited q.2 := by
  have hregular : ∀ {qs}, qs <+: rs → ∀ q ∈ qs, q.2.isRegular :=
    fun hqs q hq => hr q (hqs.subset hq)
  have hserve : ∀ qs (q : Moment × Request), ({} : Agency).after (qs ++ [q]) =
      ((({} : Agency).after qs).serve q.1 q.2).2 := fun qs q => after_append _ qs [q]
  constructor
  · intro hall qs q hqs hstrikes
    have hbefore : qs <+: rs := (List.prefix_append qs [q]).trans hqs
    have hafter := hall _ hqs
    rw [hserve] at hafter
    exact not_backed_of_serve (hazards_after (hregular hbefore)) (paired_after (hregular hbefore))
      hstrikes hafter
  · intro hno qs hqs
    induction qs using List.reverseRecOn with
    | nil => exact Books.backed_empty
    | append_singleton qs q ih =>
      have hbefore : qs <+: rs := (List.prefix_append qs [q]).trans hqs
      have hfaults : (({} : Agency).after qs).hazards.faults = [] := by
        rw [hazards_after (hregular hbefore)]
      rw [hserve]
      exact backed_of_serve hfaults (hregular hqs q (by simp)) (paired_after (hregular hbefore))
        (ih hbefore) (hno qs q hqs)

theorem backed_iff_sample :
    (∀ q ∈ Sample.reunion, q.2.isRegular) ∧
      ∀ qs, qs <+: Sample.reunion → (({} : Agency).after qs).books.Backed := by
  have hr : ∀ q ∈ Sample.reunion, q.2.isRegular := by decide
  refine ⟨hr, (backed_iff hr).2 fun qs q hqs hstrikes => ?_⟩
  obtain ⟨id, p, hq, -⟩ := hstrikes
  have hmem : q ∈ Sample.reunion := hqs.subset (by simp)
  have hnone : ∀ q ∈ Sample.reunion, q.2 ≠ .strike id := by
    simp [Sample.reunion, Sample.couple]
  exact hnone q hmem hq

/-- Striking the pairing they broke up unlinks the two in their new one. -/
theorem not_backed_struckReunion :
    (∀ q ∈ Sample.struckReunion, q.2.isRegular) ∧
      ¬(({} : Agency).after Sample.struckReunion).books.Backed := by
  refine ⟨by decide, fun hk => ?_⟩
  have horphan : ∃ q ∈ (({} : Agency).after Sample.struckReunion).books.pairings.rows,
      q.stage.isLive ∧ (({} : Agency).after Sample.struckReunion).books.partner? q.man = none := by
    decide +kernel
  obtain ⟨q, hq, hl, hman⟩ := horphan
  obtain ⟨hlink, -⟩ := hk.linked q hq hl
  rw [hman] at hlink
  cases hlink

end Agency

end Matchmaking
