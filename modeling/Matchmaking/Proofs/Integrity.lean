import Matchmaking.Proofs.Strokes

/-! What the storage promises of the books after any requests at all, with any faults armed: numbers
and partners are not shared, no reference dangles, two clients have one live pairing at most, and
the trail of a pairing only grows. -/
namespace Matchmaking

namespace Books

structure ClientsIntact (t : Table Client) : Prop where
  sound : t.Sound
  there : ∀ c ∈ t.rows, ∀ p, c.partner = some p → t.has p
  alone : ∀ c ∈ t.rows, ∀ d ∈ t.rows, ∀ p, c.partner = some p → d.partner = some p → c = d

structure PairingsIntact (t : Table Pairing) (moves : Table Move) : Prop where
  sound : t.Sound
  soundMoves : moves.Sound
  alone : ∀ q ∈ t.rows, ∀ q' ∈ t.rows, ∀ man woman, q.isLiveFor man woman →
    q'.isLiveFor man woman → q = q'
  there : ∀ m ∈ moves.rows, t.has m.pairing

structure Intact (b : Books) : Prop where
  clients : ClientsIntact b.clients
  pairings : PairingsIntact b.pairings b.moves

theorem intact_empty : Intact {} where
  clients := ⟨Table.sound_empty, by simp, by simp⟩
  pairings := ⟨Table.sound_empty, Table.sound_empty, by simp, by simp⟩

/-! Clients. -/

namespace ClientsIntact
variable {t : Table Client} {g : Client → Client}

theorem map_rows (hs : t.Sound) (hid : ∀ c, (g c).id = c.id)
    (hthere : ∀ c ∈ t.rows, ∀ p, (g c).partner = some p → t.has p)
    (halone : ∀ c ∈ t.rows, ∀ d ∈ t.rows, ∀ p, (g c).partner = some p →
      (g d).partner = some p → c = d) : ClientsIntact { t with rows := t.rows.map g } := by
  refine ⟨hs.map_rows hid, fun c' hc p hp => ?_, fun c' hc d' hd p hcp hdp => ?_⟩
  · obtain ⟨c, hrow, rfl⟩ := List.mem_map.1 hc
    rw [Table.has_map_rows hid]
    exact hthere c hrow p hp
  · obtain ⟨c, hrowc, rfl⟩ := List.mem_map.1 hc
    obtain ⟨d, hrowd, rfl⟩ := List.mem_map.1 hd
    rw [halone c hrowc d hrowd p hcp hdp]

theorem revise (ht : ClientsIntact t) (hid : ∀ c, (g c).id = c.id)
    (hp : ∀ c, (g c).partner = c.partner ∨ (g c).partner = none) :
    ClientsIntact { t with rows := t.rows.map g } := by
  have hbefore : ∀ c p, (g c).partner = some p → c.partner = some p := by
    intro c p hg
    cases hp c with
    | inl hsame => rw [← hsame, hg]
    | inr hnone => rw [hnone] at hg; cases hg
  refine map_rows ht.sound hid (fun c hc p hg => ?_) fun c hc d hd p hgc hgd => ?_
  · exact ht.there c hc p (hbefore c p hg)
  · exact ht.alone c hc d hd p (hbefore c p hgc) (hbefore d p hgd)

theorem attach {id partner : Int} (ht : ClientsIntact t) (hid : ∀ c, (g c).id = c.id)
    (hp : ∀ c, (g c).partner = if c.id = id then some partner else c.partner)
    (hno : ∀ c ∈ t.rows, c.partner ≠ some partner) (hhas : t.has partner) :
    ClientsIntact { t with rows := t.rows.map g } := by
  refine map_rows ht.sound hid (fun c hc p hg => ?_) fun c hc d hd p hgc hgd => ?_
  · rw [hp] at hg
    split at hg
    · cases hg
      exact hhas
    · exact ht.there c hc p hg
  · -- nobody else has the new partner
    rw [hp] at hgc hgd
    split at hgc
    · rename_i hcid
      cases hgc
      split at hgd
      · rename_i hdid
        exact ht.sound.eq_of_mem hc hd (hcid.trans hdid.symm)
      · exact absurd hgd (hno d hd)
    · split at hgd
      · cases hgd
        exact absurd hgc (hno c hc)
      · exact ht.alone c hc d hd p hgc hgd

theorem remove {id : Int} (ht : ClientsIntact t) (hid : ∀ c, (g c).id = c.id)
    (hp : ∀ c ∈ t.rows, ((g c).partner = c.partner ∨ (g c).partner = none) ∧
      (c.id ≠ id → (g c).partner ≠ some id)) :
    ClientsIntact { t.erase id with rows := (t.erase id).rows.map g } := by
  have hbefore : ∀ c ∈ (t.erase id).rows, ∀ p, (g c).partner = some p →
      c ∈ t.rows ∧ c.partner = some p ∧ p ≠ id := by
    intro c hc p hg
    obtain ⟨hrow, hne⟩ := Table.mem_rows_erase.1 hc
    obtain ⟨hsame | hnone, hgone⟩ := hp c hrow
    · refine ⟨hrow, by rw [← hsame, hg], ?_⟩
      rintro rfl
      exact hgone hne hg
    · rw [hnone] at hg
      cases hg
  refine map_rows ht.sound.erase hid (fun c hc p hg => ?_) fun c hc d hd p hgc hgd => ?_
  · obtain ⟨hrow, hcp, hne⟩ := hbefore c hc p hg
    exact Table.has_erase.2 ⟨ht.there c hrow p hcp, hne⟩
  · obtain ⟨hrowc, hcp, -⟩ := hbefore c hc p hgc
    obtain ⟨hrowd, hdp, -⟩ := hbefore d hd p hgd
    exact ht.alone c hrowc d hrowd p hcp hdp

theorem register (ht : ClientsIntact t) (profile : Profile) :
    ClientsIntact (t.add fun id => { id, profile }) := by
  -- the new client has no partner
  have hrow : ∀ c ∈ (t.add fun id => { id, profile }).rows, ∀ p, c.partner = some p →
      c ∈ t.rows := by
    intro c hc p hp
    obtain hc | rfl := (Table.mem_rows_add t).1 hc
    · exact hc
    · cases hp
  refine ⟨ht.sound.add rfl, fun c hc p hp => ?_, fun c hc d hd p hcp hdp => ?_⟩
  · exact Table.has_add.2 (.inl (ht.there c (hrow c hc p hp) p hp))
  · exact ht.alone c (hrow c hc p hcp) d (hrow d hd p hdp) p hcp hdp

end ClientsIntact

/-! Pairings and their moves. -/

namespace PairingsIntact
variable {t : Table Pairing} {moves : Table Move} {id : Int}

theorem enter {p : NewPairing} (ht : PairingsIntact t moves)
    (hno : ∀ q ∈ t.rows, q.isLiveFor p.man p.woman = false) :
    PairingsIntact (t.add p.at) moves := by
  have hnew : ∀ q ∈ t.rows, ∀ man woman, q.isLiveFor man woman →
      ¬(p.at t.next).isLiveFor man woman := by
    intro q hq man woman hold hlive
    obtain ⟨⟨-, rfl⟩, rfl⟩ : ((p.at t.next).stage.isLive ∧ p.man = man) ∧ p.woman = woman := by
      simpa [Pairing.isLiveFor, NewPairing.at] using hlive
    rw [hno q hq] at hold
    cases hold
  refine ⟨ht.sound.add rfl, ht.soundMoves, fun q hq q' hq' man woman hl hl' => ?_, ?_⟩
  · obtain hq | rfl := (Table.mem_rows_add t).1 hq
    · obtain hq' | rfl := (Table.mem_rows_add t).1 hq'
      · exact ht.alone q hq q' hq' man woman hl hl'
      · exact absurd hl' (hnew q hq man woman hl)
    · obtain hq' | rfl := (Table.mem_rows_add t).1 hq'
      · exact absurd hl (hnew q' hq' man woman hl')
      · rfl
  · intro m hm
    exact Table.has_add.2 (.inl (ht.there m hm))

theorem strike (ht : PairingsIntact t moves) :
    PairingsIntact (t.erase id) { moves with rows := moves.rows.filter (·.pairing != id) } := by
  refine ⟨ht.sound.erase, ht.soundMoves.filter_rows, fun q hq q' hq' => ?_, fun m hm => ?_⟩
  · exact ht.alone q (Table.mem_rows_erase.1 hq).1 q' (Table.mem_rows_erase.1 hq').1
  · obtain ⟨hrow, hne⟩ := List.mem_filter.1 hm
    exact Table.has_erase.2 ⟨ht.there m hrow, by simpa using hne⟩

theorem move {p : Pairing} {stage : Stage} (ht : PairingsIntact t moves)
    (hp : t.find? id = some p)
    (hno : stage.isLive → ∀ q ∈ t.rows, q.id ≠ id → q.isLiveFor p.man p.woman = false) :
    PairingsIntact (t.modify id fun p => { p with stage }) moves := by
  have hmoved : ∀ q ∈ t.rows, q ≠ p → ∀ man woman, q.isLiveFor man woman →
      ¬({ p with stage } : Pairing).isLiveFor man woman := by
    intro q hq hne man woman hold hlive
    obtain ⟨⟨hstage, rfl⟩, rfl⟩ : (stage.isLive ∧ p.man = man) ∧ p.woman = woman := by
      simpa [Pairing.isLiveFor] using hlive
    have hid : q.id ≠ id := fun hid => hne (ht.sound.eq_of_find? hp hq hid)
    rw [hno hstage q hq hid] at hold
    cases hold
  refine ⟨ht.sound.modify fun _ => rfl, ht.soundMoves, ?_, fun m hm => ?_⟩
  · intro q hq q' hq' man woman hl hl'
    obtain rfl | ⟨hq, hne⟩ := ht.sound.mem_rows_modify hp hq
    · obtain rfl | ⟨hq', hne'⟩ := ht.sound.mem_rows_modify hp hq'
      · rfl
      · exact absurd hl (hmoved q' hq' hne' man woman hl')
    · obtain rfl | ⟨hq', -⟩ := ht.sound.mem_rows_modify hp hq'
      · exact absurd hl' (hmoved q hq hne man woman hl)
      · exact ht.alone q hq q' hq' man woman hl hl'
  · rw [Table.has_modify]
    exact ht.there m hm

theorem note {before after : Stage} {operator reason : String} (ht : PairingsIntact t moves)
    (hhas : t.has id) :
    PairingsIntact t (moves.add fun n => ⟨n, id, before, after, operator, reason⟩) := by
  refine ⟨ht.sound, ht.soundMoves.add rfl, ht.alone, fun m hm => ?_⟩
  obtain hm | rfl := (Table.mem_rows_add moves).1 hm
  · exact ht.there m hm
  · exact hhas

end PairingsIntact

variable {marks : Prop} {b b' b'' : Books}

theorem Stroke.intact (hs : b.Stroke marks b') (hb : b.Intact) : b'.Intact := by
  cases hs with
  | register p => exact ⟨hb.clients.register p, hb.pairings⟩
  | revise hid hp => exact ⟨hb.clients.revise hid hp, hb.pairings⟩
  | attach hid hp hno hhas => exact ⟨hb.clients.attach hid hp hno hhas, hb.pairings⟩
  | remove hid hp => exact ⟨hb.clients.remove hid hp, hb.pairings⟩
  | lease l => exact ⟨hb.clients, hb.pairings⟩
  | enter hno => exact ⟨hb.clients, hb.pairings.enter hno⟩
  | strike id => exact ⟨hb.clients, hb.pairings.strike⟩
  | move hm hp hno => exact ⟨hb.clients, hb.pairings.move hp hno⟩
  | note before after operator reason hm hhas => exact ⟨hb.clients, hb.pairings.note hhas⟩

/-! The trail of a pairing only grows for as long as the pairing is there. A pairing that is there
later, with a number given out before, was there before. -/

structure Grows (b b' : Books) : Prop where
  last_le : b.pairings.last ≤ b'.pairings.last
  trail : ∀ id ≤ b.pairings.last, b'.pairings.has id →
    b.pairings.has id ∧ b.movesOf id <+: b'.movesOf id

theorem Grows.of_same (hpairings : b'.pairings = b.pairings) (hmoves : b'.moves = b.moves) :
    b.Grows b' := by
  refine ⟨Int.le_of_eq (by rw [hpairings]), fun id _ hhas => ⟨hpairings ▸ hhas, ?_⟩⟩
  have htrail : b'.movesOf id = b.movesOf id := by rw [movesOf, movesOf, hmoves]
  exact htrail ▸ List.prefix_rfl

theorem Grows.trans (h₁ : b.Grows b') (h₂ : b'.Grows b'') : b.Grows b'' := by
  refine ⟨Int.le_trans h₁.last_le h₂.last_le, fun id hle hhas => ?_⟩
  obtain ⟨hthere, htrail⟩ := h₂.trail id (Int.le_trans hle h₁.last_le) hhas
  obtain ⟨hbefore, htrail'⟩ := h₁.trail id hle hthere
  exact ⟨hbefore, htrail'.trans htrail⟩

/-- Nothing is noted under a number that was not given out. -/
theorem movesOf_eq_nil {id : Int} (hb : b.Intact) (hid : b.pairings.last < id) :
    b.movesOf id = [] := by
  rw [movesOf, List.filter_eq_nil_iff]
  intro m hm hpairing
  have hle := hb.pairings.sound.le_last_of_has (hb.pairings.there m hm)
  rw [beq_iff_eq.1 hpairing] at hle
  omega

theorem movesOf_withoutPairing {id x : Int} (hx : x ≠ id) :
    (b.withoutPairing id).movesOf x = b.movesOf x := by
  rw [movesOf, withoutPairing, List.filter_filter, movesOf]
  refine List.filter_congr fun m _ => ?_
  by_cases hm : m.pairing = x <;> simp [hm, hx]

theorem Stroke.grows (hs : b.Stroke marks b') : b.Grows b' := by
  cases hs with
  | enter hno =>
    have hnext : b.pairings.last ≤ b.pairings.last + 1 := by omega
    refine ⟨hnext, fun id hle hhas => ⟨?_, List.prefix_rfl⟩⟩
    obtain hold | hnew := Table.has_add.1 hhas
    · exact hold
    · have hid : b.pairings.last + 1 = id := hnew
      omega
  | strike id =>
    refine ⟨Int.le_refl _, fun x _ hhas => ?_⟩
    obtain ⟨hthere, hne⟩ := Table.has_erase.1 hhas
    rw [movesOf_withoutPairing hne]
    exact ⟨hthere, List.prefix_rfl⟩
  | move hm hp hno =>
    refine ⟨Int.le_refl _, fun x _ hhas => ⟨?_, List.prefix_rfl⟩⟩
    rwa [withStage, Table.has_modify] at hhas
  | note before after operator reason hm hhas =>
    refine ⟨Int.le_refl _, fun x _ hx => ⟨hx, ?_⟩⟩
    rw [movesOf, movesOf, withMove, Table.add, List.filter_append]
    exact List.prefix_append _ _
  | _ => exact .of_same rfl rfl

theorem Strokes.grows (hs : b.Strokes marks b') : b.Grows b' :=
  hs.keep (fun hstroke hb => hb.trans hstroke.grows) (.of_same rfl rfl)

theorem Intact.trail_of_strokes (hb : b.Intact) (hs : b.Strokes marks b') {p p' : Pairing}
    (hp : p ∈ b.pairings.rows) (hp' : p' ∈ b'.pairings.rows) (hid : p'.id = p.id) :
    b.movesOf p.id <+: b'.movesOf p.id := by
  have hle : p.id ≤ b.pairings.last := hb.pairings.sound.le_last p hp
  exact (hs.grows.trail p.id hle (Table.has_iff.2 ⟨p', hp', hid⟩)).2

end Books

namespace Agency

theorem intact_serve {a : Agency} {m : Moment} {r : Request} (ha : a.books.Intact) :
    (a.serve m r).2.books.Intact := by
  have hs : a.books.Strokes True (a.serve m r).2.books := strokes_of_serve fun _ => trivial
  exact hs.keep Books.Stroke.intact ha

theorem intact_after {a : Agency} {rs : List (Moment × Request)} (ha : a.books.Intact) :
    (a.after rs).books.Intact :=
  strokes_of_after.keep Books.Stroke.intact ha

/-- After any requests whatever the books are intact, and the next one, whatever it is, only adds
to the trail of a pairing that it leaves there. -/
theorem integrity (rs : List (Moment × Request)) :
    let a := ({} : Agency).after rs
    a.books.Intact ∧ ∀ m r, ∀ p ∈ a.books.pairings.rows,
      ∀ p' ∈ (a.serve m r).2.books.pairings.rows, p'.id = p.id →
        a.books.movesOf p.id <+: (a.serve m r).2.books.movesOf p.id := by
  intro a
  have ha : a.books.Intact := intact_after Books.intact_empty
  refine ⟨ha, fun m r p hp p' hp' hid => ?_⟩
  have hs : a.books.Strokes True (a.serve m r).2.books := strokes_of_serve fun _ => trivial
  exact ha.trail_of_strokes hs hp hp' hid

end Agency

namespace Sample

def handwritten : List (Moment × Request) :=
  [.book (.register man), .book (.register woman), .book (.attach 1 1),
    .book (.addPairing { man := 1, woman := 2 }), .book (.moveStage 1 .acquaintance .broken),
    .book (.addMove 1 .acquaintance .broken "" "")].map (newYear, ·)

def revival : Request :=
  .transaction [.moveStage 1 .broken .dating, .addMove 2 .broken .dating "" "",
    .addMove 1 .broken .dating "" ""] .commit

end Sample

/-- The trail of a pairing that comes back to life goes on. -/
theorem Agency.integrity_sample :
    let a := ({} : Agency).after Sample.handwritten
    let b := (a.serve Sample.newYear Sample.revival).2.books
    ∃ p ∈ a.books.pairings.rows, ∃ p' ∈ b.pairings.rows, p'.id = p.id ∧
      (p.stage = .broken ∧ p'.stage = .dating) ∧ a.books.movesOf p.id <+: b.movesOf p.id := by
  intro a b
  have hrevived : ∃ p ∈ a.books.pairings.rows, ∃ p' ∈ b.pairings.rows, p'.id = p.id ∧
      p.stage = .broken ∧ p'.stage = .dating := by
    decide +kernel
  obtain ⟨p, hp, p', hp', hid, hstages⟩ := hrevived
  obtain ⟨-, htrail⟩ := integrity Sample.handwritten
  exact ⟨p, hp, p', hp', hid, hstages, htrail Sample.newYear Sample.revival p hp p' hp' hid⟩

end Matchmaking
