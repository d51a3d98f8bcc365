import Matchmaking.Proofs.Linkage

/-! Couples. Whoever is linked is so to one of the other gender, and the man and the woman have
exactly one live pairing. Genders are locked while a link lasts, and a link is undone with the
pairing that made it. -/
namespace Matchmaking

namespace Books
variable {b b' b₁ : Books} {id x y man woman : Int}

/-- A man and a woman with exactly one live pairing. -/
def IsCouple (b : Books) (man woman : Int) : Prop :=
  b.gender? man = some .male ∧ b.gender? woman = some .female ∧ b.liveCount man woman = 1

structure Paired (b : Books) : Prop extends Linked b where
  pairings : b.pairings.Sound
  couple : ∀ {x y}, b.partner? x = some y → b.IsCouple x y ∨ b.IsCouple y x

theorem paired_empty : Paired {} where
  toLinked := linked_empty
  pairings := Table.sound_empty
  couple h := by cases h

theorem IsCouple.of_same (hb : b.IsCouple man woman) (hman : b'.gender? man = b.gender? man)
    (hwoman : b'.gender? woman = b.gender? woman)
    (hcount : b'.liveCount man woman = b.liveCount man woman) : b'.IsCouple man woman := by
  obtain ⟨hm, hw, hc⟩ := hb
  exact ⟨hman.trans hm, hwoman.trans hw, hcount.trans hc⟩

/-! Upkeep keeps the gender of whoever has a partner, and writes no pairing. -/

theorem gender?_annotated {g : Client → Option String} {l : List Lease} :
    (b.annotated g l).gender? x = b.gender? x := by
  rw [gender?, client?_annotated, Option.map_map]
  rfl

theorem Upkeep.gender?_eq (hb : b.Linked) (hu : b.Upkeep b') (hx : b.partner? x = some y) :
    b'.gender? x = b.gender? x := by
  cases hu with
  | keep => rfl
  | annotate g l => exact gender?_annotated
  | register p =>
    have hne : x ≠ b.clients.next := by
      intro hn
      rw [hn, partner?, client?, hb.clients.find?_next] at hx
      cases hx
    rw [gender?, client?_withClient hb.clients, if_neg hne, gender?]
  | @edit id p c hc hg =>
    rw [gender?_withProfile hc]
    by_cases hid : x = id
    · subst hid
      rw [partner?_of_client? hc] at hx
      have hgender : c.profile.gender = p.gender := by simpa [hx] using hg
      rw [if_pos rfl, gender?_of_client? hc, hgender]
    · rw [if_neg hid]
  | @remove id c hc hs =>
    have hid := hb.partner?_of_not_matched hc hs.2
    have hne : x ≠ id := by
      rintro rfl
      rw [hid] at hx
      cases hx
    rw [removed_eq hb hid, gender?, client?_withoutClient, if_neg hne, gender?]
  | switch hc hp hs => exact gender?_modifyClient_of_same

theorem Upkeep.pairings_eq (hb : b.Linked) (hu : b.Upkeep b') : b'.pairings = b.pairings := by
  cases hu with
  | remove hc hs =>
    rw [removed_eq hb (hb.partner?_of_not_matched hc hs.2)]
    rfl
  | _ => rfl

theorem Upkeep.paired (hb : b.Paired) (hu : b.Upkeep b') : b'.Paired := by
  have hpairings := hu.pairings_eq hb.toLinked
  refine ⟨hu.linked hb.toLinked, hpairings ▸ hb.pairings, fun {x y} h => ?_⟩
  rw [hu.partner?_eq hb.toLinked] at h
  have hx := hu.gender?_eq hb.toLinked h
  have hy := hu.gender?_eq hb.toLinked (hb.back h)
  have hcount : ∀ {man woman}, b'.liveCount man woman = b.liveCount man woman := by
    intro man woman
    rw [liveCount, hpairings, liveCount]
  cases hb.couple h with
  | inl hcouple => exact .inl (hcouple.of_same hx hy hcount)
  | inr hcouple => exact .inr (hcouple.of_same hy hx hcount)

/-! The two who are unlinked are the only ones whose live pairing can go. -/

theorem Paired.parted {p : Pairing} (hb : b.Paired) (hclients : b₁.clients = b.clients)
    (hpairings : b₁.pairings.Sound)
    (hcount : ∀ {man woman}, p.isLiveFor man woman = false →
      b₁.liveCount man woman = b.liveCount man woman) : (b₁.parted p.man p.woman).Paired := by
  have hpartner : ∀ {x}, b₁.partner? x = b.partner? x := partner?_of_clients hclients
  have hgender : ∀ {x}, (b₁.parted p.man p.woman).gender? x = b.gender? x := by
    intro x
    rw [gender?_parted, gender?_of_clients hclients]
  refine ⟨(hb.of_clients hclients).parted, by rwa [pairings_parted], fun {x y} h => ?_⟩
  rw [partner?_parted] at h
  split at h
  · cases h
  · rename_i hkept
    have hlink : b.partner? x = some y := hpartner ▸ h
    have hback : b.partner? y = some x := hb.back hlink
    have hother : ∀ {man woman}, p.isLiveFor man woman = true →
        ¬(man = x ∧ woman = y ∨ man = y ∧ woman = x) := by
      intro man woman hp
      obtain ⟨⟨-, rfl⟩, rfl⟩ : (p.stage.isLive ∧ p.man = man) ∧ p.woman = woman := by
        simpa [Pairing.isLiveFor] using hp
      rintro (⟨hx, hy⟩ | ⟨hx, hy⟩)
      · exact hkept (.inl ⟨hx.symm, by rw [hpartner, hx, hy, hlink]⟩)
      · exact hkept (.inr ⟨hy.symm, by rw [hpartner, hx, hy, hlink]⟩)
    have hsame : ∀ {man woman}, man = x ∧ woman = y ∨ man = y ∧ woman = x →
        (b₁.parted p.man p.woman).liveCount man woman = b.liveCount man woman := by
      intro man woman hparties
      rw [liveCount_parted, hcount]
      exact Bool.eq_false_iff.2 fun hp => hother hp hparties
    cases hb.couple hlink with
    | inl hcouple =>
      exact .inl (hcouple.of_same hgender hgender (hsame (.inl ⟨rfl, rfl⟩)))
    | inr hcouple =>
      exact .inr (hcouple.of_same hgender hgender (hsame (.inr ⟨rfl, rfl⟩)))

theorem Progress.paired (hb : b.Paired) {r : Request} (hp : b.Progress r b') : b'.Paired := by
  cases hp with
  | keep => exact hb
  | @move id p stage operator reason hq hl hs =>
    refine ⟨hb.of_clients rfl, hb.pairings.modify fun _ => rfl, fun {x y} h => ?_⟩
    have hlive : p.stage.isLive = stage.isLive := by
      rw [Stage.isLive_of_leadsTo hl, Stage.isLive_iff.2 hs]
    have hcount : ∀ {man woman}, (b.withStage id stage).liveCount man woman =
        b.liveCount man woman :=
      liveCount_withStage hb.pairings hq (by simp [Pairing.isLiveFor, hlive])
    have hlink : b.partner? x = some y := h
    cases hb.couple hlink with
    | inl hcouple => exact .inl (hcouple.of_same rfl rfl hcount)
    | inr hcouple => exact .inr (hcouple.of_same rfl rfl hcount)
  | @breakUp id p operator reason hq hl =>
    refine Paired.parted hb rfl (hb.pairings.modify fun _ => rfl) fun hdead => ?_
    refine liveCount_withStage hb.pairings hq ?_
    rw [hdead]
    simp [Pairing.isLiveFor, Stage.isLive]
  | strike hr hq =>
    refine Paired.parted hb rfl hb.pairings.erase fun hdead => ?_
    exact liveCount_withoutPairing hb.pairings hq hdead

/-! Two clients are joined as a man and a woman with no live pairing before. -/

variable {p : NewPairing}

theorem gender?_joined : (b.joined p).gender? x = b.gender? x := by
  calc (b.joined p).gender? x
    _ = ((b.wed p.man p.woman).wed p.woman p.man).gender? x := rfl
    _ = (b.wed p.man p.woman).gender? x := gender?_modifyClient_of_same
    _ = b.gender? x := gender?_modifyClient_of_same

theorem liveCount_joined :
    (b.joined p).liveCount man woman =
      b.liveCount man woman + if p.man = man ∧ p.woman = woman then 1 else 0 :=
  liveCount_withPairing

theorem pairing?_joined (hb : b.pairings.Sound) :
    (b.joined p).pairing? b.pairings.next = some (p.at b.pairings.next) := by
  have hadd : (b.joined p).pairings = b.pairings.add p.at := rfl
  rw [pairing?, hadd, hb.find?_add rfl, if_pos rfl]

theorem Paired.joined (hb : b.Paired) (hj : b.CanJoin p) (hman : b.gender? p.man = some .male)
    (hwoman : b.gender? p.woman = some .female) : (b.joined p).Paired := by
  have hcouple : (b.joined p).IsCouple p.man p.woman := by
    refine ⟨gender?_joined.trans hman, gender?_joined.trans hwoman, ?_⟩
    rw [liveCount_joined, hj.unpaired, if_pos ⟨rfl, rfl⟩]
  refine ⟨hb.toLinked.joined hj, hb.pairings.add rfl, fun {x y} h => ?_⟩
  rw [partner?_joined hj] at h
  split at h
  · rename_i hx
    obtain rfl := Option.some.inj h
    exact .inr (hx ▸ hcouple)
  · rename_i hxw
    split at h
    · rename_i hx
      obtain rfl := Option.some.inj h
      exact .inl (hx ▸ hcouple)
    · rename_i hxm
      have hxy : (b.joined p).liveCount x y = b.liveCount x y := by
        rw [liveCount_joined, if_neg fun hp => hxm hp.1.symm, Nat.add_zero]
      have hyx : (b.joined p).liveCount y x = b.liveCount y x := by
        rw [liveCount_joined, if_neg fun hp => hxw hp.2.symm, Nat.add_zero]
      cases hb.couple h with
      | inl hc => exact .inl (hc.of_same gender?_joined gender?_joined hxy)
      | inr hc => exact .inr (hc.of_same gender?_joined gender?_joined hyx)

end Books

namespace Agency
variable {a : Agency} {m : Moment} {r : Request}

theorem paired_of_serve (ha : a.hazards.faults = []) (hr : r.isRegular) (hb : a.books.Paired) :
    (a.serve m r).2.books.Paired := by
  simp only [Request.isRegular, Request.isCourtship, Bool.or_eq_true] at hr
  obtain hr | hr | hr := hr
  · exact (upkeep_of_serve ha hr).paired hb
  · obtain hsame | ⟨p, hj, hman, hwoman, hjoined⟩ := joined_of_serve ha hr
    · rw [hsame]
      exact hb
    · rw [hjoined]
      exact hb.joined hj hman hwoman
  · exact (progress_of_serve ha hr).paired hb

theorem paired_after {rs : List (Moment × Request)} (hr : ∀ q ∈ rs, q.2.isRegular) :
    (({} : Agency).after rs).books.Paired :=
  books_after paired_of_serve rfl hr Books.paired_empty

/-- Regular requests alone, from empty books: a client with a partner is in a couple with them,
a client is matched exactly when they have a partner, and nobody is left matching. -/
theorem couple_of_partner {rs : List (Moment × Request)} (hr : ∀ q ∈ rs, q.2.isRegular) :
    let b := (({} : Agency).after rs).books
    ∀ c ∈ b.clients.rows, c.standing ≠ .matching ∧ (c.partner.isSome ↔ c.standing = .matched) ∧
      ∀ p, c.partner = some p → ∃ d ∈ b.clients.rows, d.id = p ∧ p ≠ c.id ∧
        d.partner = some c.id ∧ (b.IsCouple c.id p ∨ b.IsCouple p c.id) := by
  intro b c hc
  have hb : b.Paired := paired_after hr
  have hfind : b.client? c.id = some c := hb.clients.find?_of_mem hc
  obtain ⟨hmatching, hmatched⟩ := hb.settled hfind
  refine ⟨hmatching, hmatched, fun p hp => ?_⟩
  have hlink : b.partner? c.id = some p := by rw [Books.partner?_of_client? hfind, hp]
  obtain ⟨d, hd, hback⟩ := Books.partner?_eq_some.1 (hb.back hlink)
  exact ⟨d, Table.mem_of_find? hd, Table.id_of_find? hd, (hb.ne hlink).symm, hback,
    hb.couple hlink⟩

theorem couple_of_partner_sample :
    (∀ q ∈ Sample.couple, q.2.isRegular) ∧
      let b := (({} : Agency).after Sample.couple).books
      ∃ c ∈ b.clients.rows, c.partner = some 2 ∧ c.standing = .matched ∧
        ∃ d ∈ b.clients.rows, d.id = 2 ∧ 2 ≠ c.id ∧ d.partner = some c.id ∧
          (b.IsCouple c.id 2 ∨ b.IsCouple 2 c.id) := by
  have hr : ∀ q ∈ Sample.couple, q.2.isRegular := by decide
  have hc : ∃ c ∈ (({} : Agency).after Sample.couple).books.clients.rows, c.partner = some 2 := by
    decide +kernel
  obtain ⟨c, hc, hp⟩ := hc
  obtain ⟨-, hmatched, hcouple⟩ := couple_of_partner hr c hc
  exact ⟨hr, c, hc, hp, hmatched.1 (by rw [hp]; rfl), hcouple 2 hp⟩

end Agency

end Matchmaking
