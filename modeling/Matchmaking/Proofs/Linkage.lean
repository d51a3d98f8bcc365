import Matchmaking.Proofs.Progress
import Matchmaking.Proofs.Upkeep

/-! Links between clients. Each names the other, whoever is linked is matched, and nobody is
matched alone. Every step keeps this, with no regard to the pairings. -/
namespace Matchmaking

def Client.IsSettled (c : Client) : Prop :=
  c.standing ≠ .matching ∧ (c.partner.isSome ↔ c.standing = .matched)

namespace Books
variable {b b' : Books} {id x y : Int} {c : Client} {f : Client → Client}

structure Settled (b : Books) : Prop where
  clients : b.clients.Sound
  settled : ∀ {x c}, b.client? x = some c → c.IsSettled

structure Linked (b : Books) : Prop extends Settled b where
  back : ∀ {x y}, b.partner? x = some y → b.partner? y = some x
  ne : ∀ {x y}, b.partner? x = some y → x ≠ y

theorem linked_empty : Linked {} where
  clients := Table.sound_empty
  settled h := by cases h
  back h := by cases h
  ne h := by cases h

theorem Settled.modifyClient (hb : b.Settled)
    (hs : ∀ c, b.client? id = some c → (f c).IsSettled)
    (hf : ∀ c, (f c).id = c.id := by intro; rfl) : (b.modifyClient id f).Settled := by
  refine ⟨hb.clients.modify hf, fun {x c} hc => ?_⟩
  rw [client?_modifyClient hf] at hc
  by_cases hx : x = id
  · rw [if_pos hx] at hc
    obtain ⟨d, hd, rfl⟩ := Option.map_eq_some_iff.1 hc
    exact hs d hd
  · rw [if_neg hx] at hc
    exact hb.settled hc

theorem Settled.wed (hb : b.Settled) : (b.wed x y).Settled :=
  hb.modifyClient fun _ _ => by simp [Client.IsSettled]

theorem Settled.release (hb : b.Settled) : (b.release x y).Settled := by
  rw [Books.release]
  split
  · exact hb.modifyClient fun _ _ => by simp [Client.IsSettled]
  · exact hb

theorem Settled.partner?_of_not_matched (hb : b.Settled) (hc : b.client? id = some c)
    (hs : c.standing ≠ .matched) : b.partner? id = none := by
  have hp := mt (hb.settled hc).2.1 hs
  rw [partner?_of_client? hc]
  simpa using hp

theorem partner?_of_isFree (hc : ∃ c, b.client? x = some c ∧ c.isFree) : b.partner? x = none := by
  obtain ⟨c, hc, hfree⟩ := hc
  rw [partner?_of_client? hc, (Client.isFree_iff.1 hfree).2]

/-! Upkeep touches no link. -/

theorem client?_annotated {g : Client → Option String} {l : List Lease} :
    (b.annotated g l).client? x = (b.client? x).map fun c => { c with shortlist := g c } :=
  Table.find?_map_rows fun _ => rfl

theorem partner?_annotated {g : Client → Option String} {l : List Lease} :
    (b.annotated g l).partner? x = b.partner? x := by
  rw [partner?, client?_annotated, Option.bind_map]
  rfl

/-- A client whom nobody has as partner is removed without touching anyone. -/
theorem removed_eq (hb : b.Linked) (hid : b.partner? id = none) :
    b.removed id = b.withoutClient id := by
  have hnone : (b.withoutClient id).clients.rows.filter (·.partner == some id) = [] := by
    rw [List.filter_eq_nil_iff]
    intro c hc hp
    have hrow : c ∈ b.clients.rows := (Table.mem_rows_erase.1 hc).1
    have hpartner := partner?_eq_some.2 ⟨c, hb.clients.find?_of_mem hrow, by simpa using hp⟩
    have hback := hb.back hpartner
    rw [hid] at hback
    cases hback
  rw [removed, hnone, List.foldl_nil]

theorem Upkeep.partner?_eq (hb : b.Linked) (hu : b.Upkeep b') : b'.partner? x = b.partner? x := by
  cases hu with
  | keep => rfl
  | annotate g l => exact partner?_annotated
  | register p =>
    rw [partner?, client?_withClient hb.clients]
    by_cases hx : x = b.clients.next
    · rw [if_pos hx, hx, partner?, client?, hb.clients.find?_next]
      rfl
    · rw [if_neg hx, partner?]
  | edit hc hg => exact partner?_modifyClient_of_same
  | @remove id c hc hs =>
    have hid := hb.partner?_of_not_matched hc hs.2
    rw [removed_eq hb hid, partner?, client?_withoutClient]
    by_cases hx : x = id
    · rw [if_pos hx, hx, hid]
      rfl
    · rw [if_neg hx, partner?]
  | switch hc hp hs => exact partner?_modifyClient_of_same

theorem Upkeep.settled (hb : b.Linked) (hu : b.Upkeep b') : b'.Settled := by
  cases hu with
  | keep => exact hb.toSettled
  | annotate g l =>
    refine ⟨hb.clients.map_rows fun _ => rfl, fun hc => ?_⟩
    rw [client?_annotated] at hc
    obtain ⟨d, hd, rfl⟩ := Option.map_eq_some_iff.1 hc
    have hsettled : d.IsSettled := hb.settled hd
    exact hsettled
  | register p =>
    have hclients : (b.clients.add fun id => { id, profile := p }).Sound := hb.clients.add rfl
    refine ⟨hclients, fun hc => ?_⟩
    rw [client?_withClient hb.clients] at hc
    split at hc
    · cases hc
      simp [Client.IsSettled]
    · exact hb.settled hc
  | edit hd hg =>
    refine hb.modifyClient fun c hc => ?_
    have hsettled : c.IsSettled := hb.settled hc
    exact hsettled
  | remove hd hs =>
    rw [removed_eq hb (hb.partner?_of_not_matched hd hs.2)]
    refine ⟨hb.clients.erase, fun hc => ?_⟩
    rw [client?_withoutClient] at hc
    split at hc
    · cases hc
    · exact hb.settled hc
  | switch hd hp hs =>
    refine hb.modifyClient fun c hc => ?_
    obtain rfl := Option.some.inj (hd.symm.trans hc)
    obtain rfl | rfl := hs <;> simp [Client.IsSettled, hp]

theorem Upkeep.linked (hb : b.Linked) (hu : b.Upkeep b') : b'.Linked := by
  have hpartner : ∀ {x}, b'.partner? x = b.partner? x := hu.partner?_eq hb
  refine ⟨hu.settled hb, fun h => ?_, fun h => ?_⟩
  · rw [hpartner] at h ⊢
    exact hb.back h
  · rw [hpartner] at h
    exact hb.ne h

/-! A break or a strike unlinks two clients from each other, and an arrangement links two. -/

theorem Linked.of_clients (hb : b.Linked) (hc : b'.clients = b.clients) : b'.Linked := by
  refine ⟨⟨hc ▸ hb.clients, fun h => ?_⟩, fun h => ?_, fun h => ?_⟩
  · rw [client?_of_clients hc] at h
    exact hb.settled h
  · rw [partner?_of_clients hc] at h ⊢
    exact hb.back h
  · rw [partner?_of_clients hc] at h
    exact hb.ne h

theorem Linked.parted (hb : b.Linked) : (b.parted x y).Linked := by
  refine ⟨hb.toSettled.release.release, fun {z w} h => ?_, fun {z w} h => ?_⟩
  · rw [partner?_parted] at h ⊢
    split at h
    · cases h
    · rename_i hz
      have hback := hb.back h
      -- were `w` unlinked from `z`, then `z` would be from `w` too
      have hw : ¬(w = x ∧ b.partner? x = some y ∨ w = y ∧ b.partner? y = some x) := by
        rintro (⟨rfl, hx⟩ | ⟨rfl, hy⟩)
        · obtain rfl := Option.some.inj (hx.symm.trans hback)
          exact hz (.inr ⟨rfl, h⟩)
        · obtain rfl := Option.some.inj (hy.symm.trans hback)
          exact hz (.inl ⟨rfl, h⟩)
      rw [if_neg hw, hback]
  · rw [partner?_parted] at h
    split at h
    · cases h
    · exact hb.ne h

theorem Progress.linked (hb : b.Linked) {r : Request} (hp : b.Progress r b') : b'.Linked := by
  cases hp with
  | keep => exact hb
  | move operator reason hq hl hs => exact hb.of_clients rfl
  | breakUp operator reason hq hl =>
    refine Linked.parted ?_
    exact hb.of_clients rfl
  | strike hr hq =>
    refine Linked.parted ?_
    exact hb.of_clients rfl

theorem Progress.isFree_of_unlinked {r : Request} (hp : b.Progress r b')
    (hx : b.partner? x ≠ none) (hnone : b'.partner? x = none) :
    ∃ c, b'.client? x = some c ∧ c.isFree := by
  cases hp with
  | keep => exact absurd hnone hx
  | move operator reason hq hl hs => exact absurd hnone hx
  | breakUp operator reason hq hl =>
    refine isFree_of_parted ?_ hnone
    exact hx
  | strike hr hq =>
    refine isFree_of_parted ?_ hnone
    exact hx

variable {p : NewPairing}

theorem partner?_joined (hj : b.CanJoin p) :
    (b.joined p).partner? x =
      if x = p.woman then some p.man else if x = p.man then some p.woman else b.partner? x := by
  obtain ⟨c, hc, -⟩ := hj.man
  obtain ⟨d, hd, -⟩ := hj.woman
  have hd' : (b.wed p.man p.woman).client? p.woman = some d := by
    rw [wed, client?_modifyClient, if_neg hj.ne.symm, hd]
  calc (b.joined p).partner? x
    _ = ((b.wed p.man p.woman).wed p.woman p.man).partner? x := rfl
    _ = _ := by rw [partner?_wed hd', partner?_wed hc]

theorem Linked.joined (hb : b.Linked) (hj : b.CanJoin p) : (b.joined p).Linked := by
  refine ⟨?_, fun {x y} h => ?_, fun {x y} h => ?_⟩
  · obtain ⟨hclients, hsettled⟩ := hb.toSettled.wed (x := p.man) (y := p.woman) |>.wed
      (x := p.woman) (y := p.man)
    exact ⟨hclients, hsettled⟩
  · rw [partner?_joined hj] at h ⊢
    by_cases hw : x = p.woman
    · subst hw
      rw [if_pos rfl] at h
      obtain rfl := Option.some.inj h
      rw [if_neg hj.ne, if_pos rfl]
    · rw [if_neg hw] at h
      by_cases hm : x = p.man
      · subst hm
        rw [if_pos rfl] at h
        obtain rfl := Option.some.inj h
        rw [if_pos rfl]
      · rw [if_neg hm] at h
        -- nobody had the two as partner before
        have hno := hj.unclaimed x
        have hyw : y ≠ p.woman := fun hy => hno.2 (hy ▸ h)
        have hym : y ≠ p.man := fun hy => hno.1 (hy ▸ h)
        rw [if_neg hyw, if_neg hym]
        exact hb.back h
  · rw [partner?_joined hj] at h
    have hne := hj.ne
    split at h
    · grind
    · split at h
      · grind
      · exact hb.ne h

end Books

end Matchmaking
