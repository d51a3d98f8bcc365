import Matchmaking.Proofs.Numbering
import Matchmaking.Proofs.Writes

/-! Whom the books name as a client's partner, of what gender a client is and how many live
pairings two clients have, each after every kind of write. -/
namespace Matchmaking

theorem Client.isFree_iff {c : Client} : c.isFree ↔ c.standing = .single ∧ c.partner = none := by
  simp [isFree]

namespace Books

section
variable (b : Books)

def partner? (id : Int) : Option Int := (b.client? id).bind Client.partner

def gender? (id : Int) : Option Gender := (b.client? id).map (·.profile.gender)

def liveCount (man woman : Int) : Nat := b.pairings.rows.countP (·.isLiveFor man woman)

def wed (id partner : Int) : Books :=
  b.modifyClient id fun c => { c with standing := .matched, partner := some partner }

def release (id partner : Int) : Books :=
  if (b.client? id).any (·.partner == some partner) then
    b.modifyClient id fun c => { c with standing := .single, partner := none } else b

def parted (x y : Int) : Books := (b.release x y).release y x

def joined (p : NewPairing) : Books := ((b.wed p.man p.woman).wed p.woman p.man).withPairing p

end

variable {b b' : Books} {id x y z : Int} {c : Client} {f : Client → Client}

/-! A client, after each write. -/

theorem client?_modifyClient (hf : ∀ c, (f c).id = c.id := by intro; rfl) :
    (b.modifyClient id f).client? x = if x = id then (b.client? id).map f else b.client? x := by
  by_cases hx : x = id
  · subst x
    rw [if_pos rfl]
    exact Table.find?_modify_self hf
  · rw [if_neg hx]
    exact Table.find?_modify_of_ne hf hx

theorem client?_withClient (hb : b.clients.Sound) {p : Profile} :
    (b.withClient p).client? x =
      if x = b.clients.next then some { id := x, profile := p } else b.client? x := by
  have hadd : (b.withClient p).client? x = if x = b.clients.next then
      some { id := b.clients.next, profile := p } else b.client? x := hb.find?_add rfl
  rw [hadd]
  split
  · rename_i hx
    rw [hx]
  · rfl

theorem client?_withoutClient :
    (b.withoutClient id).client? x = if x = id then none else b.client? x := by
  by_cases hx : x = id
  · subst x
    rw [if_pos rfl]
    exact Table.find?_erase_self
  · rw [if_neg hx]
    exact Table.find?_erase_of_ne hx

theorem client?_of_clients (h : b'.clients = b.clients) : b'.client? x = b.client? x := by
  rw [client?, client?, h]

/-! Their partner. -/

theorem partner?_of_clients (h : b'.clients = b.clients) : b'.partner? x = b.partner? x := by
  rw [partner?, partner?, client?_of_clients h]

theorem partner?_eq_some : b.partner? x = some y ↔ ∃ c, b.client? x = some c ∧ c.partner = some y :=
  Option.bind_eq_some_iff

theorem partner?_of_client? (hc : b.client? x = some c) : b.partner? x = c.partner := by
  rw [partner?, hc, Option.bind_some]

theorem partner?_modifyClient (hf : ∀ c, (f c).id = c.id := by intro; rfl) :
    (b.modifyClient id f).partner? x =
      if x = id then (b.client? id).bind fun c => (f c).partner else b.partner? x := by
  rw [partner?, client?_modifyClient hf]
  by_cases hx : x = id
  · rw [if_pos hx, if_pos hx, Option.bind_map]
    rfl
  · rw [if_neg hx, if_neg hx, partner?]

theorem partner?_modifyClient_of_same (hf : ∀ c, (f c).id = c.id := by intro; rfl)
    (hp : ∀ c, (f c).partner = c.partner := by intro; rfl) :
    (b.modifyClient id f).partner? x = b.partner? x := by
  rw [partner?_modifyClient hf]
  by_cases hx : x = id
  · rw [if_pos hx, hx, funext hp]
    rfl
  · rw [if_neg hx]

theorem partner?_wed (hc : b.client? x = some c) :
    (b.wed x y).partner? z = if z = x then some y else b.partner? z := by
  rw [wed, partner?_modifyClient, hc, Option.bind_some]

theorem client?_release :
    (b.release x y).client? z =
      if z = x ∧ b.partner? x = some y then
        (b.client? x).map fun c => { c with standing := .single, partner := none }
      else b.client? z := by
  have hany : (b.client? x).any (·.partner == some y) = true ↔ b.partner? x = some y := by
    cases hc : b.client? x with
    | none => simp [partner?, hc]
    | some c => simp [partner?, hc]
  by_cases hl : b.partner? x = some y
  · rw [release, if_pos (hany.2 hl), client?_modifyClient]
    simp [hl]
  · rw [release, if_neg (mt hany.1 hl)]
    simp [hl]

theorem partner?_release :
    (b.release x y).partner? z =
      if z = x ∧ b.partner? x = some y then none else b.partner? z := by
  rw [partner?, client?_release]
  split
  · simp
  · rw [partner?]

theorem partner?_parted :
    (b.parted x y).partner? z =
      if z = x ∧ b.partner? x = some y ∨ z = y ∧ b.partner? y = some x then none
      else b.partner? z := by
  rw [parted, partner?_release, partner?_release, partner?_release]
  grind

/-- A client who loses their partner is free. -/
theorem isFree_of_release (hz : b.partner? z ≠ none) (hnone : (b.release x y).partner? z = none) :
    ∃ c, (b.release x y).client? z = some c ∧ c.isFree := by
  rw [partner?_release] at hnone
  by_cases hl : z = x ∧ b.partner? x = some y
  · obtain ⟨c, hc, -⟩ := partner?_eq_some.1 hl.2
    rw [client?_release, if_pos hl, hc]
    exact ⟨_, rfl, rfl⟩
  · rw [if_neg hl] at hnone
    exact absurd hnone hz

theorem isFree_of_parted (hz : b.partner? z ≠ none) (hnone : (b.parted x y).partner? z = none) :
    ∃ c, (b.parted x y).client? z = some c ∧ c.isFree := by
  by_cases hfirst : (b.release x y).partner? z = none
  · have hkept : ¬(z = y ∧ (b.release x y).partner? y = some x) := by
      rintro ⟨rfl, hy⟩
      rw [hfirst] at hy
      cases hy
    obtain ⟨c, hc, hfree⟩ := isFree_of_release hz hfirst
    refine ⟨c, ?_, hfree⟩
    rw [parted, client?_release, if_neg hkept, hc]
  · exact isFree_of_release hfirst hnone

/-! Their gender. -/

theorem gender?_of_clients (h : b'.clients = b.clients) : b'.gender? x = b.gender? x := by
  rw [gender?, gender?, client?_of_clients h]

theorem gender?_of_client? (hc : b.client? x = some c) : b.gender? x = some c.profile.gender := by
  rw [gender?, hc, Option.map_some]

theorem gender?_modifyClient_of_same (hf : ∀ c, (f c).id = c.id := by intro; rfl)
    (hg : ∀ c, (f c).profile.gender = c.profile.gender := by intro; rfl) :
    (b.modifyClient id f).gender? x = b.gender? x := by
  rw [gender?, client?_modifyClient hf]
  by_cases hx : x = id
  · rw [if_pos hx, hx, Option.map_map, gender?]
    exact congrArg (Option.map · _) (funext hg)
  · rw [if_neg hx, gender?]

theorem gender?_withProfile {p : Profile} (hc : b.client? id = some c) :
    (b.withProfile id p).gender? x = if x = id then some p.gender else b.gender? x := by
  rw [gender?, withProfile, client?_modifyClient, hc]
  by_cases hx : x = id
  · rw [if_pos hx, if_pos hx]
    rfl
  · rw [if_neg hx, if_neg hx, gender?]

theorem gender?_release : (b.release x y).gender? z = b.gender? z := by
  rw [release]
  split
  · exact gender?_modifyClient_of_same
  · rfl

theorem gender?_parted : (b.parted x y).gender? z = b.gender? z := by
  rw [parted, gender?_release, gender?_release]

/-! The live pairings of two clients. -/

theorem pairings_release : (b.release x y).pairings = b.pairings := by
  rw [release]
  split <;> rfl

theorem pairings_parted : (b.parted x y).pairings = b.pairings := by
  rw [parted, pairings_release, pairings_release]

theorem liveCount_parted : (b.parted x y).liveCount = b.liveCount := by
  funext man woman
  rw [liveCount, pairings_parted, liveCount]

variable {man woman : Int} {p : Pairing}

theorem liveCount_withPairing {p : NewPairing} :
    (b.withPairing p).liveCount man woman =
      b.liveCount man woman + if p.man = man ∧ p.woman = woman then 1 else 0 := by
  rw [liveCount, withPairing, Table.add, List.countP_append, List.countP_singleton, liveCount]
  congr 2
  simp [Pairing.isLiveFor, NewPairing.at, Stage.isLive]

/-- A pairing that counts as before it is moved, or does not count for these two at all. -/
theorem liveCount_withStage {stage : Stage} (hb : b.pairings.Sound) (hp : b.pairing? id = some p)
    (hsame : ({ p with stage } : Pairing).isLiveFor man woman = p.isLiveFor man woman) :
    (b.withStage id stage).liveCount man woman = b.liveCount man woman := by
  rw [liveCount, withStage, Table.modify, List.countP_map, liveCount]
  refine List.countP_congr fun q hq => ?_
  by_cases hid : Numbered.id q = id
  · obtain rfl := hb.eq_of_find? hp hq hid
    simp [hid, hsame]
  · simp [hid]

theorem liveCount_withoutPairing (hb : b.pairings.Sound) (hp : b.pairing? id = some p)
    (hdead : p.isLiveFor man woman = false) :
    (b.withoutPairing id).liveCount man woman = b.liveCount man woman := by
  rw [liveCount, withoutPairing, Table.erase, List.countP_filter, liveCount]
  refine List.countP_congr fun q hq => ?_
  by_cases hid : Numbered.id q = id
  · obtain rfl := hb.eq_of_find? hp hq hid
    simp [hdead]
  · simp [hid]

theorem liveCount_eq_zero :
    b.liveCount man woman = 0 ↔ ∀ q ∈ b.pairings.rows, q.isLiveFor man woman = false := by
  simp [liveCount, List.countP_eq_zero]

end Books

end Matchmaking
