import Matchmaking.Proofs.Deeds
import Mathlib.Logic.Equiv.Basic

/-! Calls on disjoint pairs of clients do not interfere. Each is planned the same before and after
the other, and their deeds can be carried out in either order: only the numbers of what they add
tell which came first. -/
namespace Matchmaking

namespace Table

section
variable {α : Type} {t : Table α} {i : Int}

def swapNext (t : Table α) : Equiv.Perm Int := .swap t.next (t.next + 1)

@[simp] theorem swapNext_next : t.swapNext t.next = t.next + 1 := Equiv.swap_apply_left _ _

@[simp] theorem swapNext_next_succ : t.swapNext (t.next + 1) = t.next :=
  Equiv.swap_apply_right _ _

theorem swapNext_swapNext : t.swapNext (t.swapNext i) = i := Equiv.swap_apply_self _ _ _

theorem swapNext_of_le (hi : i ≤ t.last) : t.swapNext i = i := by
  have hnext : t.next = t.last + 1 := rfl
  exact Equiv.swap_apply_of_ne_of_ne (by omega) (by omega)

end

/-! Writes to different rows of a table. -/

variable {α : Type} [Numbered α] {t : Table α} {i j : Int} {f g : α → α} {row : Int → α}

theorem modify_add (hi : Numbered.id (row t.next) ≠ i) :
    (t.add row).modify i f = (t.modify i f).add row := by
  have hnext : Numbered.id (row (t.last + 1)) ≠ i := hi
  simp [add, modify, next, hnext]

theorem erase_add (hi : Numbered.id (row t.next) ≠ i) :
    (t.add row).erase i = (t.erase i).add row := by
  have hnext : Numbered.id (row (t.last + 1)) ≠ i := hi
  simp [add, erase, next, hnext]

theorem modify_modify (hij : i ≠ j) (hf : ∀ a, Numbered.id (f a) = Numbered.id a)
    (hg : ∀ a, Numbered.id (g a) = Numbered.id a) :
    (t.modify i f).modify j g = (t.modify j g).modify i f := by
  simp only [modify, List.map_map]
  congr 2
  funext a
  by_cases hi : Numbered.id a = i
  · simp [hi, hf, hij]
  · by_cases hj : Numbered.id a = j <;> simp [hi, hj, hg, hij.symm]

theorem erase_modify (hf : ∀ a, Numbered.id (f a) = Numbered.id a) :
    (t.modify i f).erase j = (t.erase j).modify i f := by
  simp only [modify, erase, List.filter_map]
  congr 3
  funext a
  by_cases hi : Numbered.id a = i <;> simp [hi, hf]

theorem erase_erase : (t.erase i).erase j = (t.erase j).erase i := by
  simp only [erase, List.filter_filter, Bool.and_comm]

end Table

/-! The clients whom a deed is about, and what it leaves as it is. -/

namespace Deed
variable {b : Books} {d : Deed} {c : Client} {x y : Int}

def Names (d : Deed) (x : Int) : Prop := x = d.man ∨ x = d.woman

def Fits (b : Books) : Deed → Prop
  | .join p => (b.client? p.man).any Client.isFree ∧ (b.client? p.woman).any Client.isFree
  | .move p _ _ _ | .strike p => b.pairing? p.id = some p

theorem id_wed : (c.wed x y).id = c.id := by
  rw [Client.wed]
  split <;> rfl

theorem id_release : (c.release x y).id = c.id := by
  rw [Client.release]
  split <;> rfl

theorem id_onClient : (d.onClient c).id = c.id := by
  cases d with
  | join p => exact id_wed.trans id_wed
  | move p stage operator reason =>
    rw [onClient]
    split
    · exact id_release.trans id_release
    · rfl
  | strike p => exact id_release.trans id_release

theorem wed_of_ne (hx : c.id ≠ x) : c.wed x y = c := if_neg hx

theorem release_of_ne (hx : c.id ≠ x) : c.release x y = c := if_neg fun h => hx h.1

theorem onClient_of_not_names (hc : ¬d.Names c.id) : d.onClient c = c := by
  cases d with
  | join p =>
    obtain ⟨hman, hwoman⟩ : c.id ≠ p.man ∧ c.id ≠ p.woman := not_or.1 hc
    rw [onClient, wed_of_ne hman, wed_of_ne hwoman]
  | move p stage operator reason =>
    obtain ⟨hman, hwoman⟩ : c.id ≠ p.man ∧ c.id ≠ p.woman := not_or.1 hc
    rw [onClient, release_of_ne hman, release_of_ne hwoman, ite_self]
  | strike p =>
    obtain ⟨hman, hwoman⟩ : c.id ≠ p.man ∧ c.id ≠ p.woman := not_or.1 hc
    rw [onClient, release_of_ne hman, release_of_ne hwoman]

theorem partner_release (hy : x ≠ y) {z : Int} :
    (c.release z y).partner = some x ↔ c.partner = some x := by
  rw [Client.release]
  split
  · rename_i h
    rw [h.2]
    simpa using hy.symm
  · rfl

/-- Nobody gets or loses a client as partner whom the deed is not about. -/
theorem partner_onClient (hd : d.Fits b) (hb : b.clients.Sound) (hc : c ∈ b.clients.rows)
    (hx : ¬d.Names x) : (d.onClient c).partner = some x ↔ c.partner = some x := by
  cases d with
  | join p =>
    obtain ⟨hman, hwoman⟩ : x ≠ p.man ∧ x ≠ p.woman := not_or.1 hx
    by_cases hnamed : (join p).Names c.id
    · -- whoever is matched was free, and now has the other
      have hfree : c.isFree := by
        have hany : (b.client? c.id).any Client.isFree := by
          obtain hid | hid := hnamed
          · rw [hid]
            exact hd.1
          · rw [hid]
            exact hd.2
        rwa [show b.client? c.id = some c from hb.find?_of_mem hc, Option.any_some] at hany
      have hafter : ((join p).onClient c).partner = some p.man ∨
          ((join p).onClient c).partner = some p.woman := by
        rw [onClient]
        by_cases hid : (c.wed p.man p.woman).id = p.woman
        · exact .inl (by rw [Client.wed, if_pos hid])
        · rw [wed_of_ne hid]
          rw [id_wed] at hid
          have hman : c.id = p.man := hnamed.resolve_right hid
          exact .inr (by rw [Client.wed, if_pos hman])
      rw [(Client.isFree_iff.1 hfree).2]
      obtain hpartner | hpartner := hafter
      · simpa [hpartner] using hman.symm
      · simpa [hpartner] using hwoman.symm
    · rw [onClient_of_not_names hnamed]
  | move p stage operator reason =>
    obtain ⟨hman, hwoman⟩ : x ≠ p.man ∧ x ≠ p.woman := not_or.1 hx
    rw [onClient]
    split
    · exact (partner_release hman).trans (partner_release hwoman)
    · rfl
  | strike p =>
    obtain ⟨hman, hwoman⟩ : x ≠ p.man ∧ x ≠ p.woman := not_or.1 hx
    exact (partner_release hman).trans (partner_release hwoman)

theorem client?_carryOut (hx : ¬d.Names x) : (d.carryOut b).client? x = b.client? x := by
  have hmap : (d.carryOut b).client? x = (b.client? x).map d.onClient :=
    Table.find?_map_rows fun _ => id_onClient
  rw [hmap]
  cases hfind : b.client? x with
  | none => rfl
  | some c =>
    obtain rfl : c.id = x := Table.id_of_find? hfind
    rw [Option.map_some, onClient_of_not_names hx]

theorem isClaimed_carryOut (hd : d.Fits b) (hb : b.clients.Sound) (hx : ¬d.Names x) :
    (d.carryOut b).isClaimed x = b.isClaimed x :=
  Books.isClaimed_mapClients fun _ hc => partner_onClient hd hb hc hx

theorem liveCount_carryOut (hd : d.Fits b) (hb : b.pairings.Sound) (hx : ¬d.Names x) (y : Int) :
    (d.carryOut b).liveCount x y = b.liveCount x y := by
  cases d with
  | join p =>
    have hman : p.man ≠ x := fun h => hx (.inl h.symm)
    have hcount : ((join p).carryOut b).liveCount x y = (b.withPairing p).liveCount x y := rfl
    rw [hcount, Books.liveCount_withPairing, if_neg fun h => hman h.1, Nat.add_zero]
  | move p stage operator reason =>
    have hman : (p.man == x) = false := beq_false_of_ne fun h => hx (.inl h.symm)
    exact Books.liveCount_withStage hb hd (by simp [Pairing.isLiveFor, hman])
  | strike p =>
    have hman : p.man ≠ x := fun h => hx (.inl h.symm)
    exact Books.liveCount_withoutPairing hb hd (by simp [Pairing.isLiveFor, hman])

theorem pairing?_carryOut {q : Pairing} {id : Int} (hd : d.Fits b) (hq : b.pairing? id = some q)
    (hx : ¬d.Names q.man) : (d.carryOut b).pairing? id = some q := by
  -- a pairing of somebody else has another number
  have hne : ∀ {p : Pairing}, b.pairing? p.id = some p → q.man ≠ p.man → id ≠ p.id := by
    rintro p hp hman rfl
    exact hman (congrArg Pairing.man (Option.some.inj (hq.symm.trans hp)))
  cases d with
  | join p =>
    have hadd : ((join p).carryOut b).pairing? id = (b.pairings.add p.at).find? id := rfl
    rw [hadd, Table.find?_add_eq, show b.pairings.find? id = some q from hq, Option.some_or]
  | move p stage operator reason =>
    have hman : q.man ≠ p.man := fun h => hx (.inl h)
    have hmodify : ((move p stage operator reason).carryOut b).pairing? id =
        (b.pairings.modify p.id fun q => { q with stage }).find? id := rfl
    rw [hmodify]
    refine (Table.find?_modify_of_ne ?_ (hne hd hman)).trans hq
    exact fun _ => rfl
  | strike p =>
    have hman : q.man ≠ p.man := fun h => hx (.inl h)
    exact (Table.find?_erase_of_ne (hne hd hman)).trans hq

end Deed

/-! A call is planned on its own pair alone. -/

def Call.IsFor (b : Books) (x y : Int) : Call → Prop
  | .arrange x' y' _ _ => x' = x ∧ y' = y
  | .advance id _ _ _ _ | .breakUp id _ _ | .strike id =>
    ∃ p, b.pairing? id = some p ∧ p.man = x ∧ p.woman = y

namespace Call
variable {b b' : Books} {c : Call} {d : Deed} {x y : Int} {today : Date}

theorem propose_congr {admin remark : String} (hx : b'.client? x = b.client? x)
    (hy : b'.client? y = b.client? y) :
    Courtship.propose today x y admin remark b' = Courtship.propose today x y admin remark b := by
  simp only [Courtship.propose, Books.fetchClient, hx, hy]

theorem planMove_congr {id : Int} {expected next : Stage} {operator reason : String}
    (hp : b'.pairing? id = b.pairing? id) :
    b'.planMove id expected next operator reason = b.planMove id expected next operator reason := by
  rw [Books.planMove, Books.planMove, hp]

/-- A call that goes through does what fits the books. -/
theorem fits_of_plan (hp : c.plan today b = .ok d) : d.Fits b := by
  have hfits : ∀ {id p}, b.pairing? id = some p → b.pairing? p.id = some p := by
    intro id p hp
    rw [show p.id = id from Table.id_of_find? hp, hp]
  have hmove : ∀ {id expected next operator reason},
      b.planMove id expected next operator reason = .ok d → d.Fits b := by
    intro id expected next operator reason hp
    obtain ⟨p, hfind, -, -, rfl⟩ := Books.planMove_ok hp
    exact hfits hfind
  cases c with
  | arrange x y admin remark =>
    rw [plan] at hp
    split at hp
    · cases hp
    · rename_i p hpropose
      obtain ⟨-, -, -, rfl⟩ := Books.planJoin_ok hp
      obtain ⟨man, woman, hman, hwoman, -, -, hmf, hwf⟩ := Courtship.parties_of_propose hpropose
      rw [Deed.Fits, hman, hwoman]
      exact ⟨hmf, hwf⟩
  | advance id expected next operator reason => exact hmove hp
  | breakUp id operator reason =>
    rw [plan] at hp
    split at hp
    · cases hp
    · exact hmove hp
  | strike id =>
    rw [plan] at hp
    split at hp
    · cases hp
    · rename_i p hfind
      cases hp
      exact hfits hfind

/-- What it does is about the two whom the call is for. -/
theorem names_of_plan (hc : c.IsFor b x y) (hp : c.plan today b = .ok d) {z : Int}
    (hz : d.Names z) : z = x ∨ z = y := by
  have hmove : ∀ {id expected next operator reason p}, b.pairing? id = some p →
      b.planMove id expected next operator reason = .ok d → z = p.man ∨ z = p.woman := by
    intro id expected next operator reason p hfind hp
    obtain ⟨q, hq, -, -, rfl⟩ := Books.planMove_ok hp
    obtain rfl := Option.some.inj (hfind.symm.trans hq)
    exact hz
  cases c with
  | arrange x' y' admin remark =>
    obtain ⟨rfl, rfl⟩ := hc
    rw [plan] at hp
    split at hp
    · cases hp
    · rename_i p hpropose
      obtain ⟨-, -, -, rfl⟩ := Books.planJoin_ok hp
      have hz : z = p.man ∨ z = p.woman := hz
      obtain ⟨hman, hwoman⟩ | ⟨hman, hwoman⟩ := Courtship.names_of_propose hpropose
      · rwa [hman, hwoman] at hz
      · rw [hman, hwoman] at hz
        exact hz.symm
  | advance id expected next operator reason =>
    obtain ⟨p, hfind, rfl, rfl⟩ := hc
    exact hmove hfind hp
  | breakUp id operator reason =>
    obtain ⟨p, hfind, rfl, rfl⟩ := hc
    rw [plan, hfind] at hp
    exact hmove hfind hp
  | strike id =>
    obtain ⟨p, hfind, rfl, rfl⟩ := hc
    rw [plan, hfind] at hp
    cases hp
    exact hz

theorem plan_carryOut (hd : d.Fits b) (hb : b.Intact) (hc : c.IsFor b x y) (hx : ¬d.Names x)
    (hy : ¬d.Names y) : c.plan today (d.carryOut b) = c.plan today b := by
  cases c with
  | arrange x' y' admin remark =>
    obtain ⟨rfl, rfl⟩ := hc
    rw [plan, plan, propose_congr (Deed.client?_carryOut hx) (Deed.client?_carryOut hy)]
    cases hp : Courtship.propose today x' y' admin remark b with
    | error e => rfl
    | ok p =>
      obtain ⟨hman, hwoman⟩ : ¬d.Names p.man ∧ ¬d.Names p.woman := by
        obtain ⟨hman, hwoman⟩ | ⟨hman, hwoman⟩ := Courtship.names_of_propose hp
        · rw [hman, hwoman]
          exact ⟨hx, hy⟩
        · rw [hman, hwoman]
          exact ⟨hy, hx⟩
      dsimp only
      rw [Books.planJoin, Books.planJoin, Deed.isClaimed_carryOut hd hb.clients.sound hman,
        Deed.isClaimed_carryOut hd hb.clients.sound hwoman,
        Deed.liveCount_carryOut hd hb.pairings.sound hman]
  | advance id expected next operator reason =>
    obtain ⟨p, hp, rfl, rfl⟩ := hc
    exact planMove_congr ((Deed.pairing?_carryOut hd hp hx).trans hp.symm)
  | breakUp id operator reason =>
    obtain ⟨p, hp, rfl, rfl⟩ := hc
    have hp' := Deed.pairing?_carryOut hd hp hx
    rw [plan, plan, hp, hp']
    exact planMove_congr (hp'.trans hp.symm)
  | strike id =>
    obtain ⟨p, hp, rfl, rfl⟩ := hc
    rw [plan, plan, hp, Deed.pairing?_carryOut hd hp hx]

end Call

/-! Books that differ in the numbers given out last. -/

section
variable (σ τ : Equiv.Perm Int)

def Pairing.renumber (p : Pairing) : Pairing := { p with id := σ p.id }

def Move.renumber (m : Move) : Move := { m with id := τ m.id, pairing := σ m.pairing }

def Reply.renumber : Reply → Reply
  | .book (.pairing p) => .book (.pairing (p.renumber σ))
  | reply => reply

/-- The same clients and leases, and the same pairings with the same trails under other numbers. -/
structure Books.Alike (b b' : Books) : Prop where
  clients : b'.clients = b.clients
  leases : b'.leases = b.leases
  pairings : ∀ id, b'.pairing? (σ id) = (b.pairing? id).map (Pairing.renumber σ)
  trails : ∀ id, b'.movesOf (σ id) = (b.movesOf id).map (Move.renumber σ τ)
  lastPairing : b'.pairings.last = b.pairings.last
  lastMove : b'.moves.last = b.moves.last

end

theorem Reply.renumber_refl (reply : Reply) : reply.renumber (.refl Int) = reply := by
  cases reply with
  | book r => cases r <;> rfl
  | _ => rfl

namespace Books
variable {b : Books} {σ τ : Equiv.Perm Int} {id : Int}

theorem alike_refl : b.Alike (.refl Int) (.refl Int) b where
  clients := rfl
  leases := rfl
  pairings id := (congrFun Option.map_id (b.pairing? id)).symm
  trails id := (List.map_id (b.movesOf id)).symm
  lastPairing := rfl
  lastMove := rfl

/-- A trail with numbers given out before is not renumbered. -/
theorem map_renumber_movesOf (hb : b.Intact) (hσ : ∀ i ≤ b.pairings.last, σ i = i)
    (hτ : ∀ i ≤ b.moves.last, τ i = i) : (b.movesOf id).map (Move.renumber σ τ) = b.movesOf id := by
  have hsame : ∀ m ∈ b.movesOf id, Move.renumber σ τ m = m := by
    intro m hm
    have hrow : m ∈ b.moves.rows := (List.mem_filter.1 hm).1
    have hpairing : m.pairing ≤ b.pairings.last :=
      hb.pairings.sound.le_last_of_has (hb.pairings.there m hrow)
    have hid : m.id ≤ b.moves.last := hb.pairings.soundMoves.le_last m hrow
    rw [Move.renumber, hσ _ hpairing, hτ _ hid]
  rw [List.map_congr_left hsame, List.map_id']

end Books

namespace Deed
variable {b : Books} {c d : Deed} {p q : Pairing}

theorem onClient_comm (h : ∀ x, c.Names x → ¬d.Names x) (e : Client) :
    d.onClient (c.onClient e) = c.onClient (d.onClient e) := by
  by_cases hc : c.Names e.id
  · have hd : ¬d.Names e.id := h _ hc
    have hd' : ¬d.Names (c.onClient e).id := by rwa [id_onClient]
    rw [onClient_of_not_names hd, onClient_of_not_names hd']
  · have hc' : ¬c.Names (d.onClient e).id := by rwa [id_onClient]
    rw [onClient_of_not_names hc, onClient_of_not_names hc']

theorem clients_comm (h : ∀ x, c.Names x → ¬d.Names x) :
    (d.carryOut (c.carryOut b)).clients = (c.carryOut (d.carryOut b)).clients := by
  have hrows : (b.clients.rows.map c.onClient).map d.onClient =
      (b.clients.rows.map d.onClient).map c.onClient := by
    rw [List.map_map, List.map_map]
    exact congrArg (List.map · b.clients.rows) (funext (onClient_comm h))
  exact congrArg (Table.mk · b.clients.last) hrows

theorem id_ne (hp : b.pairing? p.id = some p) (hq : b.pairing? q.id = some q)
    (hne : p.man ≠ q.man) : p.id ≠ q.id := by
  intro heq
  rw [heq, hq] at hp
  cases hp
  exact hne rfl

theorem next_ne (hb : b.Intact) (hp : b.pairing? p.id = some p) : b.pairings.next ≠ p.id := by
  intro heq
  have hnone : b.pairing? b.pairings.next = none := hb.pairings.sound.find?_next
  rw [heq, hp] at hnone
  cases hnone

def isJoin : Deed → Bool
  | .join _ => true
  | _ => false

def isMove : Deed → Bool
  | .move _ _ _ _ => true
  | _ => false

/-- Deeds on different pairings write different rows, unless both add one. -/
theorem onPairings_comm (hb : b.Intact) (hc : c.Fits b) (hd : d.Fits b)
    (h : ∀ x, c.Names x → ¬d.Names x) (hjoin : (c.isJoin && d.isJoin) = false) :
    d.onPairings (c.onPairings b.pairings) = c.onPairings (d.onPairings b.pairings) := by
  have hman : c.man ≠ d.man := fun heq => h c.man (.inl rfl) (.inl heq)
  cases c with
  | join p =>
    cases d with
    | join q => cases hjoin
    | move q stage operator reason => exact Table.modify_add (next_ne hb hd)
    | strike q => exact Table.erase_add (next_ne hb hd)
  | move p stage operator reason =>
    cases d with
    | join q => exact (Table.modify_add (next_ne hb hc)).symm
    | move q stage' operator' reason' =>
      exact Table.modify_modify (id_ne hc hd hman) (fun _ => rfl) fun _ => rfl
    | strike q => exact Table.erase_modify fun _ => rfl
  | strike p =>
    cases d with
    | join q => exact (Table.erase_add (next_ne hb hc)).symm
    | move q stage operator reason =>
      have hcomm := Table.erase_modify (t := b.pairings) (i := q.id) (j := p.id)
        (f := fun r => { r with stage }) fun _ => rfl
      exact hcomm.symm
    | strike q => exact Table.erase_erase

/-- Deeds on different pairings write different trails, and only two moves tell their order. -/
theorem onMoves_comm (hc : c.Fits b) (hd : d.Fits b) (h : ∀ x, c.Names x → ¬d.Names x)
    (hmove : (c.isMove && d.isMove) = false) :
    d.onMoves (c.onMoves b.moves) = c.onMoves (d.onMoves b.moves) := by
  have hman : c.man ≠ d.man := fun heq => h c.man (.inl rfl) (.inl heq)
  cases c with
  | join p => rfl
  | move p stage operator reason =>
    cases d with
    | join q => rfl
    | move q stage' operator' reason' => cases hmove
    | strike q =>
      have hne := id_ne hc hd hman
      simp [onMoves, Table.add, Table.next, hne]
  | strike p =>
    cases d with
    | join q => rfl
    | move q stage operator reason =>
      have hne := id_ne hc hd hman
      simp [onMoves, Table.add, Table.next, hne.symm]
    | strike q => simp [onMoves, List.filter_filter, Bool.and_comm]

theorem pairing?_join_join (hb : b.pairings.Sound) (p q : NewPairing) (id : Int) :
    ((join q).carryOut ((join p).carryOut b)).pairing? id =
      if id = b.pairings.next + 1 then some (q.at (b.pairings.next + 1))
      else if id = b.pairings.next then some (p.at b.pairings.next) else b.pairing? id := by
  have hfirst : (b.pairings.add p.at).Sound := hb.add rfl
  have hadded : ((join q).carryOut ((join p).carryOut b)).pairing? id =
      ((b.pairings.add p.at).add q.at).find? id := rfl
  rw [hadded, hfirst.find?_add rfl, hb.find?_add rfl]
  rfl

/-- Two matches are entered in either order; each gets the number of the other then. -/
theorem alike_join (hb : b.Intact) {p q : NewPairing}
    (h : ∀ x, (join p).Names x → ¬(join q).Names x) :
    ((join q).carryOut ((join p).carryOut b)).Alike b.pairings.swapNext (.refl Int)
      ((join p).carryOut ((join q).carryOut b)) := by
  have hfixed : ∀ i ≤ b.pairings.last, b.pairings.swapNext i = i := fun _ => Table.swapNext_of_le
  have hne : b.pairings.next ≠ b.pairings.next + 1 := by omega
  refine ⟨(clients_comm h).symm, rfl, fun id => ?_, fun id => ?_, rfl, rfl⟩
  · have hsound := hb.pairings.sound
    rw [pairing?_join_join hsound, pairing?_join_join hsound]
    by_cases hfirst : id = b.pairings.next
    · simp [hfirst, hne, Pairing.renumber, NewPairing.at]
    · by_cases hsecond : id = b.pairings.next + 1
      · simp [hsecond, hne, Pairing.renumber, NewPairing.at]
      · have hsame : b.pairings.swapNext id = id :=
          Equiv.swap_apply_of_ne_of_ne hfirst hsecond
        rw [hsame, if_neg hsecond, if_neg hfirst, if_neg hsecond, if_neg hfirst]
        cases hfind : b.pairing? id with
        | none => rfl
        | some r =>
          have hlast : r.id ≤ b.pairings.last := hsound.le_last r (Table.mem_of_find? hfind)
          rw [Option.map_some, Pairing.renumber, hfixed _ hlast]
  · have hmoves : ∀ (p q : NewPairing) (id : Int),
        ((join q).carryOut ((join p).carryOut b)).movesOf id = b.movesOf id := fun _ _ _ => rfl
    rw [hmoves, hmoves, Books.map_renumber_movesOf hb hfixed fun _ _ => rfl]
    by_cases hlast : id ≤ b.pairings.last
    · rw [hfixed id hlast]
    · -- neither of the two new pairings has a trail
      have hlast' : ¬b.pairings.swapNext id ≤ b.pairings.last := by
        intro hle
        have hsame := hfixed _ hle
        rw [Table.swapNext_swapNext] at hsame
        exact hlast (hsame ▸ hle)
      rw [Books.movesOf_eq_nil hb (Int.not_le.1 hlast),
        Books.movesOf_eq_nil hb (Int.not_le.1 hlast')]

theorem movesOf_move (p : Pairing) (stage : Stage) (operator reason : String) (id : Int) :
    ((move p stage operator reason).carryOut b).movesOf id =
      b.movesOf id ++ if p.id = id then
        [⟨b.moves.next, p.id, p.stage, stage, operator, reason⟩] else [] := by
  have hrows : ((move p stage operator reason).carryOut b).moves.rows =
      b.moves.rows ++ [⟨b.moves.next, p.id, p.stage, stage, operator, reason⟩] := rfl
  rw [Books.movesOf, hrows, List.filter_append, ← Books.movesOf]
  by_cases hid : p.id = id <;> simp [hid]

/-- Two moves are made in either order; each is noted under the number of the other then. -/
theorem alike_move (hb : b.Intact) {stage stage' : Stage}
    {operator reason operator' reason' : String}
    (hp : (move p stage operator reason).Fits b) (hq : (move q stage' operator' reason').Fits b)
    (h : ∀ x, (move p stage operator reason).Names x → ¬(move q stage' operator' reason').Names x) :
    ((move q stage' operator' reason').carryOut ((move p stage operator reason).carryOut b)).Alike
      (.refl Int) b.moves.swapNext
      ((move p stage operator reason).carryOut
        ((move q stage' operator' reason').carryOut b)) := by
  have hfixed : ∀ i ≤ b.moves.last, b.moves.swapNext i = i := fun _ => Table.swapNext_of_le
  have hne : p.id ≠ q.id := id_ne hp hq fun heq => h p.man (.inl rfl) (.inl heq)
  have hpairings := onPairings_comm hb hp hq h rfl
  refine ⟨(clients_comm h).symm, rfl, fun id => ?_, fun id => ?_, rfl, rfl⟩
  · have hsame : ((move p stage operator reason).carryOut
        ((move q stage' operator' reason').carryOut b)).pairing? id =
        ((move q stage' operator' reason').carryOut
          ((move p stage operator reason).carryOut b)).pairing? id :=
      congrArg (Table.find? · id) hpairings.symm
    exact hsame.trans (congrFun Option.map_id _).symm
  · have hnext : ∀ (p : Pairing) (stage : Stage) (operator reason : String),
        ((move p stage operator reason).carryOut b).moves.next = b.moves.next + 1 :=
      fun _ _ _ _ => rfl
    rw [movesOf_move, movesOf_move, movesOf_move, movesOf_move, hnext, hnext, List.map_append,
      List.map_append, Books.map_renumber_movesOf hb (fun _ _ => rfl) hfixed, Equiv.refl_apply]
    by_cases hpid : p.id = id
    · have hqid : q.id ≠ id := fun hqid => hne (hpid.trans hqid.symm)
      simp [hpid, hqid, Move.renumber]
    · by_cases hqid : q.id = id
      · simp [hpid, hqid, Move.renumber]
      · simp [hpid, hqid]

/-- The same deeds in either order, where neither pairings nor moves tell the order. -/
theorem carryOut_comm (h : ∀ x, c.Names x → ¬d.Names x)
    (hpairings : d.onPairings (c.onPairings b.pairings) = c.onPairings (d.onPairings b.pairings))
    (hmoves : d.onMoves (c.onMoves b.moves) = c.onMoves (d.onMoves b.moves)) :
    d.carryOut (c.carryOut b) = c.carryOut (d.carryOut b) := by
  have hclients : (d.carryOut (c.carryOut b)).clients = (c.carryOut (d.carryOut b)).clients :=
    clients_comm h
  calc d.carryOut (c.carryOut b)
    _ = ⟨(d.carryOut (c.carryOut b)).clients, d.onPairings (c.onPairings b.pairings),
          d.onMoves (c.onMoves b.moves), b.leases⟩ := rfl
    _ = ⟨(c.carryOut (d.carryOut b)).clients, c.onPairings (d.onPairings b.pairings),
          c.onMoves (d.onMoves b.moves), b.leases⟩ := by rw [hclients, hpairings, hmoves]
    _ = c.carryOut (d.carryOut b) := rfl

/-- Only matches are answered with a new number, and only matches take one. -/
theorem reply_carryOut (hjoin : (c.isJoin && d.isJoin) = false) :
    c.reply (d.carryOut b) = c.reply b := by
  cases c with
  | join p =>
    cases d with
    | join q => cases hjoin
    | _ => rfl
  | _ => rfl

/-- The deeds of two calls in either order, with what is replied to each. -/
theorem exchange (hb : b.Intact) (hc : c.Fits b) (hd : d.Fits b)
    (h : ∀ x, c.Names x → ¬d.Names x) :
    ∃ σ τ : Equiv.Perm Int, (∀ i ≤ b.pairings.last, σ i = i) ∧ (∀ i ≤ b.moves.last, τ i = i) ∧
      c.reply (d.carryOut b) = (c.reply b).renumber σ ∧
      d.reply b = (d.reply (c.carryOut b)).renumber σ ∧
      (d.carryOut (c.carryOut b)).Alike σ τ (c.carryOut (d.carryOut b)) := by
  cases hjoin : c.isJoin && d.isJoin with
  | true =>
    cases c with
    | join p =>
      cases d with
      | join q =>
        refine ⟨b.pairings.swapNext, .refl Int, fun _ => Table.swapNext_of_le, fun _ _ => rfl, ?_,
          ?_, alike_join hb h⟩
        · exact congrArg (fun id => Reply.book (.pairing (p.at id))) Table.swapNext_next.symm
        · exact congrArg (fun id => Reply.book (.pairing (q.at id))) Table.swapNext_next_succ.symm
      | _ => cases hjoin
    | _ => cases hjoin
  | false =>
    have hjoin' : (d.isJoin && c.isJoin) = false := by rw [Bool.and_comm, hjoin]
    have hc' : c.reply (d.carryOut b) = (c.reply b).renumber (.refl Int) :=
      (reply_carryOut hjoin).trans (Reply.renumber_refl _).symm
    have hd' : d.reply b = (d.reply (c.carryOut b)).renumber (.refl Int) :=
      (reply_carryOut hjoin').symm.trans (Reply.renumber_refl _).symm
    cases hmove : c.isMove && d.isMove with
    | true =>
      cases c with
      | move p stage operator reason =>
        cases d with
        | move q stage' operator' reason' =>
          exact ⟨.refl Int, b.moves.swapNext, fun _ _ => rfl, fun _ => Table.swapNext_of_le, hc',
            hd', alike_move hb hc hd h⟩
        | _ => cases hmove
      | _ => cases hmove
    | false =>
      have hsame := carryOut_comm (b := b) h (onPairings_comm hb hc hd h hjoin)
        (onMoves_comm hc hd h hmove)
      refine ⟨.refl Int, .refl Int, fun _ _ => rfl, fun _ _ => rfl, hc', hd', ?_⟩
      rw [hsame]
      exact Books.alike_refl

end Deed

def renumberReply (σ : Equiv.Perm Int) (r : Except Failure Reply) : Except Failure Reply :=
  r.map (Reply.renumber σ)

theorem renumberReply_refl (r : Except Failure Reply) : renumberReply (.refl Int) r = r := by
  cases r with
  | error e => rfl
  | ok reply => exact congrArg Except.ok reply.renumber_refl

theorem Call.isCourtship_request (c : Call) : c.request.isCourtship := by
  cases c <;> rfl

namespace Agency
variable {a : Agency} {m m' : Moment} {c d : Call} {x y z w : Int}

/-- A call is planned the same after another one, on other clients, has been answered. -/
theorem serve_call_after (hh : a.hazards = {}) (hb : a.books.Intact) (hc : c.IsFor a.books x y)
    (hd : d.IsFor a.books z w) (hxz : x ≠ z) (hxw : x ≠ w) (hyz : y ≠ z) (hyw : y ≠ w) :
    (a.serve m' d.request).2.serve m c.request =
      (a.serve m' d.request).2.answer (c.plan m.today a.books) := by
  have hafter : (a.serve m' d.request).2.books.Intact := intact_serve hb
  have hserve := serve_call (m := m') hh hb d
  cases hplan : d.plan m'.today a.books with
  | error e =>
    have hsame : (a.serve m' d.request).2 = a := by
      rw [hserve, hplan]
      rfl
    rw [hsame, serve_call hh hb]
  | ok dd =>
    have hcarried : (a.serve m' d.request).2 = { a with books := dd.carryOut a.books } := by
      rw [hserve, hplan]
      rfl
    have hx : ¬dd.Names x := fun h => (Call.names_of_plan hd hplan h).elim hxz hxw
    have hy : ¬dd.Names y := fun h => (Call.names_of_plan hd hplan h).elim hyz hyw
    have hsame : c.plan m.today (dd.carryOut a.books) = c.plan m.today a.books :=
      Call.plan_carryOut (Call.fits_of_plan hplan) hb hc hx hy
    rw [hcarried] at hafter ⊢
    rw [serve_call (a := { a with books := dd.carryOut a.books }) hh hafter]
    exact congrArg (answer { a with books := dd.carryOut a.books }) hsame

/-- Two calls whose pairs of clients are disjoint, on any books that the storage keeps intact and
with no fault armed, can be made in either order: each is answered the same, and the clients, the
pairings and their trails are the same in the end, but for the numbers given to what they add. -/
theorem disjoint_calls_commute (hf : a.hazards.faults = []) (hb : a.books.Intact)
    (hc : c.IsFor a.books x y) (hd : d.IsFor a.books z w) (hxz : x ≠ z) (hxw : x ≠ w)
    (hyz : y ≠ z) (hyw : y ≠ w) :
    let cd := (a.serve m c.request).2.serve m' d.request
    let dc := (a.serve m' d.request).2.serve m c.request
    ∃ σ τ : Equiv.Perm Int, (∀ i ≤ a.books.pairings.last, σ i = i) ∧
      (∀ i ≤ a.books.moves.last, τ i = i) ∧
      dc.1 = renumberReply σ (a.serve m c.request).1 ∧
      (a.serve m' d.request).1 = renumberReply σ cd.1 ∧
      dc.2.hazards = cd.2.hazards ∧ cd.2.books.Alike σ τ dc.2.books := by
  -- where a call changes nothing, no number is given out in one order that is not in the other
  have hunchanged : ∀ (r r' : Except Failure Reply) (b : Books),
      ∃ σ τ : Equiv.Perm Int, (∀ i ≤ a.books.pairings.last, σ i = i) ∧
        (∀ i ≤ a.books.moves.last, τ i = i) ∧ r = renumberReply σ r ∧ r' = renumberReply σ r' ∧
        a.hazards = a.hazards ∧ b.Alike σ τ b := fun r r' _ =>
    ⟨.refl Int, .refl Int, fun _ _ => rfl, fun _ _ => rfl, (renumberReply_refl r).symm,
      (renumberReply_refl r').symm, rfl, Books.alike_refl⟩
  intro cd dc
  cases hw : a.hazards.foreignWriter with
  | some f =>
    obtain ⟨e, hserve, -⟩ :=
      serve_of_foreignWriter (m := m) (.inl c.isCourtship_request) hw {}
    obtain ⟨e', hserve', -⟩ :=
      serve_of_foreignWriter (m := m') (.inl d.isCourtship_request) hw {}
    have hcd : cd = (.error (.agency e'), a) :=
      (congrArg (·.2.serve m' d.request) hserve).trans hserve'
    have hdc : dc = (.error (.agency e), a) :=
      (congrArg (·.2.serve m c.request) hserve').trans hserve
    rw [hcd, hdc, hserve, hserve']
    exact hunchanged _ _ _
  | none =>
    have hh : a.hazards = {} := by
      rw [show a.hazards = ⟨a.hazards.faults, a.hazards.foreignWriter⟩ from rfl, hf, hw]
    have hdc : dc = (a.serve m' d.request).2.answer (c.plan m.today a.books) :=
      serve_call_after hh hb hc hd hxz hxw hyz hyw
    have hcd : cd = (a.serve m c.request).2.answer (d.plan m'.today a.books) :=
      serve_call_after hh hb hd hc hxz.symm hyz.symm hxw.symm hyw.symm
    rw [hdc, hcd, serve_call hh hb, serve_call hh hb]
    cases hpc : c.plan m.today a.books with
    | error e => cases d.plan m'.today a.books <;> exact hunchanged _ _ _
    | ok dc =>
      cases hpd : d.plan m'.today a.books with
      | error e => exact hunchanged _ _ _
      | ok dd =>
        have hdisjoint : ∀ u, dc.Names u → ¬dd.Names u := by
          intro u hu hu'
          obtain rfl | rfl := Call.names_of_plan hc hpc hu
          · exact (Call.names_of_plan hd hpd hu').elim hxz hxw
          · exact (Call.names_of_plan hd hpd hu').elim hyz hyw
        obtain ⟨σ, τ, hσ, hτ, hreply, hreply', halike⟩ :=
          Deed.exchange hb (Call.fits_of_plan hpc) (Call.fits_of_plan hpd) hdisjoint
        exact ⟨σ, τ, hσ, hτ, congrArg Except.ok hreply, congrArg Except.ok hreply', rfl, halike⟩

end Agency

namespace Sample

def company : List (Moment × Request) :=
  [.book (.register man), .book (.register woman), .book (.register man),
    .book (.register woman)].map (newYear, ·)

end Sample

/-- Either match can be the first one, and both go through. -/
theorem Agency.disjoint_calls_commute_sample :
    let a := ({} : Agency).after Sample.company
    let c : Call := .arrange 1 2 "" ""
    let d : Call := .arrange 4 3 "" ""
    let cd := (a.serve Sample.newYear c.request).2.serve Sample.newYear d.request
    let dc := (a.serve Sample.newYear d.request).2.serve Sample.newYear c.request
    (∃ reply, cd.1 = .ok reply) ∧ (∃ reply, dc.1 = .ok reply) ∧
      ∃ σ τ : Equiv.Perm Int, (∀ i ≤ a.books.pairings.last, σ i = i) ∧
        (∀ i ≤ a.books.moves.last, τ i = i) ∧
        dc.1 = renumberReply σ (a.serve Sample.newYear c.request).1 ∧
        (a.serve Sample.newYear d.request).1 = renumberReply σ cd.1 ∧
        dc.2.hazards = cd.2.hazards ∧ cd.2.books.Alike σ τ dc.2.books := by
  intro a c d cd dc
  have hcd : ∃ reply, cd.1 = .ok reply := ⟨_, rfl⟩
  have hdc : ∃ reply, dc.1 = .ok reply := ⟨_, rfl⟩
  have hb : a.books.Intact := intact_after Books.intact_empty
  have hc : c.IsFor a.books 1 2 := ⟨rfl, rfl⟩
  have hd : d.IsFor a.books 4 3 := ⟨rfl, rfl⟩
  exact ⟨hcd, hdc, disjoint_calls_commute rfl hb hc hd (by decide) (by decide) (by decide)
    (by decide)⟩

end Matchmaking
