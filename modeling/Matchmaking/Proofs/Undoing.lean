import Matchmaking.Proofs.Advancing
import Matchmaking.Proofs.Arranging

/-! A match can be undone. Whatever calls move a new pairing, the books stay those before it but for
the match of the two, one row, its trail and the numbers given out. A break takes back the match,
and a strike all but the numbers. -/
namespace Matchmaking

def Request.isMoveOf (id : Int) : Request → Bool
  | .advance i _ _ _ _ | .breakUp i _ _ => i == id
  | _ => false

namespace Client
variable {p : Pairing} {c : Client}

theorem partedBy_of_free (hc : c.id = p.man ∨ c.id = p.woman → c.isFree) :
    c.partedBy p = c := by
  rw [partedBy, if_neg]
  rintro (⟨hid, hpartner⟩ | ⟨hid, hpartner⟩)
  · rw [(isFree_iff.1 (hc (.inl hid))).2] at hpartner
    cases hpartner
  · rw [(isFree_iff.1 (hc (.inr hid))).2] at hpartner
    cases hpartner

/-- Parting the two takes back their match. -/
theorem partedBy_matchedBy (hc : c.id = p.man ∨ c.id = p.woman → c.isFree) :
    (c.matchedBy p.man p.woman).partedBy p = c := by
  obtain ⟨id, profile, standing, partner, shortlist⟩ := c
  by_cases hman : id = p.man
  · obtain ⟨rfl, rfl⟩ := isFree_iff.1 (hc (.inl hman))
    simp [matchedBy, partedBy, hman]
  · by_cases hwoman : id = p.woman
    · obtain ⟨rfl, rfl⟩ := isFree_iff.1 (hc (.inr hwoman))
      simp [matchedBy, partedBy, hwoman, hwoman ▸ hman]
    · simp [matchedBy, partedBy, hman, hwoman]

end Client

namespace Books

structure IsNew (b : Books) (r : Pairing) : Prop where
  above : b.pairings.last < r.id
  free : ∀ c ∈ b.clients.rows, c.id = r.man ∨ c.id = r.woman → c.isFree

/-- With a new pairing in some stage and its trail. The two are matched until they break up. -/
def courted (b : Books) (r : Pairing) (trail : List Move) (last : Int) : Books where
  clients :=
    if r.stage = .broken then b.clients
    else { b.clients with rows := b.clients.rows.map (Client.matchedBy r.man r.woman) }
  pairings := { rows := b.pairings.rows ++ [r], last := r.id }
  moves := { rows := b.moves.rows ++ trail, last }
  leases := b.leases

variable {b : Books} {r : Pairing} {trail : List Move} {last : Int} {next : Stage}
variable {operator reason : String} {x y : Int} {man woman : Client}

theorem IsNew.ne (hn : b.IsNew r) (hb : b.Intact) : ∀ q ∈ b.pairings.rows, q.id ≠ r.id := by
  intro q hq
  have hle : q.id ≤ b.pairings.last := hb.pairings.sound.le_last q hq
  have habove := hn.above
  omega

theorem IsNew.pairing?_courted (hn : b.IsNew r) (hb : b.Intact) :
    (b.courted r trail last).pairing? r.id = some r := by
  have hrows : b.pairings.rows.find? (·.id == r.id) = none := by simpa using hn.ne hb
  have hfind : (b.courted r trail last).pairing? r.id =
      (b.pairings.rows ++ [r]).find? (·.id == r.id) := rfl
  rw [hfind, List.find?_append, hrows]
  simp

/-- Whether they are still matched or were parted before, once they are parted the clients are as
they were. -/
theorem IsNew.parted_courted (hn : b.IsNew r) :
    let t := (b.courted r trail last).clients
    { t with rows := t.rows.map (Client.partedBy r) } = b.clients := by
  intro t
  have hrows : t.rows.map (Client.partedBy r) = b.clients.rows := by
    by_cases hbroken : r.stage = .broken
    · have ht : t = b.clients := if_pos hbroken
      rw [ht]
      refine (List.map_congr_left fun c hc => ?_).trans (List.map_id _)
      exact Client.partedBy_of_free (hn.free c hc)
    · have ht : t.rows = b.clients.rows.map (Client.matchedBy r.man r.woman) :=
        congrArg Table.rows (if_neg hbroken)
      rw [ht, List.map_map]
      refine (List.map_congr_left fun c hc => ?_).trans (List.map_id _)
      exact Client.partedBy_matchedBy (hn.free c hc)
  have hlast : t.last = b.clients.last := by
    by_cases hbroken : r.stage = .broken <;> simp [t, courted, hbroken]
  rw [hrows, hlast]

/-- A move adds to the trail, and a break takes back the match. -/
theorem IsNew.advanced_courted (hn : b.IsNew r) (hb : b.Intact) (hl : r.stage.leadsTo next) :
    (b.courted r trail last).advanced r next operator reason =
      b.courted { r with stage := next }
        (trail ++ [⟨last + 1, r.id, r.stage, next, operator, reason⟩]) (last + 1) := by
  have hlive : r.stage ≠ .broken := Stage.isLive_iff.1 (Stage.isLive_of_leadsTo hl)
  have hrows : (b.pairings.rows.map fun q => if q.id = r.id then { q with stage := next } else q) =
      b.pairings.rows := by
    refine (List.map_congr_left fun q hq => ?_).trans (List.map_id _)
    exact if_neg (hn.ne hb q hq)
  by_cases hnext : next = .broken
  · subst hnext
    rw [advanced, if_pos rfl, hn.parted_courted]
    simp [courted, hrows]
  · simp [advanced, courted, hlive, hnext, hrows]

/-- A strike takes back all that was written, in whatever stage the pairing is. -/
theorem IsNew.struck_courted (hn : b.IsNew r) (hb : b.Intact)
    (htrail : ∀ m ∈ trail, m.pairing = r.id) :
    (b.courted r trail last).struck r =
      { b with pairings := { b.pairings with last := r.id }, moves := { b.moves with last } } := by
  have hpairings : (b.pairings.rows ++ [r]).filter (·.id != r.id) = b.pairings.rows := by
    simpa [List.filter_append] using hn.ne hb
  have hmoves : (b.moves.rows ++ trail).filter (·.pairing != r.id) = b.moves.rows := by
    have hold : ∀ m ∈ b.moves.rows, m.pairing ≠ r.id := by
      intro m hm
      obtain ⟨q, hq, hid⟩ := Table.has_iff.1 (hb.pairings.there m hm)
      rw [← hid]
      exact hn.ne hb q hq
    have hnone : trail.filter (·.pairing != r.id) = [] := by simpa using htrail
    rw [List.filter_append, hnone, List.append_nil]
    simpa using hold
  rw [struck, hn.parted_courted]
  simp [courted, hpairings, hmoves]

def Follows (b : Books) (r : Pairing) (b' : Books) : Prop :=
  ∃ stage trail last, (∀ m ∈ trail, m.pairing = r.id) ∧ b.moves.last ≤ last ∧
    b' = b.courted { r with stage } trail last

theorem IsNew.withStage (hn : b.IsNew r) (stage : Stage) : b.IsNew { r with stage } :=
  ⟨hn.above, hn.free⟩

theorem Follows.advanced {b' : Books} {p : Pairing} (hn : b.IsNew r) (hb : b.Intact)
    (hf : b.Follows r b') (hp : b'.pairing? r.id = some p) (hl : p.stage.leadsTo next) :
    b.Follows r (b'.advanced p next operator reason) := by
  obtain ⟨stage, trail, last, htrail, hlast, rfl⟩ := hf
  obtain rfl : { r with stage } = p :=
    Option.some.inj (((hn.withStage stage).pairing?_courted hb).symm.trans hp)
  rw [(hn.withStage stage).advanced_courted hb hl]
  refine ⟨next, _, last + 1, fun m hm => ?_, by omega, rfl⟩
  obtain hm | hm := List.mem_append.1 hm
  · exact htrail m hm
  · obtain rfl := List.mem_singleton.1 hm
    rfl

theorem Allows.isFree_of_id {c : Client} (ha : b.Allows x y man woman) (hb : b.Intact)
    (hc : c ∈ b.clients.rows) (hid : c.id = man.id ∨ c.id = woman.id) : c.isFree := by
  obtain hid | hid := hid
  · obtain rfl := hb.clients.sound.eq_of_find? ha.findMan hc hid
    exact ha.manFree
  · obtain rfl := hb.clients.sound.eq_of_find? ha.findWoman hc hid
    exact ha.womanFree

theorem Allows.isNew (ha : b.Allows x y man woman) (hb : b.Intact) (today : Date)
    (admin remark : String) :
    b.IsNew ((Courtship.proposal today man woman admin remark).at b.pairings.next) :=
  ⟨Int.lt_succ _, fun _ hc hid => ha.isFree_of_id hb hc hid⟩

theorem follows_arranged (hr : r.stage = .acquaintance) : b.Follows r (b.arranged r) := by
  obtain ⟨id, man, woman, score, stage, remark, admin⟩ := r
  obtain rfl : stage = .acquaintance := hr
  refine ⟨.acquaintance, [], b.moves.last, by simp, Int.le_refl _, ?_⟩
  simp [arranged, courted]

/-- Two who could be matched can be matched again when their pairing is broken. -/
theorem Allows.courted (ha : b.Allows x y man woman) (hbroken : r.stage = .broken) :
    (b.courted r trail last).Allows x y man woman := by
  have hclients : (b.courted r trail last).clients = b.clients := if_pos hbroken
  have hclaimed : ∀ z, (b.courted r trail last).isClaimed z = b.isClaimed z := by
    intro z
    rw [isClaimed, isClaimed, hclients]
  refine ⟨⟨?_, ?_, ha.male, ha.female, ha.numbers⟩, ha.manFree, ha.womanFree, ?_, ?_, ?_⟩
  · rw [client?_of_clients hclients, ha.findMan]
  · rw [client?_of_clients hclients, ha.findWoman]
  · rw [hclaimed]
    exact ha.womanUnclaimed
  · rw [hclaimed]
    exact ha.manUnclaimed
  · intro q hq
    obtain hq | hq := List.mem_append.1 hq
    · exact ha.unpaired q hq
    · obtain rfl := List.mem_singleton.1 hq
      simp [Pairing.isLiveFor, Stage.isLive, hbroken]

theorem pairing?_arranged {p q : Pairing} {id : Int} (hq : b.pairing? id = some q) :
    (b.arranged p).pairing? id = some q := by
  have hfind : (b.arranged p).pairing? id = (b.pairings.rows ++ [p]).find? (·.id == id) := rfl
  have hrows : b.pairings.rows.find? (·.id == id) = some q := hq
  rw [hfind, List.find?_append, hrows, Option.some_or]

end Books

namespace Agency
variable {a : Agency} {b : Books} {m : Moment} {q : Request} {r : Pairing} {x y : Int}
variable {admin remark : String}

theorem follows_serve (hh : a.hazards = {}) (ha : a.books.Intact) (hn : b.IsNew r) (hb : b.Intact)
    (hf : b.Follows r a.books) (hq : q.isMoveOf r.id) : b.Follows r (a.serve m q).2.books := by
  have hmove : ∀ expected next operator reason,
      b.Follows r (a.serve m (.advance r.id expected next operator reason)).2.books := by
    intro expected next operator reason
    rw [serve_advance hh ha]
    cases hp : a.books.pairing? r.id with
    | none => exact hf
    | some p =>
      dsimp only
      split
      · exact hf
      · rename_i hs
        split
        · exact hf
        · rename_i hl
          rw [← not_not.1 hs] at hl
          exact hf.advanced hn hb hp (by simpa using hl)
  cases q with
  | advance id expected next operator reason =>
    obtain rfl : id = r.id := beq_iff_eq.1 hq
    exact hmove expected next operator reason
  | breakUp id operator reason =>
    obtain rfl : id = r.id := beq_iff_eq.1 hq
    cases hp : a.books.pairing? r.id with
    | none =>
      rw [serve_breakUp_of_none hp]
      exact hf
    | some p =>
      rw [serve_breakUp hp]
      exact hmove p.stage .broken operator reason
  | _ => cases hq

theorem follows_after {cs : List (Moment × Request)} (hh : a.hazards = {}) (ha : a.books.Intact)
    (hn : b.IsNew r) (hb : b.Intact) (hf : b.Follows r a.books)
    (hcs : ∀ c ∈ cs, c.2.isMoveOf r.id) :
    b.Follows r (a.after cs).books ∧ (a.after cs).hazards = {} := by
  induction cs generalizing a with
  | nil => exact ⟨hf, hh⟩
  | cons c cs ih =>
    obtain ⟨m, q⟩ := c
    have hq : q.isMoveOf r.id := hcs (m, q) List.mem_cons_self
    have hhazard : q.isHazard = false := by
      cases q <;> first | rfl | cases hq
    have hserve : (a.serve m q).2.hazards = {} := (hazards_serve hhazard).trans hh
    rw [after_cons]
    exact ih hserve (intact_serve ha) (follows_serve hh ha hn hb hf hq) fun c hc =>
      hcs c (List.mem_cons_of_mem _ hc)

/-- Who has arranged a match was not in another's way, and the two could be matched. -/
theorem allows_of_arranged (hf : a.hazards.faults = []) (hb : a.books.Intact)
    (hr : (a.serve m (.arrange x y admin remark)).1 = .ok (.book (.pairing r))) :
    a.hazards = {} ∧ ∃ man woman, a.books.Allows x y man woman ∧
      r = (Courtship.proposal m.today man woman admin remark).at a.books.pairings.next := by
  have hh : a.hazards = {} := by
    cases hw : a.hazards.foreignWriter with
    | none => rw [show a.hazards = ⟨a.hazards.faults, a.hazards.foreignWriter⟩ from rfl, hf, hw]
    | some f =>
      obtain ⟨e, hserve, -⟩ :=
        serve_of_foreignWriter (m := m) (r := .arrange x y admin remark) (.inl rfl) hw {}
      rw [hserve] at hr
      cases hr
  obtain ⟨e, hforbids⟩ | ⟨man, woman, ha⟩ := a.books.forbids_or_allows x y
  · rw [serve_arrange_of_forbids hh hb hforbids] at hr
    cases hr
  · rw [serve_arrange_of_allows hh hb ha] at hr
    cases hr
    exact ⟨hh, man, woman, ha, rfl⟩

/-- On any books that the storage keeps intact and with no fault armed: once a match is arranged,
and whatever calls, allowed or not, then move its pairing, a break has left the clients as they
were, and the two can be matched again under a higher number while the broken pairing and its trail
stay. In any stage, a strike of the pairing brings back the clients, the pairings and the trails as
they were, and of the books only the numbers given out last are others. -/
theorem undone_of_arranged (hf : a.hazards.faults = []) (hb : a.books.Intact)
    (hr : (a.serve m (.arrange x y admin remark)).1 = .ok (.book (.pairing r)))
    {cs : List (Moment × Request)} (hcs : ∀ c ∈ cs, c.2.isMoveOf r.id) :
    let c := (a.serve m (.arrange x y admin remark)).2.after cs
    ∃ p, c.books.pairing? r.id = some p ∧
      (p.stage = .broken → c.books.clients = a.books.clients ∧
        ∀ m' admin' remark', ∃ r' b', r.id < r'.id ∧
          c.serve m' (.arrange x y admin' remark') =
            (.ok (.book (.pairing r')), { c with books := b' }) ∧
          b'.pairing? r.id = some p ∧ b'.movesOf r.id = c.books.movesOf r.id) ∧
      ∀ m', ∃ last, a.books.moves.last ≤ last ∧ a.books.pairings.last < r.id ∧
        c.serve m' (.strike r.id) = (.ok (.book .done),
          { a with books :=
            { a.books with
              pairings := { a.books.pairings with last := r.id }
              moves := { a.books.moves with last } } }) := by
  intro c
  obtain ⟨hh, man, woman, hallows, hnew⟩ := allows_of_arranged hf hb hr
  have hn : a.books.IsNew r := hnew ▸ hallows.isNew hb m.today admin remark
  have hstart : a.books.Follows r (a.serve m (.arrange x y admin remark)).2.books := by
    rw [serve_arrange_of_allows hh hb hallows, ← hnew]
    exact Books.follows_arranged (hnew ▸ rfl)
  have hc : c.books.Intact := intact_after (intact_serve hb)
  have hafter : a.books.Follows r c.books ∧ c.hazards = {} :=
    follows_after ((hazards_serve rfl).trans hh) (intact_serve hb) hn hb hstart hcs
  obtain ⟨⟨stage, trail, last, htrail, hlast, hbooks⟩, hhc⟩ := hafter
  have hp : c.books.pairing? r.id = some { r with stage } := by
    rw [hbooks]
    exact (hn.withStage stage).pairing?_courted hb
  refine ⟨{ r with stage }, hp, fun hbroken => ⟨?_, fun m' admin' remark' => ?_⟩, fun m' => ?_⟩
  · rw [hbooks]
    exact if_pos hbroken
  · have hagain : c.books.Allows x y man woman := by
      rw [hbooks]
      exact hallows.courted hbroken
    have habove : r.id < c.books.pairings.next := by
      rw [hbooks]
      exact Int.lt_succ r.id
    exact ⟨_, _, habove, serve_arrange_of_allows hhc hc hagain, Books.pairing?_arranged hp, rfl⟩
  · refine ⟨last, hlast, hn.above, ?_⟩
    have hstruck := serve_strike (m := m') hhc hc hp
    rw [hbooks, (hn.withStage stage).struck_courted hb htrail, hhc, ← hh] at hstruck
    exact hstruck

end Agency

namespace Sample

def secondTry : List (Moment × Request) :=
  [.advance 2 .acquaintance .dating "Ann" "a walk", .advance 2 .acquaintance .dating "Ben" "",
    .breakUp 2 "Ann" "no more walks", .advance 2 .dating .matched "Ben" ""].map (newYear, ·)

end Sample

/-- The second pairing of two who had parted before is broken as well: they are as they were, can be
matched a third time, and a strike of it leaves the first one alone. -/
theorem Agency.undone_of_arranged_sample :
    let a := ({} : Agency).after Sample.parted
    let arranged := a.serve Sample.newYear (.arrange 1 2 "" "")
    let c := arranged.2.after Sample.secondTry
    a.hazards.faults = [] ∧ a.books.Intact ∧ (∀ c ∈ Sample.secondTry, c.2.isMoveOf 2) ∧
      ∃ r, arranged.1 = .ok (.book (.pairing r)) ∧ r.id = 2 ∧
        c.books.clients = a.books.clients ∧
        (∃ r', 2 < r'.id ∧
          (c.serve Sample.newYear (.arrange 1 2 "" "")).1 = .ok (.book (.pairing r'))) ∧
        (c.serve Sample.newYear (.strike 2)).2.books.pairings.rows = a.books.pairings.rows ∧
        (c.serve Sample.newYear (.strike 2)).2.books.moves.rows = a.books.moves.rows := by
  intro a arranged c
  have hb : a.books.Intact := intact_after Books.intact_empty
  have hcs : ∀ c ∈ Sample.secondTry, c.2.isMoveOf 2 := by decide
  have harranged : ∃ r, arranged.1 = .ok (.book (.pairing r)) ∧ r.id = 2 := ⟨_, rfl, rfl⟩
  obtain ⟨r, hr, hid⟩ := harranged
  have hbroken : ∃ q ∈ c.books.pairings.rows, c.books.pairing? 2 = some q ∧ q.stage = .broken := by
    decide +kernel
  obtain ⟨q, -, hq, hstage⟩ := hbroken
  have hf : a.hazards.faults = [] := rfl
  have hcs' : ∀ c ∈ Sample.secondTry, c.2.isMoveOf r.id := by rwa [hid]
  obtain ⟨p, hp, hagain, hstrike⟩ := undone_of_arranged hf hb hr hcs'
  simp only [hid] at hp hagain hstrike
  obtain rfl : p = q := Option.some.inj (hp.symm.trans hq)
  obtain ⟨hclients, hmatch⟩ := hagain hstage
  obtain ⟨r', b', habove, hserve, -⟩ := hmatch Sample.newYear "" ""
  obtain ⟨last, -, -, hstruck⟩ := hstrike Sample.newYear
  have hc : (a.serve Sample.newYear (.arrange 1 2 "" "")).2.after Sample.secondTry = c := rfl
  rw [hc] at hclients hserve hstruck
  refine ⟨hf, hb, hcs, r, hr, hid, hclients, ⟨r', habove, ?_⟩, ?_, ?_⟩
  · rw [hserve]
  · rw [hstruck]
  · rw [hstruck]

end Matchmaking
