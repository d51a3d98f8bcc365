import Matchmaking.Proofs.Pass
import Matchmaking.Proofs.Shortlists

/-! What advice consists of, whatever text is kept with the client: the suggestions of their
shortlist that serve or, where there are none, the best of the pool. -/
namespace Matchmaking

namespace Sweep
variable {b : Books} {c d : Client}

theorem mem_suitors : d ∈ suitors b c ↔
    d ∈ b.clients.rows ∧ d.isSingle ∧ d.profile.gender = c.profile.gender.other := by
  simp [suitors]

theorem increasing_suitors (hb : b.clients.Sound) :
    (suitors b c).Pairwise fun x y => x.id < y.id :=
  hb.increasing.filter _

end Sweep

namespace Advice
variable {today : Date} {b : Books} {c : Client} {l : List Suggestion} {n : Nat} {x : Int}
variable {limit poolLimit : UInt64}

def serving (b : Books) (c : Client) (l : List Suggestion) : List Suggestion :=
  l.filter fun s => (Sweep.suitors b c).any (·.id == s.candidate)

def anew (today : Date) (b : Books) (c : Client) (limit poolLimit : UInt64) : List Suggestion :=
  Suggestion.best (judge today) today c (upToLimit poolLimit (Sweep.suitors b c)) limit.toNat

def due (today : Date) (b : Books) (c : Client) (limit poolLimit : UInt64) : Advice :=
  match readShortlist c.shortlist with
  | none => ⟨.computed, anew today b c limit poolLimit⟩
  | some l =>
    if 0 < limit ∧ serving b c l ≠ [] then ⟨.shortlist, (serving b c l).take limit.toNat⟩
    else ⟨.computed, anew today b c limit poolLimit⟩

theorem stillSuits_iff_suitors (hb : b.clients.Sound) :
    stillSuits b c x ↔ ∃ d ∈ Sweep.suitors b c, d.id = x := by
  rw [stillSuits_iff]
  constructor
  · rintro ⟨d, hfind, hsingle, hopposite⟩
    have hgender := (areOpposite_iff _ _ _).1 hopposite
    exact ⟨d, Sweep.mem_suitors.2 ⟨Table.mem_of_find? hfind, hsingle, hgender⟩,
      Table.id_of_find? hfind⟩
  · rintro ⟨d, hd, rfl⟩
    obtain ⟨hrow, hsingle, hgender⟩ := Sweep.mem_suitors.1 hd
    exact ⟨d, hb.find?_of_mem hrow, hsingle, (areOpposite_iff _ _ _).2 hgender⟩

/-- Nobody suits themselves. -/
theorem ne_of_stillSuits (hb : b.clients.Sound) (hc : c ∈ b.clients.rows)
    (hs : stillSuits b c x) : x ≠ c.id := by
  obtain ⟨d, hd, rfl⟩ := (stillSuits_iff_suitors hb).1 hs
  obtain ⟨hrow, -, hgender⟩ := Sweep.mem_suitors.1 hd
  intro hid
  obtain rfl := hb.eq_of_mem hrow hc hid
  cases hg : d.profile.gender <;> rw [hg] at hgender <;> cases hgender

theorem gather_eq_take_serving (hb : b.clients.Sound) :
    gather b c n l = (serving b c l).take n := by
  have hserving : (l.filter fun s => stillSuits b c s.candidate) = serving b c l := by
    refine List.filter_congr fun s _ => Bool.eq_iff_iff.2 ?_
    rw [stillSuits_iff_suitors hb]
    simp
  rw [gather_eq, hserving]

theorem give_eq_due (hb : b.clients.Sound) (hc : c ∈ b.clients.rows) :
    give today b c.id limit poolLimit = .ok (due today b c limit poolLimit) := by
  have hfetch : (b.fetchClient c.id).mapError AgencyError.ofBooks = .ok c :=
    mapError_eq_ok.2 (Books.fetchClient_eq_ok.2 (hb.find?_of_mem hc))
  have hlimit : 0 < limit ↔ limit.toNat ≠ 0 := by
    rw [UInt64.lt_iff_toNat_lt]
    exact Nat.pos_iff_ne_zero
  rw [give, hfetch, due]
  dsimp only [bind, Except.bind]
  rw [gather_eq_take_serving hb, Sweep.pool_eq hb hc]
  cases readShortlist c.shortlist with
  | none =>
    have hnone : (serving b c []).take limit.toNat = [] := List.take_nil
    rw [Option.getD_none, if_pos hnone]
    rfl
  | some l =>
    dsimp only [Option.getD_some]
    by_cases hserves : 0 < limit ∧ serving b c l ≠ []
    · have htake : (serving b c l).take limit.toNat ≠ [] := by
        rw [Ne, List.take_eq_nil_iff, not_or]
        exact ⟨hlimit.1 hserves.1, hserves.2⟩
      rw [if_neg htake, if_pos hserves]
      rfl
    · have htake : (serving b c l).take limit.toNat = [] := by
        rw [List.take_eq_nil_iff, ← not_ne_iff, ← hlimit, ← not_ne_iff, ← not_and_or]
        exact hserves
      rw [if_pos htake, if_neg hserves]
      rfl

end Advice

/-- On any books that number their clients soundly, and whatever is kept with a client as their
shortlist: they are given the first of its suggestions that serve, if the text can be read, any are
asked for and any serve. Otherwise they are given the best of the single clients of the opposite
gender, of whom the first by number are judged. Neither suggests the client to themselves, and
nothing is written. -/
theorem Agency.serve_advise {a : Agency} {c : Client} (hb : a.books.clients.Sound)
    (hc : c ∈ a.books.clients.rows) (m : Moment) (limit poolLimit : UInt64) :
    let adv := Advice.due m.today a.books c limit poolLimit
    a.serve m (.advise c.id limit poolLimit) = (.ok (.advice adv), a) ∧
      ((Sweep.suitors a.books c).Pairwise fun x y => x.id < y.id) ∧
      ∀ s ∈ adv.suggestions, s.candidate ≠ c.id := by
  intro adv
  have hgive : Advice.give m.today a.books c.id limit poolLimit = .ok adv :=
    Advice.give_eq_due hb hc
  refine ⟨?_, Sweep.increasing_suitors hb, fun s hs => ?_⟩
  · rw [serve, hgive]
    rfl
  · obtain ⟨adv', hgive', hserves⟩ :=
      Advice.exists_give hb (hb.find?_of_mem hc) m.today limit poolLimit
    obtain rfl := Except.ok.inj (hgive.symm.trans hgive')
    exact Advice.ne_of_stillSuits hb hc (hserves s hs)

namespace Sample

def suggestion (candidate : Int) : Suggestion where
  candidate
  name := ""
  avatar := none
  score := 0
  tags := []
  age := 0
  height := 0
  education := 0

def outdated : List Suggestion := [5, 3, 1, 9, 2, 5].map suggestion

def caller : Client := { id := 1, profile := man, shortlist := writeShortlist outdated }

def waiting : Books :=
  { parlour with
    clients := { parlour.clients with rows := caller :: parlour.clients.rows.tail } }

end Sample

/-- The suggestions that still serve are given in their order, and none if none are asked for. -/
theorem Agency.serve_advise_sample :
    let a : Agency := { books := Sample.waiting }
    a.books.clients.Sound ∧ Sample.caller ∈ a.books.clients.rows ∧
      a.serve Sample.newYear (.advise 1 2 0) =
        (.ok (.advice ⟨.shortlist, [5, 2].map Sample.suggestion⟩), a) ∧
      a.serve Sample.newYear (.advise 1 0 9) = (.ok (.advice ⟨.computed, []⟩), a) := by
  intro a
  have hb : a.books.clients.Sound := ⟨by decide, by decide⟩
  have hc : Sample.caller ∈ a.books.clients.rows := List.mem_cons_self
  have hread : readShortlist Sample.caller.shortlist = some Sample.outdated :=
    readShortlist_of_numbers (by decide)
  have hserving : Advice.serving a.books Sample.caller Sample.outdated =
      [5, 2, 5].map Sample.suggestion := by decide
  obtain ⟨htwo, -⟩ := serve_advise hb hc Sample.newYear 2 0
  obtain ⟨hnone, -⟩ := serve_advise hb hc Sample.newYear 0 9
  rw [Advice.due, hread] at htwo hnone
  dsimp only at htwo hnone
  rw [hserving, if_pos (by decide)] at htwo
  rw [if_neg (by decide)] at hnone
  exact ⟨hb, hc, htwo, hnone⟩

end Matchmaking
