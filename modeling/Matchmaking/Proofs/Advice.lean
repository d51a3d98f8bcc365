import Matchmaking.Proofs.Entry

/-! Advice that can be acted on. Whoever is suggested to a client is single and of the other
gender, whatever the shortlist says. After regular requests that is all an arrangement asks for,
unless the two have a live pairing. -/
namespace Matchmaking

namespace Advice
variable {today : Date} {b : Books} {c d : Client} {s : Suggestion} {l : List Suggestion} {n : Nat}
variable {x : Int}

theorem stillSuits_iff : stillSuits b c x ↔
    ∃ d, b.client? x = some d ∧ d.isSingle ∧ areOpposite (·.profile.gender) c d := by
  simp [stillSuits, Option.any_eq_true]

theorem gather_eq : gather b c n l = (l.filter fun s => stillSuits b c s.candidate).take n := by
  induction n, l using gather.induct b c with
  | case1 l => simp [gather]
  | case2 n => simp [gather]
  | case3 n s l hsuits ih => simp [gather, hsuits, ih]
  | case4 n s l hsuits ih => simp [gather, hsuits, ih]

theorem stillSuits_of_mem_gather (hs : s ∈ gather b c n l) : stillSuits b c s.candidate := by
  rw [gather_eq] at hs
  exact (List.mem_filter.1 (List.mem_of_mem_take hs)).2

theorem stillSuits_of_mem_pool {limit : UInt64} (hb : b.clients.Sound)
    (hd : d ∈ Sweep.pool b c limit) : stillSuits b c d.id := by
  obtain ⟨hrow, haccepts⟩ := List.mem_filter.1 (Page.mem_of_mem_of hd)
  have hsuits : (d.isSingle ∧ d.profile.gender = c.profile.gender.other) ∧ d.id ≠ c.id := by
    simpa [Criteria.accepts, Criteria.singles, Client.isSingle] using haccepts
  have hopposite : areOpposite (·.profile.gender) c d := (areOpposite_iff _ _ _).2 hsuits.1.2
  exact stillSuits_iff.2 ⟨d, hb.find?_of_mem hrow, hsuits.1.1, hopposite⟩

theorem exists_of_mem_best {judge : Judge} {pool : List Client} {top : Nat}
    (hs : s ∈ Suggestion.best judge today c pool top) :
    ∃ d ∈ pool, d.id ≠ c.id ∧ s = .of today d (judge c d) := by
  have hjudged := List.mem_mergeSort.1 (List.mem_of_mem_take hs)
  obtain ⟨d, hd, rfl⟩ := List.mem_map.1 hjudged
  obtain ⟨hpool, hne⟩ := List.mem_filter.1 hd
  exact ⟨d, hpool, by simpa using hne, rfl⟩

/-- A client who is there is always given advice, and every suggestion in it serves. -/
theorem exists_give (hb : b.clients.Sound) (hc : b.client? x = some c) (today : Date)
    (limit poolLimit : UInt64) :
    ∃ adv, give today b x limit poolLimit = .ok adv ∧
      ∀ s ∈ adv.suggestions, stillSuits b c s.candidate := by
  have hfetch : (b.fetchClient x).mapError AgencyError.ofBooks = .ok c :=
    mapError_eq_ok.2 (Books.fetchClient_eq_ok.2 hc)
  rw [give, hfetch]
  dsimp only [bind, Except.bind]
  split
  · refine ⟨_, rfl, fun s hs => ?_⟩
    obtain ⟨d, hd, -, rfl⟩ := exists_of_mem_best hs
    exact stillSuits_of_mem_pool hb hd
  · exact ⟨_, rfl, fun s hs => stillSuits_of_mem_gather hs⟩

end Advice

namespace Books
variable {b : Books} {p : NewPairing} {c d : Client} {x : Int}

/-- A client who is single is free, where links are sound. -/
theorem Linked.isFree_of_isSingle (hb : b.Linked) (hc : b.client? x = some c)
    (hs : c.isSingle) : c.isFree := by
  have hsingle : c.standing = .single := by simpa [Client.isSingle] using hs
  have hnone := hb.partner?_of_not_matched hc (by rw [hsingle]; decide)
  rw [partner?_of_client? hc] at hnone
  exact Client.isFree_iff.2 ⟨hsingle, hnone⟩

/-- Only a live pairing stands against that of two clients who are free. -/
theorem hindrance?_of_isFree (hc : b.client? p.man = some c) (hd : b.client? p.woman = some d)
    (hcf : c.isFree) (hdf : d.isFree) :
    b.hindrance? p = if b.liveCount p.man p.woman ≠ 0 then
      some (.collision (.claimed .pairing s!"{p.man}/{p.woman}")) else none := by
  have hpartner := (Client.isFree_iff.1 hdf).2
  simp [hindrance?, hc, hd, hcf, hdf, hpartner]

end Books

namespace Courtship
variable {today : Date} {b : Books} {x y : Int} {admin remark : String} {p : NewPairing}
variable {c d man woman : Client}

theorem exists_propose (hc : b.client? x = some c) (hd : b.client? y = some d)
    (hcouple : coupleBy (·.profile.gender) c d = some (man, woman)) (hman : man.isFree)
    (hwoman : woman.isFree) (today : Date) (admin remark : String) :
    ∃ p, propose today x y admin remark b = .ok p ∧ p.man = man.id ∧ p.woman = woman.id := by
  have hne : x ≠ y := by
    rintro rfl
    obtain rfl := Option.some.inj (hc.symm.trans hd)
    obtain ⟨hm, hw, ⟨rfl, rfl⟩ | ⟨rfl, rfl⟩⟩ := of_coupleBy hcouple
    · rw [hm] at hw
      cases hw
    · rw [hm] at hw
      cases hw
  rw [propose_of_ne hne, hc, hd]
  dsimp only
  rw [hcouple]
  simp only [hman, hwoman]
  exact ⟨_, rfl, rfl, rfl⟩

/-- The arrangement of two clients who pass the check goes through, unless they have a live
pairing. -/
theorem arrange_of_propose (hb : b.Linked) (hpairings : b.pairings.Sound)
    (hp : propose today x y admin remark b = .ok p) :
    (arrange {} today x y admin remark b).1 =
      if b.liveCount p.man p.woman ≠ 0 then
        .error (.collision (.claimed .pairing s!"{p.man}/{p.woman}"))
      else .ok (p.at b.pairings.next) := by
  obtain ⟨man, woman, hm, hw, -, -, hmf, hwf⟩ := parties_of_propose hp
  have hne : p.man ≠ p.woman := Desk.ne_of_fits (genders_of_propose hp)
  have hcommit := commit_enter hb hne
  rw [Books.hindrance?_of_isFree hm hw hmf hwf] at hcommit
  rw [arrange, hp]
  dsimp only
  rw [hcommit]
  by_cases hlive : b.liveCount p.man p.woman = 0
  · rw [if_neg (not_not.2 hlive), if_neg (not_not.2 hlive)]
    exact mapError_eq_ok.2 (Books.fetchPairing_eq_ok.2 (Books.pairing?_joined hpairings))
  · rw [if_pos hlive, if_pos hlive]

end Courtship

/-- After regular requests a client who is single is given advice, and an arrangement with anyone it
suggests is never refused: it goes through, or collides with a live pairing of the two. -/
theorem Agency.arrange_of_advised {rs : List (Moment × Request)} (hr : ∀ q ∈ rs, q.2.isRegular)
    {c : Client} (hc : c ∈ (({} : Agency).after rs).books.clients.rows) (hs : c.standing = .single)
    (m m' : Moment) (limit poolLimit : UInt64) (admin remark : String) :
    let a := ({} : Agency).after rs
    ∃ adv, a.serve m (.advise c.id limit poolLimit) = (.ok (.advice adv), a) ∧
      ∀ s ∈ adv.suggestions, ∃ man woman,
        (man = c.id ∧ woman = s.candidate ∨ man = s.candidate ∧ woman = c.id) ∧
        a.books.gender? man = some .male ∧ a.books.gender? woman = some .female ∧
        (a.books.liveCount man woman = 0 → ∃ p, p.man = man ∧ p.woman = woman ∧
          (a.serve m' (.arrange c.id s.candidate admin remark)).1 = .ok (.book (.pairing p))) ∧
        (a.books.liveCount man woman ≠ 0 →
          (a.serve m' (.arrange c.id s.candidate admin remark)).1 =
            .error (.agency (.collision (.claimed .pairing s!"{man}/{woman}")))) := by
  intro a
  have hb : a.books.Paired := paired_after hr
  have hhazards : a.hazards = {} := hazards_after hr
  have hfind : a.books.client? c.id = some c := hb.clients.find?_of_mem hc
  obtain ⟨adv, hgive, hserves⟩ := Advice.exists_give hb.clients hfind m.today limit poolLimit
  refine ⟨adv, ?_, fun s hsuggested => ?_⟩
  · rw [serve, hgive]
    rfl
  · obtain ⟨d, hd, hsingle, hopposite⟩ := Advice.stillSuits_iff.1 (hserves s hsuggested)
    have hid : d.id = s.candidate := Table.id_of_find? hd
    have hcf : c.isFree := hb.isFree_of_isSingle hfind (by simpa [Client.isSingle] using hs)
    have hdf : d.isFree := hb.isFree_of_isSingle hd hsingle
    obtain ⟨⟨man, woman⟩, hcouple⟩ := Option.isSome_iff_exists.1 hopposite
    obtain ⟨-, -, hparties⟩ := of_coupleBy hcouple
    have hfree : man.isFree ∧ woman.isFree := by
      obtain ⟨rfl, rfl⟩ | ⟨rfl, rfl⟩ := hparties
      · exact ⟨hcf, hdf⟩
      · exact ⟨hdf, hcf⟩
    obtain ⟨p, hp, hpm, hpw⟩ :=
      Courtship.exists_propose hfind hd hcouple hfree.1 hfree.2 m'.today admin remark
    have harrange := Courtship.arrange_of_propose hb.toLinked hb.pairings hp
    have hserve : (a.serve m' (.arrange c.id s.candidate admin remark)).1 =
        ((Courtship.arrange {} m'.today c.id s.candidate admin remark a.books).1.map
          fun p => .book (.pairing p)).mapError .agency := by
      rw [← hhazards]
      rfl
    rw [hserve, harrange]
    obtain ⟨hman, hwoman⟩ := Courtship.genders_of_propose hp
    refine ⟨p.man, p.woman, ?_, hman, hwoman, fun hnone => ?_, fun hlive => ?_⟩
    · rw [hpm, hpw, ← hid]
      obtain ⟨rfl, rfl⟩ | ⟨rfl, rfl⟩ := hparties
      · exact .inl ⟨rfl, rfl⟩
      · exact .inr ⟨rfl, rfl⟩
    · rw [if_neg (not_not.2 hnone)]
      exact ⟨_, rfl, rfl, rfl⟩
    · rw [if_pos hlive]
      rfl

def Sample.strangers : List (Moment × Request) :=
  [.book (.register man), .book (.register woman)].map (newYear, ·)

theorem Agency.arrange_of_advised_sample :
    (∀ q ∈ Sample.strangers, q.2.isRegular) ∧
    let a := ({} : Agency).after Sample.strangers
    ∃ c ∈ a.books.clients.rows, c.standing = .single ∧ ∃ s adv, s.candidate = 2 ∧
      s ∈ adv.suggestions ∧ a.serve Sample.newYear (.advise c.id 5 5) = (.ok (.advice adv), a) ∧
      ∃ p, (a.serve Sample.newYear (.arrange c.id s.candidate "" "")).1 =
        .ok (.book (.pairing p)) := by
  have hr : ∀ q ∈ Sample.strangers, q.2.isRegular := by decide
  refine ⟨hr, ?_⟩
  intro a
  have hman : ∃ c ∈ a.books.clients.rows, c.standing = .single ∧
      (Advice.give Sample.newYear.today a.books c.id 5 5).toOption.any
        (·.suggestions.any (·.candidate == 2)) := by
    decide +kernel
  have hnew : a.books.pairings.rows = [] := by decide +kernel
  obtain ⟨c, hc, hs, hgive⟩ := hman
  obtain ⟨adv, hserve, hall⟩ :=
    arrange_of_advised hr hc hs Sample.newYear Sample.newYear 5 5 "" ""
  have hadvice : Advice.give Sample.newYear.today a.books c.id 5 5 = .ok adv := by
    have hreply := congrArg Prod.fst hserve
    cases hadv : Advice.give Sample.newYear.today a.books c.id 5 5 with
    | error e =>
      rw [serve, hadv] at hreply
      cases hreply
    | ok adv' =>
      rw [serve, hadv] at hreply
      cases hreply
      rfl
  rw [hadvice] at hgive
  obtain ⟨s, hsuggested, htwo⟩ := List.any_eq_true.1 (show adv.suggestions.any _ from hgive)
  obtain ⟨man, woman, -, -, -, hpaired, -⟩ := hall s hsuggested
  have hnone : a.books.liveCount man woman = 0 := by rw [Books.liveCount, hnew, List.countP_nil]
  obtain ⟨p, -, -, hp⟩ := hpaired hnone
  exact ⟨c, hc, hs, s, adv, by simpa using htwo, hsuggested, hserve, p, hp⟩

end Matchmaking
