import Matchmaking.Proofs.Deeds

/-! What an arrangement of two clients comes to: the one reason for which it is turned down, or the
match of the two and their pairing, and nothing else. Half a link, a standing set by hand and a
pairing that was forgotten each have their own reason. -/
namespace Matchmaking

def Client.matchedBy (man woman : Int) (c : Client) : Client :=
  if c.id = man then { c with standing := .matched, partner := some woman }
  else if c.id = woman then { c with standing := .matched, partner := some man }
  else c

theorem coupleBy_eq_none {α : Type} (gender : α → Gender) {x y : α} :
    coupleBy gender x y = none ↔ gender x = gender y := by
  unfold coupleBy
  cases gender x <;> cases gender y <;> simp

namespace Books

structure IsPair (b : Books) (x y : Int) (man woman : Client) : Prop where
  findMan : b.client? man.id = some man
  findWoman : b.client? woman.id = some woman
  male : man.profile.gender = .male
  female : woman.profile.gender = .female
  numbers : man.id = x ∧ woman.id = y ∨ man.id = y ∧ woman.id = x

structure Allows (b : Books) (x y : Int) (man woman : Client) : Prop extends
    IsPair b x y man woman where
  manFree : man.isFree
  womanFree : woman.isFree
  womanUnclaimed : ¬b.isClaimed woman.id
  manUnclaimed : ¬b.isClaimed man.id
  unpaired : ∀ q ∈ b.pairings.rows, ¬q.isLiveFor man.id woman.id

/-- Why the arrangement of two clients is turned down. Each reason counts only where those before
it do not. -/
inductive Forbids (b : Books) (x y : Int) : AgencyError → Prop
  | oneClient (h : x = y) : Forbids b x y (.objection .oneClient)
  | firstAbsent (hne : x ≠ y) (hx : b.client? x = none) :
      Forbids b x y (.absent .client (toString x))
  | secondAbsent {c : Client} (hne : x ≠ y) (hx : b.client? x = some c) (hy : b.client? y = none) :
      Forbids b x y (.absent .client (toString y))
  | oneGender {c d : Client} (hne : x ≠ y) (hx : b.client? x = some c) (hy : b.client? y = some d)
      (hg : c.profile.gender = d.profile.gender) : Forbids b x y (.objection .oneGender)
  | manTaken {man woman : Client} (hp : b.IsPair x y man woman) (hm : ¬man.isFree) :
      Forbids b x y (.unavailable man.id)
  | womanTaken {man woman : Client} (hp : b.IsPair x y man woman) (hm : man.isFree)
      (hw : ¬woman.isFree) : Forbids b x y (.unavailable woman.id)
  | womanClaimed {man woman : Client} (hp : b.IsPair x y man woman) (hm : man.isFree)
      (hw : woman.isFree) (hc : b.isClaimed woman.id) :
      Forbids b x y (.collision (.claimed .partnerLink (toString woman.id)))
  | manClaimed {man woman : Client} (hp : b.IsPair x y man woman) (hm : man.isFree)
      (hw : woman.isFree) (hn : ¬b.isClaimed woman.id) (hc : b.isClaimed man.id) :
      Forbids b x y (.collision (.claimed .partnerLink (toString man.id)))
  | paired {man woman : Client} {q : Pairing} (hp : b.IsPair x y man woman) (hm : man.isFree)
      (hw : woman.isFree) (hn : ¬b.isClaimed woman.id) (hn' : ¬b.isClaimed man.id)
      (hq : q ∈ b.pairings.rows) (hl : q.isLiveFor man.id woman.id) :
      Forbids b x y (.collision (.claimed .pairing s!"{man.id}/{woman.id}"))

def arranged (b : Books) (p : Pairing) : Books :=
  { b with
    clients := { b.clients with rows := b.clients.rows.map (Client.matchedBy p.man p.woman) }
    pairings := { rows := b.pairings.rows ++ [p], last := p.id } }

variable {b : Books} {x y : Int} {c d man woman : Client} {e : AgencyError}

theorem IsPair.ne (hp : b.IsPair x y man woman) : man.id ≠ woman.id := by
  intro hid
  have hsame : some man = some woman := by rw [← hp.findMan, ← hp.findWoman, hid]
  have hgender := hp.male
  rw [Option.some.inj hsame, hp.female] at hgender
  cases hgender

theorem isPair_of_coupleBy (hx : b.client? x = some c) (hy : b.client? y = some d)
    (hc : coupleBy (·.profile.gender) c d = some (man, woman)) : b.IsPair x y man woman := by
  obtain rfl : c.id = x := Table.id_of_find? hx
  obtain rfl : d.id = y := Table.id_of_find? hy
  obtain ⟨hm, hw, ⟨rfl, rfl⟩ | ⟨rfl, rfl⟩⟩ := of_coupleBy hc
  · exact ⟨hx, hy, hm, hw, .inl ⟨rfl, rfl⟩⟩
  · exact ⟨hy, hx, hm, hw, .inr ⟨rfl, rfl⟩⟩

/-- Whichever of the two is named first. -/
theorem IsPair.exists_coupleBy (hp : b.IsPair x y man woman) :
    ∃ c d, b.client? x = some c ∧ b.client? y = some d ∧
      coupleBy (·.profile.gender) c d = some (man, woman) := by
  have hcouple : coupleBy (·.profile.gender) man woman = some (man, woman) := by
    simp [coupleBy, hp.male, hp.female]
  obtain ⟨rfl, rfl⟩ | ⟨rfl, rfl⟩ := hp.numbers
  · exact ⟨man, woman, hp.findMan, hp.findWoman, hcouple⟩
  · exact ⟨woman, man, hp.findWoman, hp.findMan, by rw [coupleBy_comm, hcouple]⟩

theorem IsPair.forbids_or_allows (hp : b.IsPair x y man woman) :
    (∃ e, b.Forbids x y e) ∨ b.Allows x y man woman := by
  by_cases hm : man.isFree
  case neg => exact .inl ⟨_, .manTaken hp hm⟩
  by_cases hw : woman.isFree
  case neg => exact .inl ⟨_, .womanTaken hp hm hw⟩
  by_cases hcw : b.isClaimed woman.id
  case pos => exact .inl ⟨_, .womanClaimed hp hm hw hcw⟩
  by_cases hcm : b.isClaimed man.id
  case pos => exact .inl ⟨_, .manClaimed hp hm hw hcw hcm⟩
  by_cases hl : ∃ q ∈ b.pairings.rows, q.isLiveFor man.id woman.id
  case pos =>
    obtain ⟨q, hq, hlive⟩ := hl
    exact .inl ⟨_, .paired hp hm hw hcw hcm hq hlive⟩
  exact .inr ⟨hp, hm, hw, hcw, hcm, fun q hq hlive => hl ⟨q, hq, hlive⟩⟩

theorem forbids_or_allows (b : Books) (x y : Int) :
    (∃ e, b.Forbids x y e) ∨ ∃ man woman, b.Allows x y man woman := by
  by_cases hne : x = y
  case pos => exact .inl ⟨_, .oneClient hne⟩
  cases hx : b.client? x with
  | none => exact .inl ⟨_, .firstAbsent hne hx⟩
  | some c =>
    cases hy : b.client? y with
    | none => exact .inl ⟨_, .secondAbsent hne hx hy⟩
    | some d =>
      cases hc : coupleBy (·.profile.gender) c d with
      | none =>
        have hg := (coupleBy_eq_none fun c : Client => c.profile.gender).1 hc
        exact .inl ⟨_, .oneGender hne hx hy hg⟩
      | some pair =>
        obtain hf | ha := (isPair_of_coupleBy hx hy hc).forbids_or_allows
        · exact .inl hf
        · exact .inr ⟨_, _, ha⟩

end Books

/-! The check of two clients, and the plan of their arrangement. -/

namespace Courtship
variable {b : Books} {x y : Int} {today : Date} {admin remark : String}

/-- The order of the two shows only where neither is there. -/
theorem propose_comm (hthere : b.client? x ≠ none ∨ b.client? y ≠ none) :
    propose today y x admin remark b = propose today x y admin remark b := by
  by_cases hne : x = y
  · rw [hne]
  rw [propose_of_ne hne, propose_of_ne (Ne.symm hne)]
  cases hx : b.client? x with
  | none =>
    cases hy : b.client? y with
    | none => simp [hx, hy] at hthere
    | some d => rfl
  | some c =>
    cases hy : b.client? y with
    | none => rfl
    | some d =>
      dsimp only
      rw [coupleBy_comm]

end Courtship

namespace Call
variable {b : Books} {x y : Int} {man woman : Client} {e : AgencyError} {today : Date}
variable {admin remark : String}

theorem plan_of_isPair (hp : b.IsPair x y man woman) :
    (arrange x y admin remark).plan today b =
      if !man.isFree then .error (.unavailable man.id)
      else if !woman.isFree then .error (.unavailable woman.id)
      else b.planJoin (Courtship.proposal today man woman admin remark) := by
  obtain ⟨c, d, hx, hy, hcouple⟩ := hp.exists_coupleBy
  have hne : x ≠ y := by
    have hids := hp.ne
    obtain ⟨rfl, rfl⟩ | ⟨rfl, rfl⟩ := hp.numbers
    · exact hids
    · exact hids.symm
  rw [plan, Courtship.propose_of_ne hne, hx, hy]
  dsimp only
  rw [hcouple]
  by_cases hm : man.isFree
  · by_cases hw : woman.isFree <;> simp [hm, hw]
  · simp [hm]

theorem plan_of_forbids (hf : b.Forbids x y e) :
    (arrange x y admin remark).plan today b = .error e := by
  cases hf with
  | oneClient h =>
    rw [plan, Courtship.propose, if_pos h]
    rfl
  | firstAbsent hne hx =>
    rw [plan, Courtship.propose_of_ne hne, hx]
  | secondAbsent hne hx hy =>
    rw [plan, Courtship.propose_of_ne hne, hx, hy]
  | oneGender hne hx hy hg =>
    rw [plan, Courtship.propose_of_ne hne, hx, hy]
    dsimp only
    rw [(coupleBy_eq_none fun c : Client => c.profile.gender).2 hg]
  | manTaken hp hm =>
    rw [plan_of_isPair hp]
    simp [hm]
  | womanTaken hp hm hw =>
    rw [plan_of_isPair hp]
    simp [hm, hw]
  | womanClaimed hp hm hw hc =>
    rw [plan_of_isPair hp]
    simp [hm, hw, Books.planJoin, Courtship.proposal, hc]
  | manClaimed hp hm hw hn hc =>
    rw [plan_of_isPair hp]
    simp [hm, hw, Books.planJoin, Courtship.proposal, hn, hc]
  | @paired man woman q hp hm hw hn hn' hq hl =>
    have hlive : b.liveCount man.id woman.id ≠ 0 := by
      intro hnone
      rw [Books.liveCount_eq_zero.1 hnone q hq] at hl
      cases hl
    rw [plan_of_isPair hp]
    simp [hm, hw, Books.planJoin, Courtship.proposal, hn, hn', hlive]

theorem plan_of_allows (ha : b.Allows x y man woman) :
    (arrange x y admin remark).plan today b =
      .ok (.join (Courtship.proposal today man woman admin remark)) := by
  have hlive : b.liveCount man.id woman.id = 0 :=
    Books.liveCount_eq_zero.2 fun q hq => Bool.eq_false_iff.2 (ha.unpaired q hq)
  rw [plan_of_isPair ha.toIsPair]
  simp [ha.manFree, ha.womanFree, Books.planJoin, Courtship.proposal, ha.womanUnclaimed,
    ha.manUnclaimed, hlive]

end Call

theorem Deed.carryOut_join_eq_arranged {b : Books} {p : NewPairing} (hne : p.man ≠ p.woman) :
    (Deed.join p).carryOut b = b.arranged (p.at b.pairings.next) := by
  have honClient : (Deed.join p).onClient = Client.matchedBy p.man p.woman := by
    funext c
    rw [onClient, Client.matchedBy]
    by_cases hm : c.id = p.man
    · simp [Client.wed, hm, hne]
    · by_cases hw : c.id = p.woman <;> simp [Client.wed, hm, hw, hne.symm]
  rw [carryOut, honClient]
  rfl

namespace Courtship
variable {h : Hazards} {today : Date} {b : Books} {x y : Int} {admin remark : String}

theorem arrange_comm (hthere : b.client? x ≠ none ∨ b.client? y ≠ none) :
    arrange h today y x admin remark b = arrange h today x y admin remark b := by
  rw [arrange, arrange, propose_comm hthere]

theorem snd_arrange_comm :
    (arrange h today y x admin remark b).2 = (arrange h today x y admin remark b).2 := by
  by_cases hthere : b.client? x ≠ none ∨ b.client? y ≠ none
  · rw [arrange_comm hthere]
  · obtain ⟨hx, hy⟩ : b.client? x = none ∧ b.client? y = none := by simpa using hthere
    by_cases hne : x = y
    · rw [hne]
    · rw [arrange, arrange, propose_of_ne hne, propose_of_ne (Ne.symm hne), hx, hy]

end Courtship

namespace Agency
variable {a : Agency} {m : Moment} {x y : Int} {man woman : Client} {e : AgencyError}
variable {admin remark : String} {rs : List (Moment × Request)}

theorem serve_arrange_of_forbids (hh : a.hazards = {}) (hb : a.books.Intact)
    (hf : a.books.Forbids x y e) :
    a.serve m (.arrange x y admin remark) = (.error (.agency e), a) := by
  have hserve := serve_call (m := m) hh hb (.arrange x y admin remark)
  rw [Call.plan_of_forbids hf] at hserve
  exact hserve

theorem serve_arrange_of_allows (hh : a.hazards = {}) (hb : a.books.Intact)
    (ha : a.books.Allows x y man woman) :
    let p := (Courtship.proposal m.today man woman admin remark).at a.books.pairings.next
    a.serve m (.arrange x y admin remark) =
      (.ok (.book (.pairing p)), { a with books := a.books.arranged p }) := by
  intro p
  have hserve := serve_call (m := m) hh hb (.arrange x y admin remark)
  rw [Call.plan_of_allows ha, answer, Deed.carryOut_join_eq_arranged ha.ne] at hserve
  exact hserve

theorem serve_arrange_eq_error_iff (hh : a.hazards = {}) (hb : a.books.Intact) :
    a.serve m (.arrange x y admin remark) = (.error (.agency e), a) ↔ a.books.Forbids x y e := by
  refine ⟨fun he => ?_, serve_arrange_of_forbids hh hb⟩
  obtain ⟨e', hf⟩ | ⟨man, woman, ha⟩ := a.books.forbids_or_allows x y
  · have hserve : a.serve m (.arrange x y admin remark) = _ := serve_arrange_of_forbids hh hb hf
    rw [he] at hserve
    cases hserve
    exact hf
  · have hserve : a.serve m (.arrange x y admin remark) = _ := serve_arrange_of_allows hh hb ha
    rw [he] at hserve
    cases hserve

/-- Numbers given out stay given out. -/
theorem last_le_after : a.books.pairings.last ≤ (a.after rs).books.pairings.last := by
  have hs : a.books.Strokes True (a.after rs).books := strokes_of_after
  exact hs.grows.last_le

theorem id_le_last_of_earlier {rs' : List (Moment × Request)} (hpre : rs' <+: rs) {q : Pairing}
    (hq : q ∈ (({} : Agency).after rs').books.pairings.rows) :
    q.id ≤ (({} : Agency).after rs).books.pairings.last := by
  obtain ⟨rest, rfl⟩ := hpre
  have hb : (({} : Agency).after rs').books.Intact := intact_after Books.intact_empty
  rw [after_append]
  exact Int.le_trans (hb.pairings.sound.le_last q hq) last_le_after

/-- After any requests, with no fault armed and nobody else writing, an arrangement is turned down
for the first of the reasons against it and changes nothing. Without a reason it goes through: the
two are matched, and their pairing is entered under a number above all that any pairing ever had.
Nothing else changes, and it does not matter who of the two is named first, except that of two who
are both absent the first is named in the answer. -/
theorem arrangement_outcome (rs : List (Moment × Request))
    (hh : (({} : Agency).after rs).hazards = {}) (m : Moment) (x y : Int) (admin remark : String) :
    let a := ({} : Agency).after rs
    let arranged := a.serve m (.arrange x y admin remark)
    let arranged' := a.serve m (.arrange y x admin remark)
    (∀ e, arranged = (.error (.agency e), a) ↔ a.books.Forbids x y e) ∧
    ((¬∃ e, a.books.Forbids x y e) → ∃ man woman n, a.books.IsPair x y man woman ∧
      let p : Pairing :=
        { id := n, man := man.id, woman := woman.id, stage := .acquaintance, remark, admin,
          score := (FiveFactor.judge m.today man.profile woman.profile).score }
      arranged = (.ok (.book (.pairing p)), { a with books := a.books.arranged p }) ∧
      (a.books.arranged p).movesOf n = [] ∧
      ∀ rs', rs' <+: rs → ∀ q ∈ (({} : Agency).after rs').books.pairings.rows, q.id < n) ∧
    arranged'.2 = arranged.2 ∧
    (a.books.client? x ≠ none ∨ a.books.client? y ≠ none → arranged'.1 = arranged.1) := by
  intro a arranged arranged'
  have hb : a.books.Intact := intact_after Books.intact_empty
  refine ⟨fun e => serve_arrange_eq_error_iff hh hb, fun hnone => ?_, ?_, fun hthere => ?_⟩
  · obtain ⟨man, woman, ha⟩ := (a.books.forbids_or_allows x y).resolve_left hnone
    have hnext : a.books.pairings.last < a.books.pairings.next := Int.lt_succ _
    have hnew : a.books.movesOf a.books.pairings.next = [] := Books.movesOf_eq_nil hb hnext
    refine ⟨man, woman, _, ha.toIsPair, serve_arrange_of_allows hh hb ha, hnew, ?_⟩
    intro rs' hpre q hq
    exact Int.lt_of_le_of_lt (id_le_last_of_earlier hpre hq) hnext
  · exact congrArg (fun b => { a with books := b }) Courtship.snd_arrange_comm
  · exact congrArg (fun r => (r.1.map fun p => Reply.book (.pairing p)).mapError Failure.agency)
      (Courtship.arrange_comm hthere)

end Agency

namespace Sample

def claimed : List (Moment × Request) :=
  [.book (.register man), .book (.register woman), .book (.register woman),
    .book (.attach 3 1)].map (newYear, ·)

def parted : List (Moment × Request) := couple ++ [(newYear, .breakUp 1 "" "")]

end Sample

/-- Whoever of the two is named first, a man who is somebody's partner cannot be matched; and two
who have parted can be matched anew. -/
theorem Agency.arrangement_outcome_sample :
    let a := ({} : Agency).after Sample.claimed
    let b := ({} : Agency).after Sample.parted
    a.hazards = {} ∧ a.serve Sample.newYear (.arrange 2 1 "" "") =
        (.error (.agency (.collision (.claimed .partnerLink "1"))), a) ∧
      b.hazards = {} ∧ ∃ p : Pairing, 1 < p.id ∧
        b.serve Sample.newYear (.arrange 2 1 "" "") =
          (.ok (.book (.pairing p)), { b with books := b.books.arranged p }) := by
  intro a b
  have hman : ∃ c ∈ a.books.clients.rows, a.books.client? c.id = some c ∧ c.id = 1 ∧
      c.profile.gender = .male ∧ c.isFree := by
    decide +kernel
  have hwoman : ∃ c ∈ a.books.clients.rows, a.books.client? c.id = some c ∧ c.id = 2 ∧
      c.profile.gender = .female ∧ c.isFree ∧ ¬a.books.isClaimed c.id := by
    decide +kernel
  obtain ⟨man, -, hm, hmid, hmale, hmf⟩ := hman
  obtain ⟨woman, -, hw, hwid, hfemale, hwf, hunclaimed⟩ := hwoman
  have hclaimed : a.books.isClaimed man.id := by
    rw [hmid]
    decide +kernel
  have hpair : a.books.IsPair 2 1 man woman := ⟨hm, hw, hmale, hfemale, .inr ⟨hmid, hwid⟩⟩
  obtain ⟨herror, -⟩ := arrangement_outcome Sample.claimed rfl Sample.newYear 2 1 "" ""
  obtain ⟨herror', hjoined, -⟩ := arrangement_outcome Sample.parted rfl Sample.newYear 2 1 "" ""
  have hturnedDown := (herror _).2 (.manClaimed hpair hmf hwf hunclaimed hclaimed)
  rw [hmid] at hturnedDown
  have hnone : ¬∃ e, b.books.Forbids 2 1 e := by
    rintro ⟨e, hf⟩
    have hok : ∃ y, (b.serve Sample.newYear (.arrange 2 1 "" "")).1 = .ok y := ⟨_, rfl⟩
    obtain ⟨y, hy⟩ := hok
    rw [(herror' e).2 hf] at hy
    cases hy
  obtain ⟨man', woman', n, -, hserve, -, habove⟩ := hjoined hnone
  have hold : ∃ q ∈ b.books.pairings.rows, q.id = 1 := by decide +kernel
  obtain ⟨q, hq, hqid⟩ := hold
  have hlt : q.id < n := habove _ List.prefix_rfl q hq
  rw [hqid] at hlt
  exact ⟨rfl, hturnedDown, rfl, _, hlt, hserve⟩

end Matchmaking
