import Matchmaking.Proofs.Backing
import Matchmaking.Proofs.Contention
import Matchmaking.Proofs.Entry
import Matchmaking.Proofs.Integrity

/-! What the calls on pairings come to when there are no hazards: a reason why the call is turned
down, or a deed, which changes each table of the books by itself. -/
namespace Matchmaking

inductive Call where
  | arrange (x y : Int) (admin remark : String)
  | advance (id : Int) (expected next : Stage) (operator reason : String)
  | breakUp (id : Int) (operator reason : String)
  | strike (id : Int)

def Call.request : Call → Request
  | .arrange x y admin remark => .arrange x y admin remark
  | .advance id expected next operator reason => .advance id expected next operator reason
  | .breakUp id operator reason => .breakUp id operator reason
  | .strike id => .strike id

inductive Deed where
  | join (p : NewPairing)
  | move (p : Pairing) (stage : Stage) (operator reason : String)
  | strike (p : Pairing)

namespace Client

def wed (id partner : Int) (c : Client) : Client :=
  if c.id = id then { c with standing := .matched, partner := some partner } else c

def release (id partner : Int) (c : Client) : Client :=
  if c.id = id ∧ c.partner = some partner then { c with standing := .single, partner := none }
  else c

end Client

namespace Deed

def man : Deed → Int
  | .join p => p.man
  | .move p _ _ _ | .strike p => p.man

def woman : Deed → Int
  | .join p => p.woman
  | .move p _ _ _ | .strike p => p.woman

def onClient : Deed → Client → Client
  | .join p, c => (c.wed p.man p.woman).wed p.woman p.man
  | .move p stage _ _, c =>
    if stage = .broken then (c.release p.man p.woman).release p.woman p.man else c
  | .strike p, c => (c.release p.man p.woman).release p.woman p.man

def onPairings : Deed → Table Pairing → Table Pairing
  | .join p, t => t.add p.at
  | .move p stage _ _, t => t.modify p.id fun q => { q with stage }
  | .strike p, t => t.erase p.id

def onMoves : Deed → Table Move → Table Move
  | .join _, t => t
  | .move p stage operator reason, t => t.add fun n => ⟨n, p.id, p.stage, stage, operator, reason⟩
  | .strike p, t => { t with rows := t.rows.filter (·.pairing != p.id) }

def carryOut (d : Deed) (b : Books) : Books :=
  { b.mapClients d.onClient with pairings := d.onPairings b.pairings, moves := d.onMoves b.moves }

def reply (b : Books) : Deed → Reply
  | .join p => .book (.pairing (p.at b.pairings.next))
  | .move p stage _ _ => .book (.pairing { p with stage })
  | .strike _ => .book .done

end Deed

namespace Books
variable (b : Books)

def isClaimed (x : Int) : Bool := b.clients.rows.any (·.partner == some x)

def planMove (id : Int) (expected next : Stage) (operator reason : String) :
    Except AgencyError Deed :=
  match b.pairing? id with
  | none => .error (.absent .pairing (toString id))
  | some p =>
    if p.stage ≠ expected then .error (.wrongStage expected p.stage)
    else if !p.stage.leadsTo next then .error (.illegalMove p.stage next)
    else .ok (.move p next operator reason)

def planJoin (p : NewPairing) : Except AgencyError Deed :=
  if b.isClaimed p.woman then .error (.collision (.claimed .partnerLink (toString p.woman)))
  else if b.isClaimed p.man then .error (.collision (.claimed .partnerLink (toString p.man)))
  else if b.liveCount p.man p.woman ≠ 0 then
    .error (.collision (.claimed .pairing s!"{p.man}/{p.woman}"))
  else .ok (.join p)

end Books

/-- What a call comes to: why it is turned down, or what it does. -/
def Call.plan (today : Date) (b : Books) : Call → Except AgencyError Deed
  | .arrange x y admin remark =>
    match Courtship.propose today x y admin remark b with
    | .error e => .error e
    | .ok p => b.planJoin p
  | .advance id expected next operator reason => b.planMove id expected next operator reason
  | .breakUp id operator reason =>
    match b.pairing? id with
    | none => .error (.absent .pairing (toString id))
    | some p => b.planMove id p.stage .broken operator reason
  | .strike id =>
    match b.pairing? id with
    | none => .error (.absent .pairing (toString id))
    | some p => .ok (.strike p)

namespace Books
variable {b : Books} {d : Deed} {p : NewPairing} {id : Int} {expected next : Stage}
variable {operator reason : String}

theorem isClaimed_mapClients {g : Client → Client} {x : Int}
    (hg : ∀ c ∈ b.clients.rows, (g c).partner = some x ↔ c.partner = some x) :
    (b.mapClients g).isClaimed x = b.isClaimed x := by
  rw [isClaimed, isClaimed, mapClients, List.any_map, Bool.eq_iff_iff, List.any_eq_true,
    List.any_eq_true]
  simp only [Function.comp_apply, beq_iff_eq]
  constructor
  · rintro ⟨c, hc, hclaims⟩
    exact ⟨c, hc, (hg c hc).1 hclaims⟩
  · rintro ⟨c, hc, hclaims⟩
    exact ⟨c, hc, (hg c hc).2 hclaims⟩

theorem planJoin_ok (hp : b.planJoin p = .ok d) :
    b.isClaimed p.woman = false ∧ b.isClaimed p.man = false ∧ b.liveCount p.man p.woman = 0 ∧
      d = .join p := by
  rw [planJoin] at hp
  split at hp
  · cases hp
  · rename_i hwoman
    split at hp
    · cases hp
    · rename_i hman
      split at hp
      · cases hp
      · rename_i hlive
        cases hp
        exact ⟨Bool.eq_false_iff.2 hwoman, Bool.eq_false_iff.2 hman, not_not.1 hlive, rfl⟩

theorem planMove_ok (hp : b.planMove id expected next operator reason = .ok d) :
    ∃ p, b.pairing? id = some p ∧ p.stage = expected ∧ expected.leadsTo next ∧
      d = .move p next operator reason := by
  rw [planMove] at hp
  split at hp
  · cases hp
  · rename_i p hfind
    split at hp
    · cases hp
    · rename_i hs
      obtain rfl := not_not.1 hs
      split at hp
      · cases hp
      · rename_i hl
        cases hp
        exact ⟨p, hfind, rfl, by simpa using hl, rfl⟩

end Books

/-! The deeds are the writes of the calls. -/

namespace Books
variable {b : Books} {x y : Int} {g g' : Client → Client}

theorem mapClients_congr (h : ∀ c ∈ b.clients.rows, g c = g' c) :
    b.mapClients g = b.mapClients g' := by
  rw [mapClients, mapClients, List.map_congr_left h]

theorem mapClients_id : b.mapClients id = b := by
  rw [mapClients, List.map_id]

theorem release_eq (hb : b.clients.Sound) : b.release x y = b.mapClients (Client.release x y) := by
  rw [release]
  split
  · rename_i hlinked
    obtain ⟨d, hd, hpartner⟩ := (Option.any_eq_true _ _).1 hlinked
    rw [modifyClient_eq_mapClients]
    refine mapClients_congr fun c hc => ?_
    by_cases hid : c.id = x
    · obtain rfl : c = d := hb.eq_of_find? hd hc hid
      rw [Client.release, if_pos hid, if_pos ⟨hid, beq_iff_eq.1 hpartner⟩]
    · rw [Client.release, if_neg hid, if_neg fun h => hid h.1]
  · rename_i hlinked
    have hsame : ∀ c ∈ b.clients.rows, Client.release x y c = c := by
      intro c hc
      rw [Client.release, if_neg]
      rintro ⟨rfl, hpartner⟩
      have hfind : b.client? c.id = some c := hb.find?_of_mem hc
      exact hlinked (by rw [hfind, Option.any_some, hpartner, beq_self_eq_true])
    have hid : b.mapClients (Client.release x y) = b.mapClients id := mapClients_congr hsame
    rw [hid, mapClients_id]

theorem parted_eq (hb : b.clients.Sound) :
    b.parted x y = b.mapClients fun c => (c.release x y).release y x := by
  have hid : ∀ c : Client, (c.release x y).id = c.id := by
    intro c
    rw [Client.release]
    split <;> rfl
  have hrelease : (b.mapClients (Client.release x y)).clients.Sound := hb.map_rows hid
  rw [parted, release_eq hb, release_eq hrelease, mapClients_mapClients]
  rfl

end Books

namespace Deed
variable {b : Books}

theorem carryOut_join (p : NewPairing) : (join p).carryOut b = b.joined p := by
  have hclients : b.mapClients (join p).onClient =
      (b.mapClients (Client.wed p.man p.woman)).mapClients (Client.wed p.woman p.man) :=
    (Books.mapClients_mapClients (Client.wed p.man p.woman) (Client.wed p.woman p.man)).symm
  rw [carryOut, hclients]
  rfl

theorem carryOut_move (hb : b.clients.Sound) (p : Pairing) (stage : Stage)
    (operator reason : String) :
    (move p stage operator reason).carryOut b =
      if stage = .broken then
        ((b.withStage p.id stage).withMove p.id p.stage stage operator reason).parted p.man p.woman
      else (b.withStage p.id stage).withMove p.id p.stage stage operator reason := by
  have hmoved : ((b.withStage p.id stage).withMove p.id p.stage stage operator
      reason).clients.Sound := hb
  split
  · rename_i hbroken
    have honClient : (move p stage operator reason).onClient =
        fun c => (c.release p.man p.woman).release p.woman p.man := by
      funext c
      rw [onClient, if_pos hbroken]
    rw [Books.parted_eq hmoved, carryOut, honClient]
    rfl
  · rename_i hlive
    have honClient : (move p stage operator reason).onClient = id := by
      funext c
      rw [onClient, if_neg hlive, id]
    rw [carryOut, honClient, Books.mapClients_id]
    rfl

theorem carryOut_strike (hb : b.clients.Sound) (p : Pairing) :
    (strike p).carryOut b = (b.withoutPairing p.id).parted p.man p.woman := by
  have hrest : (b.withoutPairing p.id).clients.Sound := hb
  rw [Books.parted_eq hrest]
  rfl

end Deed

/-! The calls, one by one. -/

namespace Books
variable {b : Books} {id : Int} {p : Pairing} {next : Stage}

theorem has_of_pairing? (hp : b.pairing? id = some p) : b.pairings.has id := by
  rw [← Table.isSome_find?]
  exact Option.isSome_iff_exists.2 ⟨p, hp⟩

theorem pairing?_withStage (hp : b.pairing? id = some p) :
    (b.withStage id next).pairing? id = some { p with stage := next } := by
  rw [pairing?, withStage, Table.find?_modify_self]
  exact congrArg (Option.map _) hp

/-- A pairing that lives is the only one of its two that does. -/
theorem moveStage_eq (hb : b.Intact) (hp : b.pairing? id = some p) (hl : p.stage.leadsTo next) :
    b.moveStage {} id p.stage next = .ok (true, b.withStage id next) := by
  have hrow : p ∈ b.pairings.rows := Table.mem_of_find? hp
  have halone : (b.pairings.rows.any fun q => q.id != id && q.isLiveFor p.man p.woman) = false := by
    rw [List.any_eq_false]
    intro q hq hother
    obtain ⟨hne, hqlive⟩ : q.id ≠ id ∧ q.isLiveFor p.man p.woman := by simpa using hother
    have hlive : p.isLiveFor p.man p.woman := by
      simp [Pairing.isLiveFor, Stage.isLive_of_leadsTo hl]
    obtain rfl := hb.pairings.alone q hq p hrow _ _ hqlive hlive
    exact hne (Table.id_of_find? hp)
  rw [moveStage, hp]
  dsimp only
  rw [halone]
  simp
  rfl

theorem moveStage_of_other {expected : Stage} (hp : b.pairing? id = some p)
    (hs : p.stage ≠ expected) : b.moveStage {} id expected next = .ok (false, b) := by
  rw [moveStage, hp]
  simp [hs]
  rfl

theorem moveStage_of_gone {expected : Stage} (hp : b.pairing? id = none) :
    b.moveStage {} id expected next = .ok (false, b) := by
  rw [moveStage, hp]
  rfl

theorem addMove_eq (hhas : b.pairings.has id) (before after : Stage) (operator reason : String) :
    b.addMove {} id before after operator reason =
      .ok (b.moves.next, b.withMove id before after operator reason) := by
  rw [addMove, if_pos hhas]
  rfl

end Books

namespace Courtship
variable {b : Books} {id : Int} {p : Pairing} {expected next : Stage} {operator reason : String}

theorem advance_of_missed (hm : b.moveStage {} id expected next = .ok (false, b)) :
    advance {} id expected next operator reason b = (.error (whyNot id expected next b), b) := by
  cases hl : expected.leadsTo next with
  | false => exact advance_of_not_leadsTo hl
  | true =>
    have hmove : move {} id expected next operator reason b =
        (.error (whyNot id expected next b), b) := by
      rw [move, if_pos hl, Work.bind_apply, Work.write, hm]
      rfl
    rw [advance, Work.commit_of_error hmove]

theorem whyNot_of_gone (hp : b.pairing? id = none) :
    whyNot id expected next b = .absent .pairing (toString id) := by
  rw [whyNot, Books.fetchPairing, hp]
  rfl

theorem whyNot_of_other (hp : b.pairing? id = some p) (hs : p.stage ≠ expected) :
    whyNot id expected next b = .wrongStage expected p.stage := by
  rw [whyNot, Books.fetchPairing_eq_ok.2 hp]
  exact if_pos hs

theorem whyNot_of_not_leadsTo (hp : b.pairing? id = some p)
    (hl : p.stage.leadsTo next = false) :
    whyNot id p.stage next b = .illegalMove p.stage next := by
  rw [whyNot, Books.fetchPairing_eq_ok.2 hp]
  simp [hl]

theorem move_eq (hb : b.Intact) (hp : b.pairing? id = some p) (hl : p.stage.leadsTo next) :
    move {} id p.stage next operator reason b =
      (.ok (), (Deed.move p next operator reason).carryOut b) := by
  obtain rfl : p.id = id := Table.id_of_find? hp
  have hstage := Books.moveStage_eq hb hp hl
  have hp' : (b.withStage p.id next).pairing? p.id = some { p with stage := next } :=
    Books.pairing?_withStage hp
  have hadd := Books.addMove_eq (Books.has_of_pairing? hp') p.stage next operator reason
  rw [Deed.carryOut_move hb.clients.sound]
  rw [move, if_pos hl]
  refine Work.bind_eq_ok.2 ⟨true, _, Work.write_eq_ok.2 hstage, ?_⟩
  refine Work.bind_eq_ok.2 ⟨_, _, Work.write_eq_ok.2 hadd, ?_⟩
  split
  · have hfetch : ((b.withStage p.id next).withMove p.id p.stage next operator reason).fetchPairing
        p.id = .ok { p with stage := next } := Books.fetchPairing_eq_ok.2 hp'
    exact Work.bind_eq_ok.2 ⟨_, _, Work.read_eq_ok.2 ⟨hfetch, rfl⟩, part_eq⟩
  · rfl

theorem strike_of_gone (hp : b.pairing? id = none) :
    strike {} id b = (.error (.absent .pairing (toString id)), b) := by
  have hremove : (Work.write fun b => b.removePairing {} id : Work Pairing) b =
      (.error (.absent .pairing (toString id)), b) := by
    rw [Work.write, Books.removePairing, hp]
    rfl
  have hstrike : (do part {} (← .write fun b => b.removePairing {} id) : Work Unit) b =
      (.error (.absent .pairing (toString id)), b) := by
    rw [Work.bind_apply, hremove]
  exact Work.commit_of_error hstrike

theorem advance_eq (hb : b.Intact) (hp : b.pairing? id = some p) (hl : p.stage.leadsTo next) :
    advance {} id p.stage next operator reason b =
      (.ok { p with stage := next }, (Deed.move p next operator reason).carryOut b) := by
  obtain rfl : p.id = id := Table.id_of_find? hp
  have hafter : ((Deed.move p next operator reason).carryOut b).pairing? p.id =
      some { p with stage := next } := Books.pairing?_withStage hp
  rw [advance, Work.commit_of_ok (move_eq hb hp hl)]
  dsimp only
  rw [Books.fetchPairing_eq_ok.2 hafter]
  rfl

end Courtship

namespace Courtship
variable {today : Date} {b : Books} {x y : Int} {admin remark : String} {p : NewPairing}

theorem claim_of_free (hx : (b.client? x).any Client.isFree) (hy : b.client? y ≠ none) :
    claim {} x y b =
      if b.isClaimed y then (.error (.collision (.claimed .partnerLink (toString y))), b)
      else (.ok (), b.wed x y) := by
  rw [claim_eq, Books.attach_eq, if_pos hx, if_pos (Books.has_iff_client?.2 hy), Books.isClaimed]
  cases b.clients.rows.any (·.partner == some y) <;> rfl

/-- Once the man is matched to the woman, whoever had him as partner before still has. -/
theorem isClaimed_wed (hb : b.clients.Sound) (hman : (b.client? p.man).any Client.isFree)
    (hne : p.man ≠ p.woman) : (b.wed p.man p.woman).isClaimed p.man = b.isClaimed p.man := by
  have hmatched : ∀ c ∈ b.clients.rows,
      (Client.wed p.man p.woman c).partner = some p.man ↔ c.partner = some p.man := by
    intro c hc
    rw [Client.wed]
    split
    · rename_i hid
      obtain ⟨d, hd, hfree⟩ := (Option.any_eq_true _ _).1 hman
      obtain rfl := hb.eq_of_find? hd hc hid
      rw [(Client.isFree_iff.1 hfree).2]
      simpa using hne.symm
    · rfl
  exact Books.isClaimed_mapClients hmatched

/-- Two who are free are matched unless one is claimed by somebody or they have a live pairing. -/
theorem commit_enter_of_free (hb : b.clients.Sound) (hman : (b.client? p.man).any Client.isFree)
    (hwoman : (b.client? p.woman).any Client.isFree) (hne : p.man ≠ p.woman) :
    (enter {} p).commit b =
      match b.planJoin p with
      | .error e => (.error e, b)
      | .ok _ => (.ok b.pairings.next, b.joined p) := by
  have hthere : ∀ {z}, (b.client? z).any Client.isFree → b.client? z ≠ none := by
    intro z hz hnone
    rw [hnone] at hz
    cases hz
  have hwed : (b.wed p.man p.woman).client? p.woman = b.client? p.woman := by
    rw [Books.wed, Books.client?_modifyClient, if_neg hne.symm]
  have hwedMan : (b.wed p.man p.woman).client? p.man ≠ none := by
    rw [Books.wed, Books.client?_modifyClient, if_pos rfl]
    simpa using hthere hman
  have hm := claim_of_free hman (hthere hwoman)
  have hw := claim_of_free (b := b.wed p.man p.woman) (hwed ▸ hwoman) hwedMan
  rw [isClaimed_wed hb hman hne] at hw
  rw [Books.planJoin]
  split at hm
  · rename_i hclaimed
    rw [if_pos hclaimed]
    exact commit_enter_of_man hm
  · rename_i hclaimed
    rw [if_neg hclaimed]
    split at hw
    · rename_i hclaimedMan
      rw [if_pos hclaimedMan]
      exact commit_enter_of_woman hm hw
    · rename_i hclaimedMan
      have hcount : ((b.wed p.man p.woman).wed p.woman p.man).liveCount = b.liveCount := rfl
      rw [if_neg hclaimedMan, commit_enter_of_claims hm hw, hcount]
      split <;> rfl

end Courtship

def Agency.answer (a : Agency) : Except AgencyError Deed → Except Failure Reply × Agency
  | .error e => (.error (.agency e), a)
  | .ok d => (.ok (d.reply a.books), { a with books := d.carryOut a.books })

namespace Agency
variable {a : Agency} {m : Moment} {id : Int} {expected next : Stage} {operator reason : String}

theorem settle_advance (hb : a.books.Intact) :
    a.settle (fun p => .book (.pairing p))
        (Courtship.advance {} id expected next operator reason a.books) =
      a.answer (a.books.planMove id expected next operator reason) := by
  rw [Books.planMove]
  cases hp : a.books.pairing? id with
  | none =>
    rw [Courtship.advance_of_missed (Books.moveStage_of_gone hp), Courtship.whyNot_of_gone hp]
    rfl
  | some p =>
    dsimp only
    by_cases hs : p.stage = expected
    · subst hs
      cases hl : p.stage.leadsTo next with
      | false =>
        rw [Courtship.advance_of_not_leadsTo hl, Courtship.whyNot_of_not_leadsTo hp hl]
        simp
        rfl
      | true =>
        rw [Courtship.advance_eq hb hp hl]
        simp
        rfl
    · rw [Courtship.advance_of_missed (Books.moveStage_of_other hp hs),
        Courtship.whyNot_of_other hp hs, if_pos hs]
      rfl

theorem settle_arrange {x y : Int} {admin remark : String} (hb : a.books.Intact) (today : Date) :
    a.settle (fun p => .book (.pairing p)) (Courtship.arrange {} today x y admin remark a.books) =
      a.answer ((Call.arrange x y admin remark).plan today a.books) := by
  rw [Courtship.arrange, Call.plan]
  cases hp : Courtship.propose today x y admin remark a.books with
  | error e => rfl
  | ok p =>
    dsimp only
    obtain ⟨man, woman, hman, hwoman, hmg, hwg, hmf, hwf⟩ := Courtship.parties_of_propose hp
    have hne : p.man ≠ p.woman := by
      intro heq
      rw [heq, hwoman] at hman
      cases hman
      rw [hwg] at hmg
      cases hmg
    have hcommit := Courtship.commit_enter_of_free hb.clients.sound (p := p)
      (by rw [hman]; exact hmf) (by rw [hwoman]; exact hwf) hne
    rw [hcommit]
    cases hplan : a.books.planJoin p with
    | error e => rfl
    | ok d =>
      obtain ⟨-, -, -, rfl⟩ := Books.planJoin_ok hplan
      have hfind := Books.pairing?_joined (p := p) hb.pairings.sound
      dsimp only
      rw [Books.fetchPairing_eq_ok.2 hfind, answer, Deed.carryOut_join]
      rfl

/-- With no hazards a call is answered as it is planned. -/
theorem serve_call (hh : a.hazards = {}) (hb : a.books.Intact) (c : Call) :
    a.serve m c.request = a.answer (c.plan m.today a.books) := by
  cases c with
  | arrange x y admin remark =>
    simp only [Call.request, serve, hh]
    exact settle_arrange hb m.today
  | advance id expected next operator reason =>
    simp only [Call.request, serve, hh]
    exact settle_advance hb
  | breakUp id operator reason =>
    simp only [Call.request, serve, hh, Courtship.breakUp, Call.plan, Books.fetchPairing]
    cases hp : a.books.pairing? id with
    | none => rfl
    | some p => exact settle_advance hb
  | strike id =>
    simp only [Call.request, serve, hh, Call.plan]
    cases hp : a.books.pairing? id with
    | none =>
      rw [Courtship.strike_of_gone hp]
      rfl
    | some p =>
      obtain rfl : p.id = id := Table.id_of_find? hp
      rw [Courtship.strike_eq hp, answer, Deed.carryOut_strike hb.clients.sound]
      rfl

end Agency

end Matchmaking
