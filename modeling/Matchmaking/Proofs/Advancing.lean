import Matchmaking.Proofs.Deeds
import Matchmaking.Proofs.Trails

/-! What a move of a pairing and a strike come to. A move is tried before anything is read, and why
it missed is found out afterwards; the two agree on every stage that is stored, expected or asked
for. Where the two clients part, only a link to the other party is undone, whether it is half of
one, crossed with another pair's or a link to oneself. -/
namespace Matchmaking

def Client.partedBy (p : Pairing) (c : Client) : Client :=
  if c.id = p.man ∧ c.partner = some p.woman ∨ c.id = p.woman ∧ c.partner = some p.man then
    { c with standing := .single, partner := none }
  else c

namespace Books

def advanced (b : Books) (p : Pairing) (next : Stage) (operator reason : String) : Books where
  clients :=
    if next = .broken then { b.clients with rows := b.clients.rows.map (Client.partedBy p) }
    else b.clients
  pairings :=
    { b.pairings with
      rows := b.pairings.rows.map fun q => if q.id = p.id then { q with stage := next } else q }
  moves :=
    { rows := b.moves.rows ++ [⟨b.moves.last + 1, p.id, p.stage, next, operator, reason⟩]
      last := b.moves.last + 1 }
  leases := b.leases

def struck (b : Books) (p : Pairing) : Books where
  clients := { b.clients with rows := b.clients.rows.map (Client.partedBy p) }
  pairings := { b.pairings with rows := b.pairings.rows.filter (·.id != p.id) }
  moves := { b.moves with rows := b.moves.rows.filter (·.pairing != p.id) }
  leases := b.leases

end Books

/-- Parting the one and then the other parts whoever has the other as partner. A client parted
first has no partner to lose a second time. -/
theorem Client.release_release (p : Pairing) (c : Client) :
    (c.release p.man p.woman).release p.woman p.man = c.partedBy p := by
  rw [partedBy]
  by_cases hman : c.id = p.man ∧ c.partner = some p.woman
  · simp [release, hman]
  · simp [release, hman]

namespace Deed
variable {b : Books} {p : Pairing} {next : Stage} {operator reason : String}

theorem carryOut_move_eq_advanced :
    (move p next operator reason).carryOut b = b.advanced p next operator reason := by
  by_cases hnext : next = .broken
  · have honClient : (move p next operator reason).onClient = Client.partedBy p := by
      funext c
      rw [onClient, if_pos hnext, Client.release_release]
    rw [carryOut, honClient, Books.advanced, if_pos hnext]
    rfl
  · have honClient : (move p next operator reason).onClient = id := by
      funext c
      rw [onClient, if_neg hnext, id]
    rw [carryOut, honClient, Books.mapClients_id, Books.advanced, if_neg hnext]
    rfl

theorem carryOut_strike_eq_struck : (strike p).carryOut b = b.struck p := by
  have honClient : (strike p).onClient = Client.partedBy p := funext (Client.release_release p)
  rw [carryOut, honClient]
  rfl

end Deed

namespace Agency
variable {a : Agency} {m : Moment} {id : Int} {expected next : Stage} {operator reason : String}
variable {p : Pairing}

theorem serve_advance (hh : a.hazards = {}) (hb : a.books.Intact) :
    a.serve m (.advance id expected next operator reason) =
      match a.books.pairing? id with
      | none => (.error (.agency (.absent .pairing (toString id))), a)
      | some p =>
        if p.stage ≠ expected then (.error (.agency (.wrongStage expected p.stage)), a)
        else if !expected.leadsTo next then (.error (.agency (.illegalMove expected next)), a)
        else
          (.ok (.book (.pairing { p with stage := next })),
            { a with books := a.books.advanced p next operator reason }) := by
  have hserve := serve_call (m := m) hh hb (.advance id expected next operator reason)
  refine hserve.trans ?_
  rw [Call.plan, Books.planMove]
  cases a.books.pairing? id with
  | none => rfl
  | some p =>
    dsimp only
    by_cases hs : p.stage = expected
    · subst hs
      cases hl : p.stage.leadsTo next with
      | false => simp [answer]
      | true => simp [answer, Deed.reply, Deed.carryOut_move_eq_advanced]
    · simp [hs, answer]

theorem serve_strike (hh : a.hazards = {}) (hb : a.books.Intact)
    (hp : a.books.pairing? id = some p) :
    a.serve m (.strike id) = (.ok (.book .done), { a with books := a.books.struck p }) := by
  have hserve := serve_call (m := m) hh hb (.strike id)
  rw [Call.plan, hp] at hserve
  refine hserve.trans ?_
  rw [answer, Deed.carryOut_strike_eq_struck]
  rfl

/-- After any requests, with no fault armed and nobody else writing, a pairing that is there is
moved if it is in the stage that is expected and that stage leads to the next one. Its stage
changes, the move is noted, the two part if it is a break, and nothing else changes. Otherwise the
answer says which of the three was not so, and is never that somebody else was in the way. A break
that expects no stage is a move from the stage that the pairing is in. -/
theorem advance_outcome (rs : List (Moment × Request))
    (hh : (({} : Agency).after rs).hazards = {}) (m : Moment) (id : Int) (expected next : Stage)
    (operator reason : String) :
    let a := ({} : Agency).after rs
    let moved := a.serve m (.advance id expected next operator reason)
    (moved =
      match a.books.pairing? id with
      | none => (.error (.agency (.absent .pairing (toString id))), a)
      | some p =>
        if p.stage ≠ expected then (.error (.agency (.wrongStage expected p.stage)), a)
        else if !expected.leadsTo next then (.error (.agency (.illegalMove expected next)), a)
        else
          (.ok (.book (.pairing { p with stage := next })),
            { a with books := a.books.advanced p next operator reason })) ∧
    (∀ cause, moved.1 ≠ .error (.agency (.collision cause))) ∧
    a.serve m (.breakUp id operator reason) =
      match a.books.pairing? id with
      | none => (.error (.agency (.absent .pairing (toString id))), a)
      | some p => a.serve m (.advance id p.stage .broken operator reason) := by
  intro a moved
  have hb : a.books.Intact := intact_after Books.intact_empty
  have hmoved : moved = _ := serve_advance hh hb
  refine ⟨hmoved, fun cause hcause => ?_, ?_⟩
  · rw [hmoved] at hcause
    cases hp : a.books.pairing? id with
    | none => simp [hp] at hcause
    | some p =>
      simp only [hp] at hcause
      split at hcause
      · cases hcause
      · split at hcause <;> cases hcause
  · cases hp : a.books.pairing? id with
    | none => exact serve_breakUp_of_none hp
    | some p => exact serve_breakUp hp

end Agency

namespace Sample

def crossedLinks : List (Moment × Request) :=
  [.book (.register man), .book (.register woman), .book (.register woman), .book (.attach 2 1),
    .book (.attach 1 3), .book (.addPairing { man := 1, woman := 2 })].map (newYear, ·)

end Sample

/-- The break frees her and leaves him with the other woman. Where the stage is another one than
expected it does not matter that the move is not allowed either. -/
theorem Agency.advance_outcome_sample :
    let a := ({} : Agency).after Sample.crossedLinks
    a.hazards = {} ∧ ∃ p, a.books.pairing? 1 = some p ∧
      let b := a.books.advanced p .broken "Ann" "a mistake"
      a.serve Sample.newYear (.advance 1 .acquaintance .broken "Ann" "a mistake") =
          (.ok (.book (.pairing { p with stage := .broken })), { a with books := b }) ∧
        b.partner? 1 = some 3 ∧ b.partner? 2 = none ∧
        a.serve Sample.newYear (.advance 1 .dating .acquaintance "Ann" "") =
          (.error (.agency (.wrongStage .dating .acquaintance)), a) := by
  intro a
  have hnew : ∃ p ∈ a.books.pairings.rows, a.books.pairing? 1 = some p ∧
      p.stage = .acquaintance ∧
      (a.books.advanced p .broken "Ann" "a mistake").partner? 1 = some 3 ∧
      (a.books.advanced p .broken "Ann" "a mistake").partner? 2 = none := by
    decide +kernel
  obtain ⟨p, -, hp, hstage, hman, hwoman⟩ := hnew
  obtain ⟨hbroken, -⟩ := advance_outcome Sample.crossedLinks rfl Sample.newYear 1 .acquaintance
    .broken "Ann" "a mistake"
  obtain ⟨hmissed, -⟩ := advance_outcome Sample.crossedLinks rfl Sample.newYear 1 .dating
    .acquaintance "Ann" ""
  have hp' : (({} : Agency).after Sample.crossedLinks).books.pairing? 1 = some p := hp
  simp only [hp', hstage] at hbroken hmissed
  exact ⟨rfl, p, hp, hbroken, hman, hwoman, hmissed⟩

end Matchmaking
