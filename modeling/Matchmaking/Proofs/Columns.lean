import Matchmaking.Proofs.Writers

/-! Who writes which column of a client. The profile, the shortlist, and the standing with the
partner have their own writers: on any books a step is one of them or leaves the column alone, and
it writes no other client than the one it is about, but for those whom it unlinks. -/
namespace Matchmaking

theorem Books.Stroke.sound_clients {marks : Prop} {b b' : Books} (hs : b.Stroke marks b')
    (hb : b.clients.Sound) : b'.clients.Sound := by
  cases hs with
  | register p =>
    have hadd : (b.clients.add fun id => ({ id, profile := p } : Client)).Sound := hb.add rfl
    exact hadd
  | revise hid hp => exact hb.map_rows hid
  | attach hid hp hno hhas => exact hb.map_rows hid
  | remove hid hp => exact hb.erase.map_rows hid
  | _ => exact hb

namespace Agency
variable {a : Agency} {m : Moment} {r : Request}

/-! A request that fails, whatever it is. -/

theorem eq_self_of_settleBook_error {α : Type} {reply : α → Reply} {e : Failure}
    {r : Except BookError (α × Books)} (he : (a.settleBook reply r).1 = .error e) :
    (a.settleBook reply r).2 = a := by
  cases r with
  | error e' => rfl
  | ok y => cases he

theorem snd_run_of_error {h : Hazards} {s : SweepSettings} {b : Books} {e : AgencyError}
    (he : (Sweep.run h m s b).1 = .error e) : (Sweep.run h m s b).2 = b := by
  rw [Sweep.run] at he ⊢
  split
  · rfl
  · rename_i ht
    rw [ht] at he
    cases he
  · rename_i ht
    rw [ht] at he
    dsimp only at he
    split at he <;> cases he

theorem eq_self_of_error {e : Failure} (he : (a.serve m r).1 = .error e) : (a.serve m r).2 = a := by
  cases r with
  | book r => exact eq_self_of_settleBook_error he
  | transaction rs ending => cases he
  | removeClient id => exact eq_self_of_settleBook_error he
  | switchStanding id s => exact eq_self_of_settleBook_error he
  | arrange x y admin remark =>
    obtain ⟨_, he⟩ := error_of_settle he
    exact settle_eq_self (Courtship.snd_arrange_of_error he)
  | advance id expected next operator reason =>
    obtain ⟨_, he⟩ := error_of_settle he
    exact settle_eq_self (Courtship.snd_advance_of_error he)
  | breakUp id operator reason =>
    obtain ⟨_, he⟩ := error_of_settle he
    exact settle_eq_self (Courtship.snd_breakUp_of_error he)
  | strike id =>
    obtain ⟨_, he⟩ := error_of_settle he
    exact settle_eq_self (Courtship.snd_strike_of_error he)
  | sweep s =>
    obtain ⟨_, he⟩ := error_of_settle he
    exact settle_eq_self (snd_run_of_error he)
  | shortlist id => exact eq_self_of_settleBook_error he
  | forceStanding id s => exact eq_self_of_settleBook_error he
  | editMove id => exact eq_self_of_settleBook_error he
  | arm fault =>
    rw [serve] at he ⊢
    split
    · rename_i hok
      rw [hok] at he
      cases he
    · rfl
  | _ => first | rfl | cases he

/-! The steps of a request: those of a transaction are the requests made in it. -/

def trace (m : Moment) : Agency → List Request → List (Agency × Request)
  | _, [] => []
  | a, r :: rs => (a, r) :: trace m (a.serve m r).2 rs

def steps (a : Agency) (m : Moment) : Request → List (Agency × Request)
  | .transaction rs _ => trace m a (rs.map .book)
  | r => [(a, r)]

variable {q : Agency × Request}

theorem mem_trace {rs : List Request} (hq : q ∈ trace m a rs) : q.2 ∈ rs := by
  induction rs generalizing a with
  | nil => cases hq
  | cons r rs ih =>
    obtain rfl | hq := List.mem_cons.1 hq
    · exact List.mem_cons_self
    · exact List.mem_cons_of_mem _ (ih hq)

theorem of_mem_trace {P : Agency → Prop} {rs : List Request} (ha : P a)
    (hstep : ∀ a, ∀ r ∈ rs, P a → P (a.serve m r).2) (hq : q ∈ trace m a rs) : P q.1 := by
  induction rs generalizing a with
  | nil => cases hq
  | cons r rs ih =>
    obtain rfl | hq := List.mem_cons.1 hq
    · exact ha
    · exact ih (hstep a r List.mem_cons_self ha)
        (fun a r hr => hstep a r (List.mem_cons_of_mem _ hr)) hq

theorem steps_eq (ht : r.isTransaction = false) : a.steps m r = [(a, r)] := by
  cases r with
  | transaction rs ending => cases ht
  | _ => rfl

/-- A step is the request itself, or one made in the transaction. -/
theorem mem_steps (hq : q ∈ a.steps m r) :
    r.isTransaction = false ∧ q = (a, r) ∨
      ∃ rs ending, r = .transaction rs ending ∧ ∃ r' ∈ rs, q.2 = .book r' := by
  cases ht : r.isTransaction with
  | false =>
    rw [steps_eq ht] at hq
    exact .inl ⟨rfl, List.mem_singleton.1 hq⟩
  | true =>
    cases r with
    | transaction rs ending =>
      obtain ⟨r, hr, hbook⟩ := List.mem_map.1 (mem_trace hq)
      exact .inr ⟨rs, ending, rfl, r, hr, hbook.symm⟩
    | _ => cases ht

theorem of_mem_steps {P : Agency → Prop} (ha : P a)
    (hstep : ∀ a, ∀ r : BookRequest, P a → P (a.serve m (.book r)).2) (hq : q ∈ a.steps m r) :
    P q.1 := by
  cases ht : r.isTransaction with
  | false =>
    rw [steps_eq ht, List.mem_singleton] at hq
    rw [hq]
    exact ha
  | true =>
    cases r with
    | transaction rs ending =>
      refine of_mem_trace ha (fun a r hr ha => ?_) hq
      obtain ⟨r, -, rfl⟩ := List.mem_map.1 hr
      exact hstep a r ha
    | _ => cases ht

theorem hazards_of_mem_steps (hq : q ∈ a.steps m r) : q.1.hazards = a.hazards := by
  refine of_mem_steps (P := fun b => b.hazards = a.hazards) rfl (fun b r hb => ?_) hq
  exact (hazards_serve rfl).trans hb

theorem serve_book {r : BookRequest} :
    (a.serve m (.book r)).2 = { a with books := (r.run a.hazards a.books).2 } := by
  rw [serve, BookRequest.run]
  cases r.attempt a.hazards a.books <;> rfl

/-- What holds before a request and is kept by its steps, holds after it. -/
theorem books_of_steps {P : Books → Prop} (ha : P a.books)
    (hstep : ∀ q ∈ a.steps m r, P q.1.books → P (q.1.serve m q.2).2.books) :
    P (a.serve m r).2.books := by
  cases ht : r.isTransaction with
  | false =>
    rw [steps_eq ht] at hstep
    exact hstep (a, r) List.mem_cons_self ha
  | true =>
    cases r with
    | transaction rs ending =>
      have hall : ∀ (rs : List BookRequest) (a : Agency), P a.books →
          (∀ q ∈ trace m a (rs.map .book), P q.1.books → P (q.1.serve m q.2).2.books) →
          P (BookRequest.runAll a.hazards rs a.books).2 := by
        intro rs
        induction rs with
        | nil => exact fun a ha _ => ha
        | cons r rs ih =>
          intro a ha hstep
          have hfirst := hstep (a, .book r) List.mem_cons_self ha
          have hrest := ih (a.serve m (.book r)).2 hfirst fun q hq =>
            hstep q (List.mem_cons_of_mem _ hq)
          rw [serve_book] at hrest
          exact hrest
      rw [serve]
      dsimp only
      split
      · exact hall rs a ha hstep
      · exact ha
    | _ => cases ht

theorem sound_of_serve (hb : a.books.clients.Sound) : (a.serve m r).2.books.clients.Sound := by
  have hstrokes : a.books.Strokes True (a.serve m r).2.books := strokes_of_serve fun _ => trivial
  exact hstrokes.keep (P := fun b => b.clients.Sound) Books.Stroke.sound_clients hb

end Agency

/-! The writers of each column. -/

inductive Client.Relinks (b : Books) (r : Request) (reply : Except Failure Reply)
    (c c' : Client) : Prop
  | attach {partner : Int} (hr : r = .book (.attach c.id partner))
  | detach {partner : Int} (hr : r = .book (.detach c.id partner))
  | switch {s : Standing} (hr : r = .switchStanding c.id s) (hp : c.partner = none)
      (hp' : c'.partner = none) (hs : c.standing = .single ∨ c.standing = .stopped)
      (hs' : c'.standing = .single ∨ c'.standing = .stopped)
  | arrange {x y : Int} {admin remark : String} {p : Pairing} (hr : r = .arrange x y admin remark)
      (hreply : reply = .ok (.book (.pairing p))) (hc : c.id = x ∨ c.id = y)
  | part {id : Int} {p : Pairing} (hr : r.ended? = some id) (hp : b.pairing? id = some p)
      (hc : p.names c.id) (hother : c.partner = p.otherParty c.id)
  | bereave {id : Int} (hr : r = .removeClient id) (hc : c.partner = some id)
      (hp' : c'.partner = none) (hs : c'.standing = c.standing)

/-- Each column of a client is written by its own requests. -/
structure Client.Owned (b : Books) (r : Request) (reply : Except Failure Reply)
    (c c' : Client) : Prop where
  number : c'.id = c.id
  profile : c'.profile ≠ c.profile → ∃ p, r = .book (.editProfile c.id p)
  shortlist : c'.shortlist ≠ c.shortlist →
    (∃ text, r = .book (.writeShortlist c.id text)) ∨
      c.isSingle ∧ ∃ s report, r = .sweep s ∧ reply = .ok (.sweep (.completed report))
  link : c'.standing ≠ c.standing ∨ c'.partner ≠ c.partner → c.Relinks b r reply c'
  gender : c.partner ≠ none → c'.profile.gender = c.profile.gender

namespace Client
variable {b : Books} {m : Moment} {r : Request} {reply : Except Failure Reply} {c c' : Client}

theorem Becomes.owned (h : c.Becomes b m r reply c') : c.Owned b r reply c' := by
  -- a column that was not written has no change to explain
  have hsame : ∀ {α : Type} {x : α} {P : Prop}, x ≠ x → P := fun hne => absurd rfl hne
  have hkept : ∀ {P : Prop}, c.standing ≠ c.standing ∨ c.partner ≠ c.partner → P :=
    fun hne => hne.elim hsame hsame
  cases h with
  | same => exact ⟨rfl, hsame, hsame, hkept, fun _ => rfl⟩
  | @edited p hr hp hg =>
    exact ⟨rfl, fun _ => ⟨p, hr⟩, hsame, hkept, fun hlinked => (hg.resolve_left hlinked).symm⟩
  | @listed text hr => exact ⟨rfl, hsame, fun _ => .inl ⟨text, hr⟩, hkept, fun _ => rfl⟩
  | @swept s report hr hreply hc =>
    exact ⟨rfl, hsame, fun _ => .inr ⟨hc, s, report, hr, hreply⟩, hkept, fun _ => rfl⟩
  | attached hr => exact ⟨rfl, hsame, hsame, fun _ => .attach hr, fun _ => rfl⟩
  | detached hr => exact ⟨rfl, hsame, hsame, fun _ => .detach hr, fun _ => rfl⟩
  | switched hr hp hc hs => exact ⟨rfl, hsame, hsame, fun _ => .switch hr hp hp hc hs, fun _ => rfl⟩
  | arranged hr hreply hc hfree =>
    have hnamed := hc.imp And.left And.left
    exact ⟨rfl, hsame, hsame, fun _ => .arrange hr hreply hnamed, fun _ => rfl⟩
  | @parted id p hr hp hc hother =>
    have hnamed : p.names c.id := by
      rw [Pairing.names]
      rw [Pairing.otherParty] at hother
      by_cases hman : c.id = p.man
      · simp [hman]
      · by_cases hwoman : c.id = p.woman
        · simp [hwoman]
        · rw [if_neg hman, if_neg hwoman] at hother
          exact absurd hother.symm hc
    exact ⟨rfl, hsame, hsame, fun _ => .part hr hp hnamed hother.symm, fun _ => rfl⟩
  | bereaved hr hc => exact ⟨rfl, hsame, hsame, fun _ => .bereave hr hc rfl rfl, fun _ => rfl⟩

end Client

namespace Agency
variable {a : Agency} {m : Moment} {r : Request} {q : Agency × Request}

/-- On any books without armed faults, each step of a request, alone or in a transaction, writes a
column of a client only if it is one of the column's own writers, and none if it fails. The gender
of a client who has a partner is never written. -/
theorem columns_owned (hf : a.hazards.faults = []) (hb : a.books.clients.Sound)
    (hr : r.isForced = false) (hq : q ∈ a.steps m r) :
    (∀ e, (q.1.serve m q.2).1 = .error e → (q.1.serve m q.2).2.books = q.1.books) ∧
      ∀ x c c', q.1.books.client? x = some c → (q.1.serve m q.2).2.books.client? x = some c' →
        c.Owned q.1.books q.2 (q.1.serve m q.2).1 c' := by
  have hqf : q.1.hazards.faults = [] := by rw [hazards_of_mem_steps hq, hf]
  have hqb : q.1.books.clients.Sound :=
    of_mem_steps (P := fun a => a.books.clients.Sound) hb (fun _ _ => sound_of_serve) hq
  obtain ⟨hqt, hqr⟩ : q.2.isTransaction = false ∧ q.2.isForced = false := by
    obtain ⟨ht, rfl⟩ | ⟨rs, ending, -, r', -, hbook⟩ := mem_steps hq
    · exact ⟨ht, hr⟩
    · rw [hbook]
      exact ⟨rfl, rfl⟩
  refine ⟨fun e he => congrArg books (eq_self_of_error he), fun x c c' hc hc' => ?_⟩
  obtain ⟨d, hd, hbecomes⟩ | ⟨p, -, -, hx, -⟩ := yields_of_serve hqf hqb hqt hqr hc'
  · obtain rfl := Option.some.inj (hc.symm.trans hd)
    exact hbecomes.owned
  · -- nobody is there under the number of a client who is yet to be registered
    have hnone : q.1.books.client? x = none := hx ▸ hqb.find?_next
    rw [hnone] at hc
    cases hc

end Agency

/-- A transaction on a couple writes the man's shortlist, and then unlinks him from the woman. -/
theorem Agency.columns_owned_sample :
    let a := ({} : Agency).after Sample.couple
    let r : Request := .transaction [.writeShortlist 1 "[]", .detach 1 2] .commit
    a.hazards.faults = [] ∧ a.books.clients.Sound ∧ r.isForced = false ∧
      ∀ q ∈ a.steps Sample.newYear r, ∃ c c', q.1.books.client? 1 = some c ∧
        (q.1.serve Sample.newYear q.2).2.books.client? 1 = some c' ∧ c ≠ c' ∧
          c.Owned q.1.books q.2 (q.1.serve Sample.newYear q.2).1 c' := by
  intro a r
  have hb : a.books.clients.Sound := ⟨by decide +kernel, by decide +kernel⟩
  have hchanged : ∀ q ∈ a.steps Sample.newYear r, ∃ c c', q.1.books.client? 1 = some c ∧
      (q.1.serve Sample.newYear q.2).2.books.client? 1 = some c' ∧ c ≠ c' := by
    intro q hq
    obtain rfl | hq := List.mem_cons.1 hq
    · exact ⟨_, _, rfl, rfl, by decide +kernel⟩
    · obtain rfl := List.mem_singleton.1 hq
      exact ⟨_, _, rfl, rfl, by decide +kernel⟩
  refine ⟨rfl, hb, rfl, fun q hq => ?_⟩
  obtain ⟨c, c', hc, hc', hne⟩ := hchanged q hq
  exact ⟨c, c', hc, hc', hne, (columns_owned rfl hb rfl hq).2 1 c c' hc hc'⟩

end Matchmaking
