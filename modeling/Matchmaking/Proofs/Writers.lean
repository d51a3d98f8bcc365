import Matchmaking.Proofs.Atomicity
import Matchmaking.Proofs.Contention
import Matchmaking.Proofs.Pass
import Matchmaking.Proofs.Progress
import Matchmaking.Proofs.Strokes

/-! What a request makes of a client who is there before and after it, on any books and with no
fault armed. -/
namespace Matchmaking

/-! A client, after the writes that are about several. -/

namespace Books
variable {b : Books} {id x y z : Int} {c' : Client} {f : Client → Client}

theorem client?_modifyClient_cases (hc : (b.modifyClient id f).client? x = some c')
    (hf : ∀ c, (f c).id = c.id := by intro; rfl) :
    b.client? x = some c' ∨ x = id ∧ ∃ c, b.client? x = some c ∧ c' = f c := by
  rw [client?_modifyClient hf] at hc
  split at hc
  · rename_i hx
    obtain ⟨c, hfind, rfl⟩ := Option.map_eq_some_iff.1 hc
    exact .inr ⟨hx, c, hx ▸ hfind, rfl⟩
  · exact .inl hc

theorem client?_release_cases (hc : (b.release x y).client? z = some c') :
    b.client? z = some c' ∨ ∃ c, b.client? z = some c ∧ (z = x ∧ c.partner = some y) ∧
      c' = { c with standing := .single, partner := none } := by
  rw [client?_release] at hc
  split at hc
  · rename_i hz
    obtain ⟨c, hfind, rfl⟩ := Option.map_eq_some_iff.1 hc
    have hpartner : c.partner = some y := (partner?_of_client? hfind).symm.trans hz.2
    exact .inr ⟨c, hz.1 ▸ hfind, ⟨hz.1, hpartner⟩, rfl⟩
  · exact .inl hc

theorem client?_parted_cases (hc : (b.parted x y).client? z = some c') :
    b.client? z = some c' ∨ ∃ c, b.client? z = some c ∧
      (z = x ∧ c.partner = some y ∨ z = y ∧ c.partner = some x) ∧
      c' = { c with standing := .single, partner := none } := by
  obtain hc | ⟨c, hfind, hlink, rfl⟩ := client?_release_cases hc
  · obtain hc | ⟨c, hfind, hlink, rfl⟩ := client?_release_cases hc
    · exact .inl hc
    · exact .inr ⟨c, hfind, .inl hlink, rfl⟩
  · -- whom the first release has freed has no partner for the second
    obtain hfind | ⟨d, -, -, rfl⟩ := client?_release_cases hfind
    · exact .inr ⟨c, hfind, .inr hlink, rfl⟩
    · cases hlink.2

theorem client?_foldl_cases {l : List Client}
    (hc : (l.foldl (fun b c => b.modifyClient c.id f) b).client? x = some c')
    (hf : ∀ c, (f c).id = c.id := by intro; rfl) (hff : ∀ c, f (f c) = f c := by intro; rfl) :
    b.client? x = some c' ∨ (∃ d ∈ l, d.id = x) ∧ ∃ c, b.client? x = some c ∧ c' = f c := by
  induction l generalizing b with
  | nil => exact .inl hc
  | cons d l ih =>
    obtain hrest | ⟨⟨d', hd', hid⟩, c, hfind, rfl⟩ := ih hc
    · obtain hfirst | ⟨rfl, c, hfind, rfl⟩ := client?_modifyClient_cases hrest hf
      · exact .inl hfirst
      · exact .inr ⟨⟨d, List.mem_cons_self, rfl⟩, c, hfind, rfl⟩
    · have hmem : ∃ d' ∈ d :: l, d'.id = x := ⟨d', List.mem_cons_of_mem d hd', hid⟩
      obtain hfirst | ⟨-, c, hfirst, rfl⟩ := client?_modifyClient_cases hfind hf
      · exact .inr ⟨hmem, c, hfirst, rfl⟩
      · exact .inr ⟨hmem, c, hfirst, hff c⟩

theorem client?_removed_cases (hb : b.clients.Sound) (hc : (b.removed id).client? x = some c') :
    b.client? x = some c' ∨ ∃ c, b.client? x = some c ∧ c.partner = some id ∧
      c' = { c with partner := none } := by
  have hbefore : ∀ {c}, (b.withoutClient id).client? x = some c → b.client? x = some c := by
    intro c hc
    rw [client?_withoutClient] at hc
    split at hc
    · cases hc
    · exact hc
  rw [removed] at hc
  obtain hc | ⟨⟨d, hd, hid⟩, c, hfind, rfl⟩ := client?_foldl_cases hc
  · exact .inl (hbefore hc)
  · obtain ⟨hrow, hpartner⟩ := List.mem_filter.1 hd
    obtain rfl : d = c := hb.erase.eq_of_find? hfind hrow hid
    exact .inr ⟨d, hbefore hfind, by simpa using hpartner, rfl⟩

theorem client?_joined_cases {p : NewPairing} (hj : b.CanJoin p)
    (hc : (b.joined p).client? x = some c') :
    b.client? x = some c' ∨ ∃ c, b.client? x = some c ∧ c.isFree ∧
      ∃ y, (x = p.man ∧ y = p.woman ∨ x = p.woman ∧ y = p.man) ∧
        c' = { c with standing := .matched, partner := some y } := by
  have hfree : ∀ {z c}, b.client? z = some c → z = p.man ∨ z = p.woman → c.isFree := by
    intro z c hc hz
    obtain ⟨man, hman, hmf⟩ := hj.man
    obtain ⟨woman, hwoman, hwf⟩ := hj.woman
    obtain rfl | rfl := hz
    · rwa [Option.some.inj (hc.symm.trans hman)]
    · rwa [Option.some.inj (hc.symm.trans hwoman)]
  have hwed : ((b.wed p.man p.woman).wed p.woman p.man).client? x = some c' := hc
  rw [wed] at hwed
  obtain hman | ⟨hx, c, hman, rfl⟩ := client?_modifyClient_cases hwed
  · rw [wed] at hman
    obtain hfind | ⟨hx, c, hfind, rfl⟩ := client?_modifyClient_cases hman
    · exact .inl hfind
    · exact .inr ⟨c, hfind, hfree hfind (.inl hx), p.woman, .inl ⟨hx, rfl⟩, rfl⟩
  · rw [wed] at hman
    obtain hfind | ⟨hx', -⟩ := client?_modifyClient_cases hman
    · exact .inr ⟨c, hfind, hfree hfind (.inr hx), p.man, .inr ⟨hx, rfl⟩, rfl⟩
    · exact absurd (hx'.symm.trans hx) hj.ne

end Books

/-! What a request makes of a client. -/

def Request.ended? : Request → Option Int
  | .advance id _ .broken _ _ | .breakUp id _ _ | .strike id => some id
  | _ => none

def Request.isTransaction : Request → Bool
  | .transaction _ _ => true
  | _ => false

def Request.isForced : Request → Bool
  | .forceStanding _ _ => true
  | _ => false

/-- What a request with its reply makes of a client who is there before and after. Each column is
written by its own requests only. -/
inductive Client.Becomes (b : Books) (m : Moment) (r : Request) (reply : Except Failure Reply)
    (c : Client) : Client → Prop
  | same : Becomes b m r reply c c
  | edited {p : Profile} (hr : r = .book (.editProfile c.id p)) (hp : p.check = .ok ())
      (hg : c.partner = none ∨ c.profile.gender = p.gender) :
      Becomes b m r reply c { c with profile := p.normalize }
  | listed {text : String} (hr : r = .book (.writeShortlist c.id text)) :
      Becomes b m r reply c { c with shortlist := some text }
  | swept {s : SweepSettings} {report : SweepReport} (hr : r = .sweep s)
      (hreply : reply = .ok (.sweep (.completed report))) (hc : c.isSingle) :
      Becomes b m r reply c
        { c with shortlist := some (writeShortlist (Sweep.shortlistFor m s b c)) }
  | attached {partner : Int} (hr : r = .book (.attach c.id partner)) :
      Becomes b m r reply c { c with standing := .matched, partner := some partner }
  | detached {partner : Int} (hr : r = .book (.detach c.id partner)) :
      Becomes b m r reply c { c with standing := .single, partner := none }
  | switched {s : Standing} (hr : r = .switchStanding c.id s) (hp : c.partner = none)
      (hc : c.standing = .single ∨ c.standing = .stopped) (hs : s = .single ∨ s = .stopped) :
      Becomes b m r reply c { c with standing := s }
  | arranged {x y partner : Int} {admin remark : String} {p : Pairing}
      (hr : r = .arrange x y admin remark) (hreply : reply = .ok (.book (.pairing p)))
      (hc : c.id = x ∧ partner = y ∨ c.id = y ∧ partner = x) (hfree : c.isFree) :
      Becomes b m r reply c { c with standing := .matched, partner := some partner }
  | parted {id : Int} {p : Pairing} (hr : r.ended? = some id) (hp : b.pairing? id = some p)
      (hc : c.partner ≠ none) (hother : p.otherParty c.id = c.partner) :
      Becomes b m r reply c { c with standing := .single, partner := none }
  | bereaved {id : Int} (hr : r = .removeClient id) (hc : c.partner = some id) :
      Becomes b m r reply c { c with partner := none }

def Books.Yields (b : Books) (m : Moment) (r : Request) (reply : Except Failure Reply) (x : Int)
    (c' : Client) : Prop :=
  (∃ c, b.client? x = some c ∧ c.Becomes b m r reply c') ∨
    ∃ p, r = .book (.register p) ∧ p.check = .ok () ∧ x = b.clients.next ∧
      c' = { id := x, profile := p.normalize }

namespace Books
variable {b b' : Books} {m : Moment} {r : Request} {reply : Except Failure Reply} {x id : Int}
variable {c' : Client} {p : Pairing} {f : Client → Client}

theorem Yields.same (hc : b.client? x = some c') : b.Yields m r reply x c' :=
  .inl ⟨c', hc, .same⟩

theorem Yields.modify (hc : (b.modifyClient id f).client? x = some c')
    (hbecomes : ∀ c, b.client? id = some c → c.id = id → c.Becomes b m r reply (f c))
    (hf : ∀ c, (f c).id = c.id := by intro; rfl) : b.Yields m r reply x c' := by
  obtain hc | ⟨rfl, c, hfind, rfl⟩ := client?_modifyClient_cases hc hf
  · exact .same hc
  · exact .inl ⟨c, hfind, hbecomes c hfind (Table.id_of_find? hfind)⟩

theorem Yields.parted (hc : (b'.parted p.man p.woman).client? x = some c')
    (hb : b'.clients = b.clients) (hr : r.ended? = some id) (hp : b.pairing? id = some p) :
    b.Yields m r reply x c' := by
  obtain hc | ⟨c, hfind, hlink, rfl⟩ := client?_parted_cases hc
  · exact .same (client?_of_clients hb ▸ hc)
  · have hfind : b.client? x = some c := client?_of_clients hb ▸ hfind
    have hid : c.id = x := Table.id_of_find? hfind
    have hother : p.otherParty c.id = c.partner := by
      rw [hid, Pairing.otherParty]
      obtain ⟨rfl, hpartner⟩ | ⟨rfl, hpartner⟩ := hlink
      · rw [if_pos rfl, hpartner]
      · rw [hpartner]
        split
        · rename_i hx
          rw [hx]
        · rw [if_pos rfl]
    have hlinked : c.partner ≠ none := by
      obtain ⟨-, hpartner⟩ | ⟨-, hpartner⟩ := hlink
      · rw [hpartner]
        exact Option.some_ne_none _
      · rw [hpartner]
        exact Option.some_ne_none _
    exact .inl ⟨c, hfind, .parted hr hp hlinked hother⟩

theorem Yields.removed (hb : b.clients.Sound) (hc : (b.removed id).client? x = some c') :
    b.Yields m (.removeClient id) reply x c' := by
  obtain hc | ⟨c, hfind, hpartner, rfl⟩ := client?_removed_cases hb hc
  · exact .same hc
  · exact .inl ⟨c, hfind, .bereaved rfl hpartner⟩

end Books

namespace BookRequest
variable {h : Hazards} {b b' : Books} {answer : BookReply} {m : Moment} {x : Int} {c' : Client}
variable {reply : Except Failure Reply}

theorem yields_of_attempt {r : BookRequest} (hf : h.faults = []) (hb : b.clients.Sound)
    (ha : r.attempt h b = .ok (answer, b')) (hc : b'.client? x = some c') :
    b.Yields m (.book r) reply x c' := by
  cases r with
  | register p =>
    obtain ⟨⟨n, b₁⟩, hreg, ha⟩ := bind_eq_ok.1 ha
    cases ha
    obtain ⟨hp, -, rfl⟩ := Books.register_ok hreg
    rw [Books.client?_withClient hb] at hc
    split at hc
    · cases hc
      exact .inr ⟨p, rfl, hp, ‹_›, rfl⟩
    · exact .same hc
  | editProfile id p =>
    obtain ⟨b₁, hedit, ha⟩ := bind_eq_ok.1 ha
    cases ha
    obtain ⟨hp, c, hfind, hg, rfl⟩ := Books.editProfile_ok hedit
    rw [Books.withProfile] at hc
    refine .modify hc fun d hd hid => ?_
    obtain rfl := Option.some.inj (hfind.symm.trans hd)
    exact .edited (by rw [hid]) hp hg
  | writeShortlist id text =>
    obtain ⟨b₁, hwrite, ha⟩ := bind_eq_ok.1 ha
    cases ha
    rw [Books.writeShortlist_ok hwrite, Books.withShortlist] at hc
    exact .modify hc fun d _ hid => .listed (by rw [hid])
  | attach id partner =>
    obtain ⟨⟨n, b₁⟩, hattach, ha⟩ := bind_eq_ok.1 ha
    cases ha
    obtain ⟨-, rfl⟩ | ⟨-, -, -, -, rfl⟩ := Books.attach_ok hattach
    · exact .same hc
    · rw [Books.setPartner_of_no_faults hf] at hc
      exact .modify hc fun d _ hid => .attached (by rw [hid])
  | detach id partner =>
    obtain ⟨⟨n, b₁⟩, hdetach, ha⟩ := bind_eq_ok.1 ha
    cases ha
    rw [Books.detach_ok hdetach, Books.setPartner_of_no_faults hf] at hc
    split at hc
    · exact .modify hc fun d _ hid => .detached (by rw [hid])
    · exact .same hc
  | addPairing p =>
    obtain ⟨⟨n, b₁⟩, hadd, ha⟩ := bind_eq_ok.1 ha
    cases ha
    obtain ⟨-, -, rfl⟩ := Books.addPairing_ok hadd
    exact .same hc
  | removePairing id =>
    obtain ⟨⟨p, b₁⟩, hremove, ha⟩ := bind_eq_ok.1 ha
    cases ha
    obtain ⟨-, rfl⟩ := Books.removePairing_ok hremove
    exact .same hc
  | moveStage id before after =>
    obtain ⟨⟨n, b₁⟩, hmove, ha⟩ := bind_eq_ok.1 ha
    cases ha
    obtain ⟨-, rfl⟩ | ⟨-, -, -, -, -, rfl⟩ := Books.moveStage_ok hmove
    · exact .same hc
    · exact .same hc
  | addMove id before after operator reason =>
    obtain ⟨⟨n, b₁⟩, hadd, ha⟩ := bind_eq_ok.1 ha
    cases ha
    obtain ⟨-, rfl⟩ := Books.addMove_ok hadd
    exact .same hc
  | takeLease key holder now ttl =>
    obtain ⟨⟨n, b₁⟩, htake, ha⟩ := bind_eq_ok.1 ha
    cases ha
    obtain ⟨l, rfl⟩ := Books.takeLease_ok htake
    exact .same hc
  | returnLease key holder =>
    obtain ⟨⟨n, b₁⟩, hreturn, ha⟩ := bind_eq_ok.1 ha
    cases ha
    obtain ⟨l, rfl⟩ := Books.returnLease_ok hreturn
    exact .same hc
  | client id =>
    obtain ⟨_, -, ha⟩ := bind_eq_ok.1 ha
    cases ha
    exact .same hc
  | pairing id =>
    obtain ⟨_, -, ha⟩ := bind_eq_ok.1 ha
    cases ha
    exact .same hc
  | _ =>
    cases ha
    exact .same hc

end BookRequest

namespace Courtship
variable {h : Hazards} {today : Date} {b : Books} {id x : Int} {m : Moment} {c' : Client}
variable {expected next : Stage} {operator reason : String} {r : Request}
variable {reply : Except Failure Reply}

theorem yields_of_advance (hf : h.faults = []) (hr : next = .broken → r.ended? = some id)
    (hc : (advance h id expected next operator reason b).2.client? x = some c') :
    b.Yields m r reply x c' := by
  rw [advance] at hc
  split at hc
  · rename_i hmove
    rw [Work.eq_of_commit_error hmove] at hc
    exact .same hc
  · rename_i hmove
    obtain ⟨p, hp, -, -, rfl⟩ := moved_of_move hf (Work.commit_eq_ok.1 hmove)
    split at hc
    · rename_i hnext
      have hparted : (((b.withStage id next).withMove id expected next operator reason).parted
          p.man p.woman).client? x = some c' := hc
      exact .parted hparted rfl (hr hnext) hp
    · exact .same hc

end Courtship

namespace Agency
variable {a : Agency} {m : Moment} {r : Request} {x : Int} {c' : Client}

theorem yields_of_arrange {y z : Int} {admin remark : String} (hf : a.hazards.faults = [])
    (hc : (a.serve m (.arrange x y admin remark)).2.books.client? z = some c') :
    a.books.Yields m (.arrange x y admin remark)
      (a.serve m (.arrange x y admin remark)).1 z c' := by
  have hbooks : (a.serve m (.arrange x y admin remark)).2.books =
      (Courtship.arrange a.hazards m.today x y admin remark a.books).2 := rfl
  rw [hbooks] at hc
  cases har : (Courtship.arrange a.hazards m.today x y admin remark a.books).1 with
  | error e =>
    rw [Courtship.snd_arrange_of_error har] at hc
    exact .same hc
  | ok p =>
    have hreply : (a.serve m (.arrange x y admin remark)).1 = .ok (.book (.pairing p)) := by
      simp only [serve, settle, har]
      rfl
    obtain hsame | ⟨q, hq, hj, hjoined⟩ := Courtship.joined_of_arrange hf
    · rw [hsame] at hc
      exact .same hc
    · rw [hjoined] at hc
      obtain hfind | ⟨c, hfind, hfree, partner, hparties, rfl⟩ := Books.client?_joined_cases hj hc
      · exact .same hfind
      · have hid : c.id = z := Table.id_of_find? hfind
        refine .inl ⟨c, hfind, .arranged rfl hreply ?_ hfree⟩
        rw [hid]
        obtain ⟨hman, hwoman⟩ | ⟨hman, hwoman⟩ := Courtship.names_of_propose hq
        · rwa [hman, hwoman] at hparties
        · rw [hman, hwoman] at hparties
          exact hparties.symm

theorem yields_of_sweep {s : SweepSettings} (hb : a.books.clients.Sound)
    (hc : (a.serve m (.sweep s)).2.books.client? x = some c') :
    a.books.Yields m (.sweep s) (a.serve m (.sweep s)).1 x c' := by
  have hbooks : (a.serve m (.sweep s)).2.books = (Sweep.run a.hazards m s a.books).2 := rfl
  cases hw : a.hazards.foreignWriter with
  | some f =>
    obtain ⟨e, hrun, -⟩ := Sweep.blocked_run (m := m) (s := s) (b := a.books) hw {}
    rw [hbooks, hrun] at hc
    exact .same hc
  | none =>
    have hrun := Sweep.run_eq_drawn (m := m) (s := s) hw hb
    rw [hbooks, hrun] at hc
    split at hc
    · exact .same hc
    · rename_i hfree
      have hreply : (a.serve m (.sweep s)).1 =
          .ok (.sweep (.completed (Sweep.tally a.hazards a.books))) := by
        simp only [serve, settle, hrun, if_neg hfree]
        rfl
      rw [Books.client?_annotated] at hc
      obtain ⟨c, hfind, rfl⟩ := Option.map_eq_some_iff.1 hc
      refine .inl ⟨c, hfind, ?_⟩
      rw [Sweep.drawnShortlist]
      split
      · rename_i hsingle
        exact .swept rfl hreply (Bool.and_eq_true_iff.1 hsingle).1
      · exact .same

/-- Whoever is there after a request was so before, and is what the request makes of them, or is
newly registered. -/
theorem yields_of_serve (hf : a.hazards.faults = []) (hb : a.books.clients.Sound)
    (ht : r.isTransaction = false) (hs : r.isForced = false)
    (hc : (a.serve m r).2.books.client? x = some c') :
    a.books.Yields m r (a.serve m r).1 x c' := by
  cases r with
  | book r =>
    generalize (a.serve m (.book r)).1 = reply
    revert hc
    exact books_settleBook (P := fun b => b.client? x = some c' → _) .same fun _ _ hok =>
      BookRequest.yields_of_attempt hf hb hok
  | removeClient id =>
    generalize (a.serve m (.removeClient id)).1 = reply
    revert hc
    refine books_settleBook_write (P := fun b => b.client? x = some c' → _) .same fun b hok hc => ?_
    obtain ⟨_, -, -, -, hl⟩ := Books.removeClient_ok hok
    rw [Books.foldl_of_bereave hf hl] at hc
    exact .removed hb hc
  | switchStanding id s =>
    generalize (a.serve m (.switchStanding id s)).1 = reply
    revert hc
    refine books_settleBook_write (P := fun b => b.client? x = some c' → _) .same fun b hok hc => ?_
    obtain ⟨hs, c, hfind, hp, hstanding, rfl⟩ := Books.switchStanding_ok hok
    rw [Books.setStanding] at hc
    refine .modify hc fun d hd hid => ?_
    obtain rfl := Option.some.inj (hfind.symm.trans hd)
    exact .switched (by rw [hid]) hp hstanding hs
  | arrange y z admin remark => exact yields_of_arrange hf hc
  | advance id expected next operator reason =>
    exact Courtship.yields_of_advance hf (fun hnext => by rw [hnext]; rfl) hc
  | breakUp id operator reason =>
    have hbooks : (Courtship.breakUp a.hazards id operator reason a.books).2.client? x =
        some c' := hc
    rw [Courtship.breakUp] at hbooks
    split at hbooks
    · exact .same hbooks
    · exact Courtship.yields_of_advance hf (fun _ => rfl) hbooks
  | strike id =>
    cases hst : Courtship.strike a.hazards id a.books with
    | mk result b =>
      have hbooks : (a.serve m (.strike id)).2.books = b := congrArg Prod.snd hst
      rw [hbooks] at hc
      cases result with
      | error e =>
        rw [Work.eq_of_commit_error hst] at hc
        exact .same hc
      | ok u =>
        obtain ⟨p, b₁, hremove, hpart⟩ := Courtship.strike_ok hst
        obtain ⟨hp, rfl⟩ := Books.removePairing_ok hremove
        rw [Courtship.parted_of_part hf hpart] at hc
        exact .parted hc rfl rfl hp
  | sweep s => exact yields_of_sweep hb hc
  | shortlist id =>
    generalize (a.serve m (.shortlist id)).1 = reply
    revert hc
    refine books_settleBook (P := fun b => b.client? x = some c' → _) .same fun _ b hok hc => ?_
    obtain ⟨_, -, hok⟩ := bind_eq_ok.1 hok
    cases hok
    exact .same hc
  | editMove id =>
    generalize (a.serve m (.editMove id)).1 = reply
    revert hc
    refine books_settleBook (P := fun b => b.client? x = some c' → _) .same fun _ b hok hc => ?_
    obtain ⟨_, -, hok⟩ := bind_eq_ok.1 hok
    cases hok
    exact .same hc
  | arm fault =>
    refine .same ?_
    rw [serve] at hc
    split at hc <;> exact hc
  | transaction rs ending => cases ht
  | forceStanding id s => cases hs
  | _ => exact .same hc

end Agency

end Matchmaking
