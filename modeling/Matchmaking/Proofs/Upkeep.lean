import Matchmaking.Proofs.Links
import Matchmaking.Proofs.Requests

/-! What a request that keeps clients and shortlists can do to the books when no fault is armed.
A sweep, however many pages and failures it has, only rewrites shortlists. -/
namespace Matchmaking

namespace Books

section
variable (b : Books)

def annotated (g : Client → Option String) (l : List Lease) : Books :=
  { b with
    clients := { b.clients with rows := b.clients.rows.map fun c => { c with shortlist := g c } }
    leases := l }

def removed (id : Int) : Books :=
  ((b.withoutClient id).clients.rows.filter (·.partner == some id)).foldl
    (fun b c => b.modifyClient c.id fun c => { c with partner := none }) (b.withoutClient id)

end

variable {b b' b'' : Books} {h : Hazards}

inductive Upkeep (b : Books) : Books → Prop
  | keep : Upkeep b b
  | annotate (g : Client → Option String) (l : List Lease) : Upkeep b (b.annotated g l)
  | register (p : Profile) : Upkeep b (b.withClient p)
  | edit {id : Int} {p : Profile} {c : Client} (hc : b.client? id = some c)
      (hg : c.partner = none ∨ c.profile.gender = p.gender) : Upkeep b (b.withProfile id p)
  | remove {id : Int} {c : Client} (hc : b.client? id = some c)
      (hs : c.standing ≠ .matching ∧ c.standing ≠ .matched) : Upkeep b (b.removed id)
  | switch {id : Int} {c : Client} {s : Standing} (hc : b.client? id = some c)
      (hp : c.partner = none) (hs : s = .single ∨ s = .stopped) : Upkeep b (setStanding s b id)

/-! Shortlists and leases. -/

def Annotates (b b' : Books) : Prop := ∃ g l, b' = b.annotated g l

theorem Annotates.refl (b : Books) : b.Annotates b :=
  ⟨Client.shortlist, b.leases, by simp [annotated]⟩

theorem Annotates.trans (h₁ : b.Annotates b') (h₂ : b'.Annotates b'') : b.Annotates b'' := by
  obtain ⟨g, l, rfl⟩ := h₁
  obtain ⟨g', l', rfl⟩ := h₂
  exact ⟨fun c => g' { c with shortlist := g c }, l', by simp [annotated, Function.comp_def]⟩

theorem annotates_withShortlist (id : Int) (text : String) :
    b.Annotates (b.withShortlist id text) := by
  refine ⟨fun c => if c.id = id then some text else c.shortlist, b.leases, ?_⟩
  simp only [withShortlist, modifyClient, Table.modify, annotated, Numbered.id]
  congr 2
  refine List.map_congr_left fun c _ => ?_
  by_cases hc : c.id = id <;> simp [hc]

theorem annotates_withLeases (l : List Lease) : b.Annotates (b.withLeases l) :=
  ⟨Client.shortlist, l, by simp [annotated, withLeases]⟩

theorem Annotates.upkeep (hb : b.Annotates b') : b.Upkeep b' := by
  obtain ⟨g, l, rfl⟩ := hb
  exact .annotate g l

end Books

namespace Sweep
variable {h : Hazards} {m : Moment} {s : SweepSettings}

theorem annotates_visit (state : SweepReport × Books) (c : Client) :
    state.2.Annotates (visit h m s state c).2 := by
  rw [visit]
  dsimp only
  split
  · rename_i hw
    rw [Books.writeShortlist_ok hw]
    exact Books.annotates_withShortlist _ _
  · exact .refl _

theorem annotates_foldl_visit (l : List Client) (state : SweepReport × Books) :
    state.2.Annotates (l.foldl (visit h m s) state).2 := by
  induction l generalizing state with
  | nil => exact .refl _
  | cons c l ih => exact (annotates_visit state c).trans (ih _)

theorem annotates_walk (cursor : Option Int) (report : SweepReport) (b : Books) :
    b.Annotates (walk h m s cursor report b).2 := by
  induction cursor, report, b using walk.induct h m s with
  | case1 cursor report b hl =>
    rw [walk]
    split
    · exact .refl _
    · simp_all
  | case2 cursor report b last hl hshort =>
    rw [walk]
    split
    · simp_all
    · rw [if_pos hshort]
      exact annotates_foldl_visit _ (report, b)
  | case3 cursor report b last hl next hfull ih =>
    rw [walk]
    split
    · simp_all
    · rename_i last' hl'
      obtain rfl : last = last' := Option.some.inj (hl.symm.trans hl')
      rw [if_neg hfull]
      exact (annotates_foldl_visit _ (report, b)).trans ih

theorem annotates_run (b : Books) : b.Annotates (run h m s b).2 := by
  rw [run]
  split
  · exact .refl _
  · rename_i ht
    obtain ⟨l, rfl⟩ := Books.takeLease_ok ht
    exact Books.annotates_withLeases l
  · rename_i b₁ ht
    obtain ⟨l, rfl⟩ := Books.takeLease_ok ht
    have hwalk : b.Annotates (walk h m s none {} (b.withLeases l)).2 :=
      (Books.annotates_withLeases l).trans (annotates_walk none {} _)
    dsimp only
    split
    · rename_i hr
      obtain ⟨l', rfl⟩ := Books.returnLease_ok hr
      exact hwalk.trans (Books.annotates_withLeases l')
    · exact hwalk

end Sweep

namespace Books
variable {h : Hazards} {b b' : Books} {id : Int}

theorem foldl_of_bereave (hf : h.faults = []) {l : List Client}
    (hl : l.foldlM (fun b c => b.bereave h c.id) b = .ok b') :
    b' = l.foldl (fun b c => b.modifyClient c.id fun c => { c with partner := none }) b := by
  induction l generalizing b with
  | nil =>
    cases hl
    rfl
  | cons c l ih =>
    obtain ⟨b₁, hb, hl⟩ := bind_eq_ok.1 hl
    rw [List.foldl_cons, ← setPartner_of_no_faults hf, ← bereave_ok hb]
    exact ih hl

theorem upkeep_of_removeClient (hf : h.faults = []) (hr : b.removeClient h id = .ok b') :
    b.Upkeep b' := by
  obtain ⟨c, hc, hm, hm', hl⟩ := removeClient_ok hr
  rw [foldl_of_bereave hf hl]
  exact .remove hc ⟨hm, hm'⟩

end Books

namespace Agency
variable {a : Agency} {m : Moment} {r : Request}

/-- A write that answers nothing leaves the books as they were, or as it says. -/
theorem books_settleBook_write {α : Type} {P : Books → Prop} {reply : α → Reply} {x : α}
    {w : Except BookError Books} (hkeep : P a.books) (hok : ∀ b, w = .ok b → P b) :
    P (a.settleBook reply (do pure (x, ← w))).2.books := by
  refine books_settleBook hkeep fun _ _ h => ?_
  obtain ⟨_, hw, h⟩ := bind_eq_ok.1 h
  cases h
  exact hok _ hw

/-- A request of upkeep is one step of upkeep. -/
theorem upkeep_of_serve (hf : a.hazards.faults = []) (hr : r.isUpkeep) :
    a.books.Upkeep (a.serve m r).2.books := by
  cases r with
  | book r =>
    cases r with
    | register p =>
      refine books_settleBook .keep fun _ _ hok => ?_
      obtain ⟨⟨n, b⟩, hreg, hok⟩ := bind_eq_ok.1 hok
      cases hok
      obtain ⟨-, -, rfl⟩ := Books.register_ok hreg
      exact .register _
    | editProfile id p =>
      refine books_settleBook_write .keep fun _ hedit => ?_
      obtain ⟨-, c, hc, hg, rfl⟩ := Books.editProfile_ok hedit
      exact .edit hc hg
    | writeShortlist id text =>
      refine books_settleBook_write .keep fun _ hwrite => ?_
      rw [Books.writeShortlist_ok hwrite]
      exact (Books.annotates_withShortlist id text).upkeep
    | _ => cases hr
  | removeClient id =>
    exact books_settleBook_write .keep fun _ hremove => Books.upkeep_of_removeClient hf hremove
  | switchStanding id s =>
    refine books_settleBook_write .keep fun _ hswitch => ?_
    obtain ⟨hs, c, hc, hp, -, rfl⟩ := Books.switchStanding_ok hswitch
    exact .switch hc hp hs
  | sweep s => exact (Sweep.annotates_run a.books).upkeep
  | _ => cases hr

end Agency

end Matchmaking
