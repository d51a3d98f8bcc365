import Matchmaking.Agency.Moment
import Matchmaking.Books.Clients
import Matchmaking.Judgement.Glance
import Matchmaking.Settings
import Matchmaking.Suggestion

/-! The visits of a sweep: the shortlist drawn up for one client, and the clients still to come.
Main statement: after the visits of a page, fewer clients remain. -/
namespace Matchmaking

structure SweepReport where
  seen : Nat := 0
  written : Nat := 0
  failed : Nat := 0
deriving DecidableEq, Repr

namespace Sweep

def judge (m : Moment) (s : SweepSettings) : Judge := fun client candidate =>
  Glance.judge m.today client.profile candidate.profile
    (Glance.drawn s.jitter (m.draw client.id candidate.id))

def pool (b : Books) (client : Client) (limit : UInt64) : List Client :=
  b.pageOf { Criteria.singles client.profile.gender.other with except := client.id }
    (.upTo limit.toInt64)

variable (h : Hazards) (m : Moment) (s : SweepSettings)

def shortlistFor (b : Books) (client : Client) : List Suggestion :=
  Suggestion.best (judge m s) m.today client (pool b client s.poolLimit) s.top.toNat

def visit (state : SweepReport × Books) (client : Client) : SweepReport × Books :=
  let (report, b) := state
  let report := { report with seen := report.seen + 1 }
  match b.writeShortlist h client.id (writeShortlist (shortlistFor m s b client)) with
  | .ok b => ({ report with written := report.written + 1 }, b)
  | .error _ => ({ report with failed := report.failed + 1 }, b)

def remaining (b : Books) (cursor : Option Int) : List Client :=
  b.select { standing := some .single, after := cursor }

def pageSize : UInt64 := max 1 s.pageSize

def page (b : Books) (cursor : Option Int) : List Client :=
  b.pageOf { standing := some .single, after := cursor } (.upTo (pageSize s).toInt64)

def outline (b : Books) : List (Int × Standing) := b.clients.rows.map fun c => (c.id, c.standing)

theorem outline_modifyClient (b : Books) (id : Int) (f : Client → Client)
    (hf : ∀ c, (f c).id = c.id ∧ (f c).standing = c.standing) :
    outline (b.modifyClient id f) = outline b := by
  simp only [outline, Books.modifyClient, Table.modify, List.map_map]
  refine List.map_congr_left fun c _ => ?_
  by_cases hc : Numbered.id c = id <;> simp [hc, hf]

theorem outline_writeShortlist {b b' : Books} {id : Int} {text : String}
    (hw : b.writeShortlist h id text = .ok b') : outline b' = outline b := by
  simp only [Books.writeShortlist, Bind.bind, Except.bind, Hazards.allow, Hazards.guard, pure,
    Except.pure, throw, throwThe, MonadExceptOf.throw] at hw
  split at hw
  · cases hw
  · split at hw
    · split at hw
      · cases hw
      · cases hw
        exact outline_modifyClient _ _ _ fun c => ⟨rfl, rfl⟩
    · cases hw

theorem outline_visit (state : SweepReport × Books) (client : Client) :
    outline (visit h m s state client).2 = outline state.2 := by
  unfold visit
  dsimp only
  split
  · exact outline_writeShortlist h ‹_›
  · rfl

theorem outline_foldl_visit (l : List Client) (state : SweepReport × Books) :
    outline (l.foldl (visit h m s) state).2 = outline state.2 := by
  induction l generalizing state with
  | nil => rfl
  | cons c l ih => rw [List.foldl_cons, ih, outline_visit]

theorem length_remaining (b : Books) (cursor : Option Int) :
    (remaining b cursor).length =
      (outline b).countP fun (id, standing) => standing == .single && cursor.all (· < id) := by
  rw [remaining, Books.select, ← List.countP_eq_length_filter, outline, List.countP_map]
  congr 1
  funext c
  simp [Criteria.accepts]

private theorem countP_lt_countP {α : Type} {p q : α → Bool} {l : List α} {a : α} (ha : a ∈ l)
    (hpq : ∀ x, p x → q x) (hp : ¬p a) (hq : q a) : l.countP p < l.countP q := by
  obtain ⟨l₁, l₂, rfl⟩ := List.append_of_mem ha
  have h₁ : l₁.countP p ≤ l₁.countP q := List.countP_mono_left fun x _ => hpq x
  have h₂ : l₂.countP p ≤ l₂.countP q := List.countP_mono_left fun x _ => hpq x
  simp only [List.countP_append, List.countP_cons, hp, hq, Bool.false_eq_true, if_false, if_true]
  omega

theorem length_remaining_lt {b b' : Books} {cursor : Option Int} {c : Client}
    (hc : c ∈ page s b cursor) (ho : outline b' = outline b) :
    (remaining b' (some c.id)).length < (remaining b cursor).length := by
  obtain ⟨hrow, hacc⟩ := List.mem_filter.1 (Page.mem_of_mem_of hc)
  simp only [Criteria.accepts, Option.all_some, beq_iff_eq, Option.all_none, Bool.and_true,
    Bool.and_eq_true] at hacc
  rw [length_remaining, length_remaining, ho]
  refine countP_lt_countP (a := (c.id, c.standing)) (List.mem_map_of_mem hrow) ?_ ?_ ?_
  · rintro ⟨id, standing⟩ hx
    cases cursor with
    | none => simp_all
    | some k => simp at hx hacc ⊢; exact ⟨hx.1, by omega⟩
  · simp
  · simp [hacc]

end Sweep

end Matchmaking
