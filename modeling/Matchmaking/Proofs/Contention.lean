import Matchmaking.Proofs.Courtship
import Matchmaking.Proofs.Requests

/-! A foreign writer in the way. A write is refused before it looks at the books, so a call comes as
far as its first write and no further. What it finds wrong until then it answers as it always would,
and else that someone is writing. -/
namespace Matchmaking

section
variable {α : Type} {h : Hazards} {f : StorageFailure} {b : Books} {id : Int}

theorem Hazards.allow_bind_of_foreignWriter (hw : h.foreignWriter = some f)
    (k : Unit → Except BookError α) : (h.allow >>= k) = .error (.storage f) := by
  rw [Hazards.allow, hw]
  rfl

namespace Books

theorem attach_of_foreignWriter (hw : h.foreignWriter = some f) (partner : Int) :
    b.attach h id partner = .error (.storage f) :=
  h.allow_bind_of_foreignWriter hw _

theorem moveStage_of_foreignWriter (hw : h.foreignWriter = some f) (before after : Stage) :
    b.moveStage h id before after = .error (.storage f) :=
  h.allow_bind_of_foreignWriter hw _

theorem removePairing_of_foreignWriter (hw : h.foreignWriter = some f) :
    b.removePairing h id = .error (.storage f) :=
  h.allow_bind_of_foreignWriter hw _

theorem takeLease_of_foreignWriter (hw : h.foreignWriter = some f) (key holder : String)
    (now : Int64) (ttl : UInt64) : b.takeLease h key holder now ttl = .error (.storage f) :=
  h.allow_bind_of_foreignWriter hw _

/-! What a read finds missing is a refusal. -/

theorem ofBooks_of_fetchPairing {e : BookError} (he : b.fetchPairing id = .error e) :
    AgencyError.ofBooks e = .absent .pairing (toString id) := by
  rw [fetchPairing] at he
  cases hp : b.pairing? id with
  | none =>
    rw [hp] at he
    cases he
    rfl
  | some p =>
    rw [hp] at he
    cases he

end Books

end

/-- The call has written nothing and answers that its first write was refused, or turns down what
is asked, as the same call does under other hazards. -/
def IsBlocked {α : Type} (f : StorageFailure) (b : Books)
    (call other : Except AgencyError α × Books) : Prop :=
  ∃ e, call = (.error e, b) ∧ (e = .ofBooks (.storage f) ∨ e.isRefusal ∧ other.1 = .error e)

namespace Courtship
variable {h : Hazards} {f : StorageFailure} {today : Date} {b : Books} {id x y : Int}
variable {expected next : Stage} {operator reason admin remark : String} {e : AgencyError}

theorem isRefusal_of_propose (he : propose today x y admin remark b = .error e) : e.isRefusal := by
  by_cases hne : x = y
  · rw [propose, if_pos hne] at he
    cases he
    rfl
  · rw [propose_of_ne hne] at he
    split at he
    · cases he
      rfl
    · cases he
      rfl
    · split at he
      · cases he
        rfl
      · split at he
        · cases he
          rfl
        · split at he <;> cases he
          rfl

/-- A move from one stage to another that it does not lead to is never in another's way. -/
theorem isRefusal_whyNot (hl : expected.leadsTo next = false) :
    (whyNot id expected next b).isRefusal := by
  rw [whyNot]
  split
  · rename_i hp
    rw [Books.ofBooks_of_fetchPairing hp]
    rfl
  · split
    · rfl
    · rename_i p _ hs
      rw [not_not.1 hs, hl]
      rfl

theorem advance_of_not_leadsTo (hl : expected.leadsTo next = false) :
    advance h id expected next operator reason b = (.error (whyNot id expected next b), b) := by
  rw [advance, move, hl, if_neg Bool.false_ne_true]
  rfl

theorem blocked_arrange (hw : h.foreignWriter = some f) (h' : Hazards) :
    IsBlocked f b (arrange h today x y admin remark b) (arrange h' today x y admin remark b) := by
  rw [arrange, arrange]
  cases hp : propose today x y admin remark b with
  | error e => exact ⟨e, rfl, .inr ⟨isRefusal_of_propose hp, rfl⟩⟩
  | ok p =>
    have henter : enter h p b = (.error (.ofBooks (.storage f)), b) := by
      rw [enter, Work.bind_apply, claim, Work.bind_apply, Work.write,
        Books.attach_of_foreignWriter hw]
    dsimp only
    rw [Work.commit_of_error henter]
    exact ⟨_, rfl, .inl rfl⟩

theorem blocked_advance (hw : h.foreignWriter = some f) (h' : Hazards) :
    IsBlocked f b (advance h id expected next operator reason b)
      (advance h' id expected next operator reason b) := by
  cases hl : expected.leadsTo next with
  | false =>
    rw [advance_of_not_leadsTo hl, advance_of_not_leadsTo hl]
    exact ⟨_, rfl, .inr ⟨isRefusal_whyNot hl, rfl⟩⟩
  | true =>
    have hmove : move h id expected next operator reason b =
        (.error (.ofBooks (.storage f)), b) := by
      rw [move, if_pos hl, Work.bind_apply, Work.write, Books.moveStage_of_foreignWriter hw]
    rw [advance, Work.commit_of_error hmove]
    exact ⟨_, rfl, .inl rfl⟩

theorem blocked_breakUp (hw : h.foreignWriter = some f) (h' : Hazards) :
    IsBlocked f b (breakUp h id operator reason b) (breakUp h' id operator reason b) := by
  rw [breakUp, breakUp]
  cases hp : b.fetchPairing id with
  | error e =>
    refine ⟨_, rfl, .inr ⟨?_, rfl⟩⟩
    rw [Books.ofBooks_of_fetchPairing hp]
    rfl
  | ok p => exact blocked_advance hw h'

theorem blocked_strike (hw : h.foreignWriter = some f) (h' : Hazards) :
    IsBlocked f b (strike h id b) (strike h' id b) := by
  have hremove : (Work.write fun b => b.removePairing h id : Work Pairing) b =
      (.error (.ofBooks (.storage f)), b) := by
    rw [Work.write, Books.removePairing_of_foreignWriter hw]
  have hstrike : (do part h (← .write fun b => b.removePairing h id) : Work Unit) b =
      (.error (.ofBooks (.storage f)), b) := by
    rw [Work.bind_apply, hremove]
  exact ⟨_, Work.commit_of_error hstrike, .inl rfl⟩

end Courtship

theorem Sweep.blocked_run {h : Hazards} {f : StorageFailure} {m : Moment} {s : SweepSettings}
    {b : Books} (hw : h.foreignWriter = some f) (h' : Hazards) :
    IsBlocked f b (run h m s b) (run h' m s b) := by
  rw [run, Books.takeLease_of_foreignWriter hw]
  exact ⟨_, rfl, .inl rfl⟩

namespace Agency
variable {α : Type} {a : Agency} {m : Moment} {r : Request} {f : StorageFailure}
variable {reply : α → Reply} {call other : Except AgencyError α × Books}

/-- How a request ends that is blocked: like this, and under other hazards in the same refusal. -/
theorem serve_of_blocked (hb : IsBlocked f a.books call other) (hazards : Hazards) :
    ∃ e, a.settle reply call = (.error (.agency e), a) ∧
      (e = .ofBooks (.storage f) ∨
        e.isRefusal ∧ ((a.under hazards).settle reply other).1 = .error (.agency e)) := by
  obtain ⟨e, rfl, he⟩ := hb
  refine ⟨e, rfl, he.imp_right fun ⟨hrefusal, hother⟩ => ⟨hrefusal, ?_⟩⟩
  rw [settle, hother]
  rfl

/-- A call on pairings or a sweep, with a foreign writer in the way. -/
theorem serve_of_foreignWriter (hr : r.isCourtship ∨ ∃ s, r = .sweep s)
    (hw : a.hazards.foreignWriter = some f) (hazards : Hazards) :
    ∃ e, a.serve m r = (.error (.agency e), a) ∧
      (e = .ofBooks (.storage f) ∨
        e.isRefusal ∧ ((a.under hazards).serve m r).1 = .error (.agency e)) := by
  obtain hr | ⟨s, rfl⟩ := hr
  · cases r with
    | arrange x y admin remark =>
      exact serve_of_blocked (Courtship.blocked_arrange hw hazards) hazards
    | advance id expected next operator reason =>
      exact serve_of_blocked (Courtship.blocked_advance hw hazards) hazards
    | breakUp id operator reason =>
      exact serve_of_blocked (Courtship.blocked_breakUp hw hazards) hazards
    | strike id => exact serve_of_blocked (Courtship.blocked_strike hw hazards) hazards
    | _ => cases hr
  · exact serve_of_blocked (Sweep.blocked_run hw hazards) hazards

/-- While a foreign writer makes every write fail as busy, calls on pairings and sweeps never go
through and change nothing. They answer with the collision, or refuse what they would refuse without
the writer as well; the storage's own failure never comes through. -/
theorem collision_or_refusal_of_busy {code : Nat} {text : String}
    (hr : r.isCourtship ∨ ∃ s, r = .sweep s)
    (hw : a.hazards.foreignWriter = some (.refused code text))
    (hcode : code % 256 = 5 ∨ code % 256 = 6) :
    ∃ e, a.serve m r = (.error (.agency e), a) ∧
      (e = .collision (.busy (.storage (.refused code text))) ∨
        e.isRefusal ∧
          ((a.under { a.hazards with foreignWriter := none }).serve m r).1 =
            .error (.agency e)) := by
  have hbusy : (BookError.storage (.refused code text)).isBusy = true := by
    simpa [BookError.isBusy, StorageFailure.isBusy] using hcode
  have hcollision : AgencyError.ofBooks (.storage (.refused code text)) =
      .collision (.busy (.storage (.refused code text))) := if_pos hbusy
  obtain ⟨e, hserve, he⟩ :=
    serve_of_foreignWriter (m := m) hr hw { a.hazards with foreignWriter := none }
  rw [hcollision] at he
  exact ⟨e, hserve, he⟩

end Agency

namespace Sample

def locked : Agency where
  books := (({} : Agency).after couple).books
  hazards := { foreignWriter := some (.refused 517 "database is locked") }

end Sample

/-- The break would go through without the writer, and the match of two who are paired is refused
in any case. -/
theorem Agency.collision_or_refusal_of_busy_sample :
    Sample.locked.serve Sample.newYear (.breakUp 1 "" "") =
        (.error (.agency (.collision (.busy (.storage (.refused 517 "database is locked"))))),
          Sample.locked) ∧
      Sample.locked.serve Sample.newYear (.arrange 1 2 "" "") =
        (.error (.agency (.unavailable 1)), Sample.locked) ∧
      ((Sample.locked.under {}).serve Sample.newYear (.arrange 1 2 "" "")).1 =
        .error (.agency (.unavailable 1)) := by
  obtain ⟨e, hserve, he⟩ := collision_or_refusal_of_busy (a := Sample.locked) (m := Sample.newYear)
    (r := .breakUp 1 "" "") (.inl rfl) rfl (.inl rfl)
  obtain ⟨e', hserve', he'⟩ := collision_or_refusal_of_busy (a := Sample.locked)
    (m := Sample.newYear) (r := .arrange 1 2 "" "") (.inl rfl) rfl (.inl rfl)
  have hbreak : ∃ y, ((Sample.locked.under {}).serve Sample.newYear (.breakUp 1 "" "")).1 = .ok y :=
    ⟨_, rfl⟩
  have hunavailable : (Sample.locked.serve Sample.newYear (.arrange 1 2 "" "")).1 =
      .error (.agency (.unavailable 1)) := rfl
  obtain rfl : e' = .unavailable 1 := by
    rw [hserve'] at hunavailable
    cases hunavailable
    rfl
  refine ⟨?_, hserve', (he'.resolve_left nofun).2⟩
  obtain rfl | ⟨-, hother⟩ := he
  · exact hserve
  · obtain ⟨y, hy⟩ := hbreak
    exact absurd (hy.symm.trans hother) nofun

end Matchmaking
