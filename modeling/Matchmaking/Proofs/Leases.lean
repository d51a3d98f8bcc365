import Matchmaking.Books.Leases
import Mathlib.Data.List.Induction

/-! Leases exclude each other. Through any run of calls, by any holders and at any seconds of the
clock, the lease kept under a key is that of the last grant of the key, unless it was given back
since. It can be taken over once it has lapsed, and only its holder can give it back. -/
namespace Matchmaking

inductive LeaseCall where
  | take (key holder : String) (now : Int64) (ttl : UInt64)
  | giveBack (key holder : String)
deriving DecidableEq, Repr

namespace LeaseCall

def key : LeaseCall → String
  | .take key _ _ _ => key
  | .giveBack key _ => key

def clock? : LeaseCall → Option Int64
  | .take _ _ now _ => some now
  | .giveBack _ _ => none

def kept? : LeaseCall → Option Lease
  | .take key holder now ttl => some ⟨key, holder, expiry now ttl⟩
  | .giveBack _ _ => none

def on (b : Books) : LeaseCall → Except BookError (Bool × Books)
  | .take key holder now ttl => b.takeLease {} key holder now ttl
  | .giveBack key holder => b.returnLease {} key holder

def answer (b : Books) (c : LeaseCall) : Bool × Books :=
  match c.on b with
  | .ok r => r
  | .error _ => (false, b)

end LeaseCall

structure Grant where
  holder : String
  now : Int64
  ttl : UInt64
deriving DecidableEq, Repr

namespace Grant
variable (g : Grant) (key : String)

/-- The second at which the grant lapses. Neither its length nor that second is counted beyond the
last second of the clock. -/
def lapse : Int :=
  min (g.now.toInt + min (g.ttl.toNat : Int) Int64.maxValue.toInt) Int64.maxValue.toInt

def call : LeaseCall := .take key g.holder g.now g.ttl

def lease : Lease := ⟨key, g.holder, expiry g.now g.ttl⟩

theorem toInt_expiresAt : (g.lease key).expiresAt.toInt = g.lapse := by
  have hmax : Int64.maxValue.toInt = 9223372036854775807 := rfl
  have hle := g.now.le_toInt
  rw [lease, expiry, lapse, hmax, Int64.toInt_ofInt_of_le] <;> omega

theorem call_inj {g g' : Grant} {key : String} (h : g.call key = g'.call key) : g = g' := by
  cases g
  cases g'
  cases h
  rfl

theorem eq_lease_iff {l : Lease} : l = g.lease key ↔
    l.key = key ∧ l.holder = g.holder ∧ l.expiresAt.toInt = g.lapse := by
  rw [← g.toInt_expiresAt key, Int64.toInt_inj]
  cases l
  simp [lease]

end Grant

/-! One call: what it is granted on, and what it leaves. -/

namespace Books
variable {b : Books} {key k : String}

theorem lease?_dropLease :
    (b.dropLease key).lease? k = if key = k then none else b.lease? k := by
  rw [lease?, dropLease, List.find?_filter]
  by_cases hk : key = k
  · subst hk
    simp
  · rw [if_neg hk, lease?]
    congr 1
    funext l
    by_cases hl : l.key = k <;> simp [hl, Ne.symm hk]

end Books

namespace LeaseCall
variable {b : Books} {key holder k : String} {now : Int64} {ttl : UInt64} {c : LeaseCall}

/-- A lease that is free or has lapsed is taken, in place of the one that was kept. -/
theorem on_take :
    (take key holder now ttl).on b = .ok (if (b.lease? key).all (·.expiresAt ≤ now) then
      (true, { b with leases := ⟨key, holder, expiry now ttl⟩ :: (b.dropLease key).leases })
      else (false, b)) := by
  rw [on, Books.takeLease]
  split <;> rfl

theorem on_giveBack :
    (giveBack key holder).on b = .ok (if (b.lease? key).any (·.holder == holder) then
      (true, b.dropLease key) else (false, b)) := by
  rw [on, Books.returnLease]
  split <;> rfl

/-- No call fails. -/
theorem on_eq_ok : c.on b = .ok (c.answer b) := by
  cases c with
  | take key holder now ttl => rw [answer, on_take]
  | giveBack key holder => rw [answer, on_giveBack]

theorem granted_take :
    ((take key holder now ttl).answer b).1 = (b.lease? key).all (·.expiresAt ≤ now) := by
  simp only [answer, on_take]
  split <;> simp_all

theorem granted_giveBack :
    ((giveBack key holder).answer b).1 = (b.lease? key).any (·.holder == holder) := by
  simp only [answer, on_giveBack]
  split <;> simp_all

/-- A call writes under its own key, and only if it is granted. -/
theorem lease?_answer :
    (c.answer b).2.lease? k =
      if c.key = k ∧ (c.answer b).1 = true then c.kept? else b.lease? k := by
  cases c with
  | take key holder now ttl =>
    simp only [answer, on_take, LeaseCall.key, kept?]
    split
    · have hdrop : (b.dropLease key).lease? k = if key = k then none else b.lease? k :=
        Books.lease?_dropLease
      by_cases hk : key = k <;> simp_all [Books.lease?]
    · simp
  | giveBack key holder =>
    simp only [answer, on_giveBack, LeaseCall.key, kept?]
    split
    · by_cases hk : key = k <;> simp [Books.lease?_dropLease, hk]
    · simp

/-- Whether a call is granted depends on what is kept under its key alone. -/
theorem granted_congr {b' : Books} (hb : b'.lease? c.key = b.lease? c.key) :
    (c.answer b').1 = (c.answer b).1 := by
  cases c with
  | take key holder now ttl =>
    have hkey : b'.lease? key = b.lease? key := hb
    rw [granted_take, granted_take, hkey]
  | giveBack key holder =>
    have hkey : b'.lease? key = b.lease? key := hb
    rw [granted_giveBack, granted_giveBack, hkey]

end LeaseCall

/-! A run of calls, and the grants that its ledger shows. -/

namespace Books

def afterCalls (b : Books) (cs : List LeaseCall) : Books := cs.foldl (fun b c => (c.answer b).2) b

def ledger : Books → List LeaseCall → List (LeaseCall × Bool)
  | _, [] => []
  | b, c :: cs => (c, (c.answer b).1) :: ledger (c.answer b).2 cs

theorem afterCalls_snoc (b : Books) (cs : List LeaseCall) (c : LeaseCall) :
    b.afterCalls (cs ++ [c]) = (c.answer (b.afterCalls cs)).2 := by
  simp [afterCalls]

theorem ledger_snoc (b : Books) (cs : List LeaseCall) (c : LeaseCall) :
    b.ledger (cs ++ [c]) = b.ledger cs ++ [(c, (c.answer (b.afterCalls cs)).1)] := by
  induction cs generalizing b with
  | nil => rfl
  | cons d cs ih => simp [ledger, ih, afterCalls]

end Books

/-- The grant made after `before` is the last of its key: nothing was granted under it since. -/
def Grant.StandsAfter (g : Grant) (key : String) (before ledger : List (LeaseCall × Bool)) : Prop :=
  ∃ since, ledger = before ++ (g.call key, true) :: since ∧
    ∀ e ∈ since, e.1.key = key → e.2 = false

def Grant.Stands (g : Grant) (key : String) (ledger : List (LeaseCall × Bool)) : Prop :=
  ∃ before, g.StandsAfter key before ledger

def Grant.IsLiveAfter (g : Grant) (key : String) (now : Int64)
    (before ledger : List (LeaseCall × Bool)) : Prop :=
  (∃ since, ledger = before ++ (g.call key, true) :: since ∧
    (LeaseCall.giveBack key g.holder, true) ∉ since) ∧ now.toInt < g.lapse

/-- A list with one more at its end, split at some place: at that last one, or before it. -/
theorem snoc_eq_append_cons {α : Type} {l l₁ l₂ : List α} {a b : α} :
    l ++ [a] = l₁ ++ b :: l₂ ↔
      l₂ = [] ∧ l = l₁ ∧ a = b ∨ ∃ l₃, l₂ = l₃ ++ [a] ∧ l = l₁ ++ b :: l₃ := by
  induction l₂ using List.reverseRecOn with
  | nil => simp
  | append_singleton l₃ c _ =>
    rw [← List.cons_append, ← List.append_assoc, List.append_singleton_inj]
    constructor
    · rintro ⟨rfl, rfl⟩
      exact .inr ⟨l₃, rfl, rfl⟩
    · rintro (⟨hnil, -⟩ | ⟨l₄, hl, rfl⟩)
      · simp at hnil
      · obtain ⟨rfl, rfl⟩ := List.append_singleton_inj.1 hl
        exact ⟨rfl, rfl⟩

namespace Grant
variable {g g' : Grant} {key : String} {now : Int64} {c : LeaseCall} {r : Bool}
variable {before before' ledger : List (LeaseCall × Bool)}

theorem standsAfter_snoc_of_granted (hc : c.key = key ∧ r = true) :
    g.StandsAfter key before (ledger ++ [(c, r)]) ↔ before = ledger ∧ c = g.call key := by
  constructor
  · rintro ⟨since, hl, hno⟩
    obtain ⟨-, rfl, hcall⟩ | ⟨earlier, rfl, -⟩ := snoc_eq_append_cons.1 hl
    · exact ⟨rfl, (Prod.mk.inj hcall).1⟩
    · have hfalse : r = false := hno (c, r) (by simp) hc.1
      rw [hc.2] at hfalse
      cases hfalse
  · rintro ⟨rfl, rfl⟩
    exact ⟨[], by rw [hc.2], nofun⟩

theorem standsAfter_snoc_of_not_granted (hc : ¬(c.key = key ∧ r = true)) :
    g.StandsAfter key before (ledger ++ [(c, r)]) ↔ g.StandsAfter key before ledger := by
  constructor
  · rintro ⟨since, hl, hno⟩
    obtain ⟨-, -, hcall⟩ | ⟨earlier, rfl, rfl⟩ := snoc_eq_append_cons.1 hl
    · obtain ⟨rfl, rfl⟩ := Prod.mk.inj hcall
      exact absurd ⟨rfl, rfl⟩ hc
    · exact ⟨earlier, rfl, fun e he => hno e (by simp [he])⟩
  · rintro ⟨since, rfl, hno⟩
    refine ⟨since ++ [(c, r)], by simp, fun e he hkey => ?_⟩
    obtain he | he := List.mem_append.1 he
    · exact hno e he hkey
    · obtain rfl := List.mem_singleton.1 he
      exact Bool.eq_false_iff.2 fun hr => hc ⟨hkey, hr⟩

/-- A call that is granted is the last one granted under its key, and any other call changes
nothing. -/
theorem stands_snoc :
    g.Stands key (ledger ++ [(c, r)]) ↔
      if c.key = key ∧ r = true then c = g.call key else g.Stands key ledger := by
  by_cases hc : c.key = key ∧ r = true
  · rw [if_pos hc, Stands]
    simp [standsAfter_snoc_of_granted hc]
  · rw [if_neg hc, Stands, Stands]
    simp [standsAfter_snoc_of_not_granted hc]

/-- A call leaves a lease under its key exactly as it is a grant of that lease. -/
theorem kept?_eq_some_iff {l : Lease} :
    c.kept? = some l ↔ ∃ g : Grant, c = g.call c.key ∧ l = g.lease c.key := by
  cases c with
  | take key holder now ttl =>
    constructor
    · intro h
      exact ⟨⟨holder, now, ttl⟩, rfl, (Option.some.inj h).symm⟩
    · rintro ⟨g, hc, rfl⟩
      cases hc
      rfl
  | giveBack key holder => simp [LeaseCall.kept?, call]

/-- Each key has one last grant. -/
theorem standsAfter_inj (hg : g.StandsAfter key before ledger)
    (hg' : g'.StandsAfter key before' ledger) : before = before' ∧ g = g' := by
  -- were one of them made before the other, then the other was granted since
  have hfirst : ∀ {g g' : Grant} {between since since' : List (LeaseCall × Bool)},
      (g.call key, true) :: since = between ++ (g'.call key, true) :: since' →
      (∀ e ∈ since, e.1.key = key → e.2 = false) → between = [] ∧ g = g' := by
    intro g g' between since since' hl hno
    cases between with
    | nil =>
      have hcall : g.call key = g'.call key := (Prod.mk.inj (List.cons.inj hl).1).1
      exact ⟨rfl, call_inj hcall⟩
    | cons e between =>
      have hfalse := hno (g'.call key, true) (by simp [(List.cons.inj hl).2]) rfl
      cases hfalse
  obtain ⟨since, rfl, hno⟩ := hg
  obtain ⟨since', hsplit, hno'⟩ := hg'
  obtain ⟨between, rfl, hl⟩ | ⟨between, rfl, hl⟩ := List.append_eq_append_iff.1 hsplit
  · obtain ⟨rfl, rfl⟩ := hfirst hl hno
    exact ⟨(List.append_nil _).symm, rfl⟩
  · obtain ⟨rfl, rfl⟩ := hfirst hl hno'
    exact ⟨List.append_nil _, rfl⟩

end Grant

namespace Books
variable {cs : List LeaseCall} {key holder : String} {now : Int64} {ttl : UInt64}

/-- The lease in the books is that of the grant that stands. -/
theorem lease?_afterCalls {l : Lease} :
    (empty.afterCalls cs).lease? key = some l ↔
      ∃ g : Grant, g.Stands key (empty.ledger cs) ∧ l = g.lease key := by
  induction cs using List.reverseRecOn generalizing l with
  | nil =>
    constructor
    · intro h
      cases h
    · rintro ⟨g, ⟨before, since, hl, -⟩, -⟩
      simp [ledger] at hl
  | append_singleton cs c ih =>
    rw [afterCalls_snoc, ledger_snoc, LeaseCall.lease?_answer]
    simp only [Grant.stands_snoc]
    split
    · rename_i hc
      obtain ⟨rfl, -⟩ := hc
      exact Grant.kept?_eq_some_iff
    · exact ih

theorem exists_stands {l : Lease} (hl : (empty.afterCalls cs).lease? key = some l) :
    ∃ g : Grant, g.Stands key (empty.ledger cs) ∧ l = g.lease key := lease?_afterCalls.1 hl

theorem lease?_of_stands {g : Grant} (hg : g.Stands key (empty.ledger cs)) :
    (empty.afterCalls cs).lease? key = some (g.lease key) := lease?_afterCalls.2 ⟨g, hg, rfl⟩

theorem take_granted_iff :
    ((LeaseCall.take key holder now ttl).answer (empty.afterCalls cs)).1 = true ↔
      ∀ g : Grant, g.Stands key (empty.ledger cs) → g.lapse ≤ now.toInt := by
  have hlapsed : ∀ g : Grant, (g.lease key).expiresAt ≤ now ↔ g.lapse ≤ now.toInt := by
    intro g
    rw [Int64.le_iff_toInt_le, Grant.toInt_expiresAt]
  rw [LeaseCall.granted_take]
  constructor
  · intro hall g hg
    rw [lease?_of_stands hg] at hall
    exact (hlapsed g).1 (by simpa using hall)
  · intro hall
    cases hl : (empty.afterCalls cs).lease? key with
    | none => rfl
    | some l =>
      obtain ⟨g, hg, rfl⟩ := exists_stands hl
      simpa using (hlapsed g).2 (hall g hg)

theorem giveBack_granted_iff :
    ((LeaseCall.giveBack key holder).answer (empty.afterCalls cs)).1 = true ↔
      ∃ g : Grant, g.Stands key (empty.ledger cs) ∧ g.holder = holder := by
  rw [LeaseCall.granted_giveBack]
  constructor
  · intro hany
    cases hl : (empty.afterCalls cs).lease? key with
    | none =>
      rw [hl] at hany
      cases hany
    | some l =>
      obtain ⟨g, hg, rfl⟩ := exists_stands hl
      rw [hl] at hany
      exact ⟨g, hg, by simpa [Grant.lease] using hany⟩
  · rintro ⟨g, hg, rfl⟩
    simp [lease?_of_stands hg, Grant.lease]

theorem stands_unique {g g' : Grant} (hg : g.Stands key (empty.ledger cs))
    (hg' : g'.Stands key (empty.ledger cs)) : g.holder = g'.holder := by
  have hlease : some (g.lease key) = some (g'.lease key) := by
    rw [← lease?_of_stands hg, lease?_of_stands hg']
  exact congrArg Lease.holder (Option.some.inj hlease)

/-- Until a live grant lapses or is given back, nothing else is granted under its key. -/
theorem standsAfter_of_isLiveAfter {g : Grant} {before : List (LeaseCall × Bool)}
    (hclock : ∀ t ∈ cs.filterMap LeaseCall.clock?, t ≤ now)
    (hlive : g.IsLiveAfter key now before (empty.ledger cs)) :
    g.StandsAfter key before (empty.ledger cs) := by
  obtain ⟨⟨since, hl, hkept⟩, hnow⟩ := hlive
  induction cs using List.reverseRecOn generalizing since with
  | nil => simp [ledger] at hl
  | append_singleton cs c ih =>
    rw [ledger_snoc] at hl ⊢
    obtain ⟨-, rfl, hcall⟩ | ⟨earlier, rfl, hsplit⟩ := snoc_eq_append_cons.1 hl
    · obtain ⟨hc, hr⟩ := Prod.mk.inj hcall
      rw [Grant.standsAfter_snoc_of_granted ⟨by rw [hc]; rfl, hr⟩]
      exact ⟨rfl, hc⟩
    · have hstands : g.StandsAfter key before (empty.ledger cs) :=
        ih (fun t ht => hclock t (by simp_all)) earlier hsplit (by simp_all)
      refine (Grant.standsAfter_snoc_of_not_granted ?_).2 hstands
      rintro ⟨hkey, hr⟩
      -- a new grant needs the lapse of this one, and only its own holder can have given it back
      cases c with
      | take k holder t ttl =>
        obtain rfl : k = key := hkey
        have hlapsed : g.lapse ≤ t.toInt := take_granted_iff.1 hr g ⟨before, hstands⟩
        have ht : t ≤ now := hclock t (by simp [LeaseCall.clock?])
        rw [Int64.le_iff_toInt_le] at ht
        omega
      | giveBack k holder =>
        obtain rfl : k = key := hkey
        obtain ⟨g', hg', rfl⟩ := giveBack_granted_iff.1 hr
        have hholder : g.holder = g'.holder := stands_unique ⟨before, hstands⟩ hg'
        refine hkept ?_
        rw [hr, hholder]
        simp

/-! Calls under other keys. -/

/-- What is kept under a key depends on the calls under that key alone. -/
theorem lease?_afterCalls_filter :
    (empty.afterCalls (cs.filter (·.key = key))).lease? key = (empty.afterCalls cs).lease? key := by
  induction cs using List.reverseRecOn with
  | nil => rfl
  | append_singleton cs c ih =>
    rw [afterCalls_snoc, LeaseCall.lease?_answer, List.filter_append]
    by_cases hc : c.key = key
    · have hsame : (c.answer (empty.afterCalls (cs.filter (·.key = key)))).1 =
          (c.answer (empty.afterCalls cs)).1 := LeaseCall.granted_congr (by rw [hc, ih])
      rw [List.filter_cons_of_pos (by simpa using hc), List.filter_nil, afterCalls_snoc,
        LeaseCall.lease?_answer, hsame, ih]
    · rw [List.filter_cons_of_neg (by simpa using hc), List.filter_nil, List.append_nil, ih,
        if_neg fun h => hc h.1]

end Books

/-- Through any run of calls for leases, from empty books: no call fails; under a key stands the
lease of its last grant, up to the second at which that lapses; it is taken over then and not
before, and given back by its holder alone; calls under other keys do not touch it; and while the
clock does not run back, no two grants under it are live. -/
theorem lease_exclusive (cs : List LeaseCall) (key : String) :
    let b := Books.empty.afterCalls cs
    let ledger := Books.empty.ledger cs
    (∀ c : LeaseCall, c.on b = .ok (c.answer b)) ∧
    (∀ l, b.lease? key = some l ↔ ∃ g : Grant, g.Stands key ledger ∧ l.key = key ∧
      l.holder = g.holder ∧ l.expiresAt.toInt = g.lapse) ∧
    (∀ holder now ttl, ((LeaseCall.take key holder now ttl).answer b).1 = true ↔
      ∀ g : Grant, g.Stands key ledger → g.lapse ≤ now.toInt) ∧
    (∀ holder, ((LeaseCall.giveBack key holder).answer b).1 = true ↔
      ∃ g : Grant, g.Stands key ledger ∧ g.holder = holder) ∧
    (∀ c : LeaseCall, c.key ≠ key → (c.answer b).2.lease? key = b.lease? key) ∧
    (∀ c : LeaseCall, c.key = key →
      (c.answer b).1 = (c.answer (Books.empty.afterCalls (cs.filter (·.key = key)))).1) ∧
    ∀ now, (∀ t ∈ cs.filterMap LeaseCall.clock?, t ≤ now) →
      ∀ (g g' : Grant) before before', g.IsLiveAfter key now before ledger →
        g'.IsLiveAfter key now before' ledger → before = before' ∧ g = g' := by
  intro b ledger
  refine ⟨fun c => LeaseCall.on_eq_ok, fun l => ?_, fun _ _ _ => Books.take_granted_iff,
    fun _ => Books.giveBack_granted_iff, fun c hc => ?_, fun c hc => ?_, ?_⟩
  · rw [Books.lease?_afterCalls]
    simp only [Grant.eq_lease_iff]
    rfl
  · rw [LeaseCall.lease?_answer, if_neg fun h => hc h.1]
  · exact LeaseCall.granted_congr (by rw [hc, Books.lease?_afterCalls_filter])
  · intro now hclock g g' before before' hg hg'
    exact Grant.standsAfter_inj (Books.standsAfter_of_isLiveAfter hclock hg)
      (Books.standsAfter_of_isLiveAfter hclock hg')

namespace Sample

/-- The first holder has crashed. The second takes over at the second of the lapse, for ever, and
the first then tries to give the lease back. -/
def takeover : List LeaseCall :=
  [.take "job" "a" 1000 1800, .take "job" "b" 2800 18446744073709551615, .giveBack "job" "a"]

end Sample

theorem lease_exclusive_sample :
    let g : Grant := ⟨"b", 2800, 18446744073709551615⟩
    let ledger := Books.empty.ledger Sample.takeover
    (∀ t ∈ Sample.takeover.filterMap LeaseCall.clock?, t ≤ 2800) ∧
      ∃ before, g.IsLiveAfter "job" 2800 before ledger ∧
        ∀ (g' : Grant) before', g'.IsLiveAfter "job" 2800 before' ledger →
          before = before' ∧ g = g' := by
  intro g ledger
  have hclock : ∀ t ∈ Sample.takeover.filterMap LeaseCall.clock?, t ≤ 2800 := by
    have hseconds : Sample.takeover.filterMap LeaseCall.clock? = [1000, 2800] := rfl
    rw [hseconds]
    intro t ht
    obtain rfl | rfl : t = 1000 ∨ t = 2800 := by simpa using ht
    · decide
    · decide
  have hledger : ledger = [(.take "job" "a" 1000 1800, true)] ++ (g.call "job", true) ::
      [(.giveBack "job" "a", false)] := by
    decide +kernel
  have hlive : g.IsLiveAfter "job" 2800 [(.take "job" "a" 1000 1800, true)] ledger :=
    ⟨⟨_, hledger, by decide +kernel⟩, by decide +kernel⟩
  obtain ⟨-, -, -, -, -, -, hunique⟩ := lease_exclusive Sample.takeover "job"
  exact ⟨hclock, _, hlive, fun g' before' => hunique 2800 hclock g g' _ before' hlive⟩

end Matchmaking
