import Matchmaking.Agency.Sweep
import Matchmaking.Proofs.Linkage

/-! A sweep as one pass over the books as they were when it began. Shortlists are the only thing
that a sweep writes and the one thing that it does not read, so nothing written on the way changes
who is visited later or what is written for them, and the size of a page changes nothing. -/
namespace Matchmaking

/-- The beginning of a list up to a limit. A limit above the highest signed number is none. -/
def upToLimit {α : Type} (limit : UInt64) (l : List α) : List α :=
  if limit.toNat ≤ Int64.maxValue.toInt then l.take limit.toNat else l

namespace Page
variable {α β : Type}

theorem of_map (p : Page) (f : α → β) (l : List α) : p.of (l.map f) = (p.of l).map f := by
  simp only [Page.of, ← List.map_drop]
  split
  · rfl
  · rw [List.map_take]

theorem toInt_toInt64 (n : UInt64) :
    n.toInt64.toInt =
      if n.toNat ≤ Int64.maxValue.toInt then (n.toNat : Int) else n.toNat - UInt64.size := by
  have hbits : n.toInt64.toInt = n.toBitVec.toInt := rfl
  have hmax : Int64.maxValue.toInt = 9223372036854775807 := rfl
  have hsize : (UInt64.size : Int) = 18446744073709551616 := rfl
  rw [hbits, BitVec.toInt_eq_toNat_cond, UInt64.toNat_toBitVec, hmax, hsize]
  split <;> split <;> omega

theorem of_upTo (limit : UInt64) (l : List α) : (upTo limit.toInt64).of l = upToLimit limit l := by
  have hlt : limit.toNat < UInt64.size := limit.toNat_lt
  have hneg : limit.toInt64 < 0 ↔ ¬limit.toNat ≤ Int64.maxValue.toInt := by
    rw [Int64.lt_iff_toInt_lt, toInt_toInt64, Int64.toInt_zero]
    split <;> omega
  have hdrop : l.drop (upTo limit.toInt64).offset.toInt.toNat = l := rfl
  have hlimit : (upTo limit.toInt64).limit = limit.toInt64 := rfl
  rw [Page.of, hdrop, hlimit, upToLimit]
  by_cases h : limit.toNat ≤ Int64.maxValue.toInt
  · have htake : limit.toInt64.toInt.toNat = limit.toNat := by
      rw [toInt_toInt64, if_pos h, Int.toNat_natCast]
    rw [if_neg (by rw [hneg]; exact not_not_intro h), if_pos h, htake]
  · rw [if_pos (hneg.2 h), if_neg h]

end Page

/-! Shortlists are not read. -/

namespace Books
variable {b : Books} {g : Client → Option String} {l : List Lease}

theorem annotated_congr {g' : Client → Option String} (hg : ∀ c ∈ b.clients.rows, g c = g' c) :
    b.annotated g l = b.annotated g' l := by
  have hrows : (b.clients.rows.map fun c => { c with shortlist := g c }) =
      b.clients.rows.map fun c => { c with shortlist := g' c } :=
    List.map_congr_left fun c hc => by rw [hg c hc]
  rw [annotated, annotated, hrows]

theorem select_annotated (f : Criteria) :
    (b.annotated g l).select f = (b.select f).map fun c => { c with shortlist := g c } := by
  rw [select, annotated, List.filter_map]
  rfl

theorem pageOf_annotated (f : Criteria) (p : Page) :
    (b.annotated g l).pageOf f p = (b.pageOf f p).map fun c => { c with shortlist := g c } := by
  rw [pageOf, select_annotated, Page.of_map, pageOf]

end Books

namespace Sweep
variable {h : Hazards} {m : Moment} {s : SweepSettings} {b : Books} {c : Client}
variable {g : Client → Option String} {leases : List Lease}

theorem shortlistFor_annotated :
    shortlistFor m s (b.annotated g leases) c = shortlistFor m s b c := by
  rw [shortlistFor, pool, Books.pageOf_annotated, shortlistFor, Suggestion.best, Suggestion.best,
    Suggestion.judged, List.filter_map, List.map_map]
  rfl

theorem remaining_annotated (cursor : Option Int) :
    remaining (b.annotated g leases) cursor =
      (remaining b cursor).map fun c => { c with shortlist := g c } :=
  Books.select_annotated _

/-! Page after page. -/

theorem toNat_pageSize_pos : 0 < (pageSize s).toNat := by
  have hmax : pageSize s = if 1 ≤ s.pageSize then s.pageSize else 1 := rfl
  rw [hmax]
  split
  · rename_i hle
    exact UInt64.le_iff_toNat_le.1 hle
  · exact Nat.one_pos

/-- A page is the beginning of what remains, and all of it if it is empty or not full. -/
theorem remaining_eq_page_append (s : SweepSettings) (b : Books) (cursor : Option Int) :
    ∃ rest, remaining b cursor = page s b cursor ++ rest ∧
      (page s b cursor = [] ∨ (page s b cursor).length < (pageSize s).toNat → rest = []) := by
  have hpage : page s b cursor = upToLimit (pageSize s) (remaining b cursor) := Page.of_upTo _ _
  have hpos := toNat_pageSize_pos (s := s)
  rw [hpage, upToLimit]
  split
  · refine ⟨(remaining b cursor).drop (pageSize s).toNat, (List.take_append_drop _ _).symm, ?_⟩
    intro hshort
    have hlength : ((remaining b cursor).take (pageSize s).toNat).length < (pageSize s).toNat := by
      obtain hempty | hshort := hshort
      · rw [hempty]
        exact hpos
      · exact hshort
    rw [List.length_take] at hlength
    exact List.drop_eq_nil_of_le (by omega)
  · exact ⟨[], (List.append_nil _).symm, fun _ => rfl⟩

/-- In a list whose numbers increase, those above the last of a beginning are the rest. -/
theorem filter_lt_of_getLast? {l₁ l₂ : List Client} {last : Client}
    (hinc : (l₁ ++ l₂).Pairwise fun c d => c.id < d.id) (hlast : l₁.getLast? = some last) :
    (l₁ ++ l₂).filter (last.id < ·.id) = l₂ := by
  obtain ⟨l₀, rfl⟩ := List.getLast?_eq_some_iff.1 hlast
  obtain ⟨hfirst, -, hcross⟩ := List.pairwise_append.1 hinc
  obtain ⟨-, -, hbefore⟩ := List.pairwise_append.1 hfirst
  have hnone : (l₀ ++ [last]).filter (last.id < ·.id) = [] := by
    rw [List.filter_eq_nil_iff]
    intro c hc
    obtain hc | hc := List.mem_append.1 hc
    · have hlt := hbefore c hc last List.mem_cons_self
      simp only [decide_eq_true_eq]
      omega
    · obtain rfl := List.mem_singleton.1 hc
      simp
  have hall : l₂.filter (last.id < ·.id) = l₂ := by
    rw [List.filter_eq_self]
    intro c hc
    simpa using hcross last (by simp) c hc
  rw [List.filter_append, hnone, hall, List.nil_append]

theorem remaining_some {cursor : Option Int} {last : Client} (hlast : last ∈ remaining b cursor) :
    remaining b (some last.id) = (remaining b cursor).filter (last.id < ·.id) := by
  have hcursor : ∀ k, cursor = some k → k < last.id := by
    intro k hk
    have hacc := (List.mem_filter.1 hlast).2
    simp [Criteria.accepts, hk] at hacc
    exact hacc.2
  rw [remaining, remaining, Books.select, Books.select, List.filter_filter]
  refine List.filter_congr fun c _ => ?_
  cases cursor with
  | none => simp [Criteria.accepts, Bool.and_comm]
  | some k =>
    have hlt := hcursor k rfl
    by_cases hc : last.id < c.id
    · have hk : k < c.id := by omega
      simp [Criteria.accepts, hc, hk]
    · simp [Criteria.accepts, hc]

/-- The pages together are one list: nobody is left out or visited twice. -/
theorem walk_eq_foldl (cursor : Option Int) (report : SweepReport) (b : Books)
    (hb : b.clients.Sound) :
    walk h m s cursor report b = (remaining b cursor).foldl (visit h m s) (report, b) := by
  induction cursor, report, b using walk.induct h m s with
  | case1 cursor report b hl =>
    obtain ⟨rest, hremaining, hrest⟩ := remaining_eq_page_append s b cursor
    have hempty : page s b cursor = [] := List.getLast?_eq_none_iff.1 hl
    rw [hremaining, hempty, hrest (.inl hempty), walk]
    split
    · rfl
    · simp_all
  | case2 cursor report b last hl hshort =>
    obtain ⟨rest, hremaining, hrest⟩ := remaining_eq_page_append s b cursor
    rw [hremaining, hrest (.inr hshort), List.append_nil, walk]
    split
    · simp_all
    · rw [if_pos hshort]
  | case3 cursor report b last hl next hfull ih =>
    obtain ⟨rest, hremaining, -⟩ := remaining_eq_page_append s b cursor
    have hinc : (page s b cursor ++ rest).Pairwise fun c d => c.id < d.id := by
      rw [← hremaining]
      exact hb.increasing.filter _
    have hlast : last ∈ remaining b cursor := by
      rw [hremaining]
      exact List.mem_append_left _ (List.mem_of_getLast? hl)
    have hafter : remaining b (some last.id) = rest := by
      rw [remaining_some hlast, hremaining, filter_lt_of_getLast? hinc hl]
    obtain ⟨g, l, hnext⟩ := annotates_foldl_visit (h := h) (m := m) (s := s)
      (page s b cursor) (report, b)
    have hsound : next.2.clients.Sound := by
      rw [hnext]
      exact hb.map_rows fun _ => rfl
    have hrest : remaining next.2 (some last.id) =
        rest.map fun c => { c with shortlist := g c } := by
      rw [hnext, remaining_annotated, hafter]
    rw [walk]
    split
    · simp_all
    · rename_i last' hl'
      obtain rfl : last = last' := Option.some.inj (hl.symm.trans hl')
      -- what remains is the rest but for the shortlists, which a visit does not read
      rw [if_neg hfull, ih hsound, hrest, List.foldl_map, hremaining, List.foldl_append]
      rfl

/-! One visit after the other. -/

def isFaulted (h : Hazards) (c : Client) : Bool := h.faults.contains (.shortlistWrite c.id)

def noted (report : SweepReport) (failed : Bool) : SweepReport :=
  if failed then { report with seen := report.seen + 1, failed := report.failed + 1 }
  else { report with seen := report.seen + 1, written := report.written + 1 }

def shortlistAfter (h : Hazards) (m : Moment) (s : SweepSettings) (b : Books) (l : List Client)
    (c : Client) : Option String :=
  if c ∈ l ∧ isFaulted h c = false then some (writeShortlist (shortlistFor m s b c))
  else c.shortlist

def visited (h : Hazards) (m : Moment) (s : SweepSettings) (b : Books) (l : List Client) : Books :=
  b.annotated (shortlistAfter h m s b l) b.leases

theorem visited_nil : visited h m s b [] = b := by
  simp [visited, Books.annotated, shortlistAfter]

theorem has_visited {l : List Client} (hc : c ∈ b.clients.rows) :
    (visited h m s b l).clients.has c.id :=
  Table.has_iff.2 ⟨_, List.mem_map_of_mem hc, rfl⟩

theorem writeShortlist_visited {l : List Client} (hw : h.foreignWriter = none)
    (hc : c ∈ b.clients.rows) {text : String} :
    (visited h m s b l).writeShortlist h c.id text =
      if isFaulted h c then .error (.storage (.aborted "disk full"))
      else .ok ((visited h m s b l).withShortlist c.id text) := by
  rw [Books.writeShortlist, Hazards.allow, hw, Hazards.guard, isFaulted, if_pos (has_visited hc)]
  cases h.faults.contains (.shortlistWrite c.id) <;> rfl

theorem visited_cons_of_faulted {l : List Client} (hf : isFaulted h c = true) :
    visited h m s b (c :: l) = visited h m s b l := by
  refine Books.annotated_congr fun d _ => ?_
  by_cases hdc : d = c
  · simp [shortlistAfter, hdc, hf]
  · simp [shortlistAfter, hdc]

theorem withShortlist_visited {l : List Client} (hb : b.clients.Sound) (hc : c ∈ b.clients.rows)
    (hf : isFaulted h c = false) :
    (visited h m s b l).withShortlist c.id (writeShortlist (shortlistFor m s b c)) =
      visited h m s b (c :: l) := by
  simp only [visited, shortlistAfter, Books.withShortlist, Books.modifyClient, Table.modify,
    Books.annotated, List.map_map, Numbered.id]
  congr 2
  refine List.map_congr_left fun d hd => ?_
  by_cases hid : d.id = c.id
  · obtain rfl : d = c := hb.eq_of_mem hd hc hid
    simp [hf]
  · have hne : d ≠ c := fun hdc => hid (congrArg Client.id hdc)
    simp [hid, hne]

theorem visit_visited {l : List Client} (hw : h.foreignWriter = none) (hb : b.clients.Sound)
    (hc : c ∈ b.clients.rows) (report : SweepReport) :
    visit h m s (report, visited h m s b l) c =
      (noted report (isFaulted h c), visited h m s b (c :: l)) := by
  have hdraft : shortlistFor m s (visited h m s b l) c = shortlistFor m s b c :=
    shortlistFor_annotated
  simp only [visit, hdraft, writeShortlist_visited hw hc]
  cases hf : isFaulted h c with
  | true =>
    rw [visited_cons_of_faulted hf]
    rfl
  | false =>
    rw [← withShortlist_visited hb hc hf]
    rfl

/-- Visits to a list of clients, after visits to some others. -/
theorem foldl_visit_visited (hw : h.foreignWriter = none) (hb : b.clients.Sound)
    {l : List Client} (hl : ∀ c ∈ l, c ∈ b.clients.rows) (done : List Client)
    (report : SweepReport) :
    l.foldl (visit h m s) (report, visited h m s b done) =
      (l.foldl (fun r c => noted r (isFaulted h c)) report,
        visited h m s b (l.reverse ++ done)) := by
  induction l generalizing report done with
  | nil => rfl
  | cons c l ih =>
    rw [List.foldl_cons, visit_visited hw hb (hl c List.mem_cons_self),
      ih fun d hd => hl d (List.mem_cons_of_mem c hd)]
    simp

theorem foldl_noted (l : List Client) (report : SweepReport) :
    l.foldl (fun r c => noted r (isFaulted h c)) report =
      ⟨report.seen + l.length, report.written + l.countP (!isFaulted h ·),
        report.failed + l.countP (isFaulted h ·)⟩ := by
  induction l generalizing report with
  | nil => rfl
  | cons c l ih =>
    rw [List.foldl_cons, ih]
    cases hf : isFaulted h c <;> simp [noted, hf] <;> omega

/-! The pass. -/

def plainJudge (m : Moment) : Judge := fun client candidate =>
  Glance.judge m.today client.profile candidate.profile 0

def singles (b : Books) : List Client := b.clients.rows.filter Client.isSingle

def suitors (b : Books) (c : Client) : List Client :=
  b.clients.rows.filter fun d => d.isSingle && d.profile.gender == c.profile.gender.other

def dueShortlist (h : Hazards) (m : Moment) (s : SweepSettings) (b : Books) (c : Client) :
    Option String :=
  if c.isSingle && !isFaulted h c then
    some (writeShortlist
      (Suggestion.best (plainJudge m) m.today c (upToLimit s.poolLimit (suitors b c)) s.top.toNat))
  else c.shortlist

def drawnShortlist (h : Hazards) (m : Moment) (s : SweepSettings) (b : Books) (c : Client) :
    Option String :=
  if c.isSingle && !isFaulted h c then some (writeShortlist (shortlistFor m s b c))
  else c.shortlist

/-- The books with every client's shortlist as it is to be, all else as it was, and the lease
free. -/
def pass (h : Hazards) (m : Moment) (s : SweepSettings) (b : Books) : Books :=
  b.annotated (dueShortlist h m s b) (b.dropLease leaseKey).leases

def tally (h : Hazards) (b : Books) : SweepReport where
  seen := (singles b).length
  written := (singles b).countP (!isFaulted h ·)
  failed := (singles b).countP (isFaulted h ·)

theorem remaining_none : remaining b none = singles b := by
  rw [remaining, Books.select, singles]
  refine List.filter_congr fun c _ => ?_
  simp [Criteria.accepts, Client.isSingle]

theorem judge_eq_plainJudge (hj : s.jitter = 0) : judge m s = plainJudge m := by
  funext c d
  have hdrawn : Glance.drawn 0 (m.draw c.id d.id) = 0 := by
    have hcap : (Glance.capJitter 0).toInt = 0 := by decide
    have hmin : min (m.draw c.id d.id : Int) 0 = 0 := by omega
    rw [Glance.drawn, hcap, hmin]
    rfl
  rw [judge, plainJudge, hj, hdrawn]

/-- Nobody is of the gender opposite to their own, so leaving out the client makes no
difference. -/
theorem pool_eq (hb : b.clients.Sound) (hc : c ∈ b.clients.rows) (limit : UInt64) :
    pool b c limit = upToLimit limit (suitors b c) := by
  have hselect : b.select { Criteria.singles c.profile.gender.other with except := c.id } =
      suitors b c := by
    rw [Books.select, suitors]
    refine List.filter_congr fun d hd => ?_
    by_cases hid : d.id = c.id
    · obtain rfl : d = c := hb.eq_of_mem hd hc hid
      cases hg : d.profile.gender <;> simp [Criteria.accepts, Criteria.singles, Gender.other, hg]
    · simp [Criteria.accepts, Criteria.singles, Client.isSingle, hid]
  rw [pool, Books.pageOf, hselect, Page.of_upTo]

theorem shortlistFor_eq (hj : s.jitter = 0) (hb : b.clients.Sound) (hc : c ∈ b.clients.rows) :
    shortlistFor m s b c =
      Suggestion.best (plainJudge m) m.today c (upToLimit s.poolLimit (suitors b c))
        s.top.toNat := by
  rw [shortlistFor, judge_eq_plainJudge hj, pool_eq hb hc]

/-- The walk, in words that mention no page and no books but those at its beginning. -/
theorem walk_eq (hw : h.foreignWriter = none) (hb : b.clients.Sound) :
    walk h m s none {} b = (tally h b, b.annotated (drawnShortlist h m s b) b.leases) := by
  have hsingles : ∀ c ∈ singles b, c ∈ b.clients.rows := fun c hc => (List.mem_filter.1 hc).1
  have hvisits := foldl_visit_visited (m := m) (s := s) hw hb hsingles [] {}
  rw [visited_nil, foldl_noted, List.append_nil] at hvisits
  have hbooks : visited h m s b (singles b).reverse =
      b.annotated (drawnShortlist h m s b) b.leases := by
    refine Books.annotated_congr fun c hc => ?_
    have hmem : c ∈ (singles b).reverse ↔ c.isSingle = true := by
      rw [List.mem_reverse, singles, List.mem_filter, and_iff_right hc]
    rw [shortlistAfter, drawnShortlist]
    simp only [hmem, Bool.and_eq_true, Bool.not_eq_true']
  rw [walk_eq_foldl none {} b hb, remaining_none, hvisits, hbooks, tally]
  simp

def leased (m : Moment) (s : SweepSettings) (b : Books) : Books :=
  { b with leases := ⟨leaseKey, m.token, expiry m.now s.leaseSeconds⟩ ::
      (b.dropLease leaseKey).leases }

def isHeld (m : Moment) (b : Books) : Bool := (b.lease? leaseKey).any (m.now < ·.expiresAt)

theorem takeLease_eq (hw : h.foreignWriter = none) :
    b.takeLease h leaseKey m.token m.now s.leaseSeconds =
      .ok (if isHeld m b then (false, b) else (true, leased m s b)) := by
  have hlapsed : (b.lease? leaseKey).all (·.expiresAt ≤ m.now) = !isHeld m b := by
    rw [isHeld]
    cases b.lease? leaseKey with
    | none => rfl
    | some lease => simp [← Int64.not_le]
  rw [Books.takeLease, Hazards.allow, hw, hlapsed]
  cases isHeld m b <;> rfl

theorem returnLease_annotated (hw : h.foreignWriter = none) {g : Client → Option String} :
    ((leased m s b).annotated g (leased m s b).leases).returnLease h leaseKey m.token =
      .ok (true, b.annotated g (b.dropLease leaseKey).leases) := by
  have hlease : ((leased m s b).annotated g (leased m s b).leases).lease? leaseKey =
      some ⟨leaseKey, m.token, expiry m.now s.leaseSeconds⟩ := by
    simp [leased, Books.annotated, Books.lease?]
  have hdrop : ((leased m s b).annotated g (leased m s b).leases).dropLease leaseKey =
      b.annotated g (b.dropLease leaseKey).leases := by
    simp [leased, Books.annotated, Books.dropLease]
  rw [Books.returnLease, Hazards.allow, hw, hlease, hdrop, Option.any_some, beq_self_eq_true]
  rfl

theorem run_eq_drawn (hw : h.foreignWriter = none) (hb : b.clients.Sound) :
    run h m s b =
      if isHeld m b then (.ok .skipped, b)
      else (.ok (.completed (tally h b)),
        b.annotated (drawnShortlist h m s b) (b.dropLease leaseKey).leases) := by
  rw [run, takeLease_eq hw]
  cases isHeld m b with
  | true => rfl
  | false =>
    have hwalk : walk h m s none {} (leased m s b) =
        (tally h b, (leased m s b).annotated (drawnShortlist h m s b) (leased m s b).leases) :=
      walk_eq hw hb
    simp only [Bool.false_eq_true, if_false, hwalk, returnLease_annotated hw]

theorem run_eq (hw : h.foreignWriter = none) (hj : s.jitter = 0) (hb : b.clients.Sound) :
    run h m s b =
      if isHeld m b then (.ok .skipped, b)
      else (.ok (.completed (tally h b)), pass h m s b) := by
  have hdue : b.annotated (drawnShortlist h m s b) (b.dropLease leaseKey).leases =
      pass h m s b := by
    refine Books.annotated_congr fun c hc => ?_
    rw [drawnShortlist, dueShortlist, shortlistFor_eq hj hb hc]
  rw [run_eq_drawn hw hb, hdue]

/-- Unless another sweep has the lease, a sweep is a single pass over the books as they were when
it began: each single client gets the shortlist drawn up from those books, unless a fault is armed
against it, and nothing else is written. Neither the size of its pages nor the length of its lease
has an effect. That the clients are numbered soundly is true of all books that requests lead to. -/
theorem run_eq_pass (hw : h.foreignWriter = none) (hj : s.jitter = 0) (hb : b.clients.Sound) :
    run h m s b =
        (if isHeld m b then (.ok .skipped, b)
        else (.ok (.completed (tally h b)), pass h m s b)) ∧
      ∀ n ttl, run h m { s with pageSize := n, leaseSeconds := ttl } b = run h m s b := by
  constructor
  · exact run_eq hw hj hb
  · intro n ttl
    have hpaged := run_eq (m := m) (s := { s with pageSize := n, leaseSeconds := ttl }) hw hj hb
    rw [hpaged, run_eq hw hj hb]
    rfl

end Sweep

namespace Sample

def parlour : Books where
  clients := {
    rows := [{ id := 1, profile := man }, { id := 2, profile := woman },
      { id := 3, profile := woman, standing := .stopped }, { id := 5, profile := woman }]
    last := 6 }
  leases := [⟨Sweep.leaseKey, "", 0⟩, ⟨"lock:other", "", 9⟩]

def narrow : SweepSettings := { pageSize := 1, jitter := 0 }

end Sample

/-- A page for each client, and a fault against the second. -/
theorem Sweep.run_eq_pass_sample :
    let h : Hazards := { faults := [.shortlistWrite 2] }
    let m := Sample.newYear
    let s := Sample.narrow
    let b := Sample.parlour
    b.clients.Sound ∧ run h m s b = (.ok (.completed ⟨3, 2, 1⟩), pass h m s b) ∧
      run h m { s with pageSize := 0, leaseSeconds := 0 } b = run h m s b := by
  intro h m s b
  have hsound : b.clients.Sound := ⟨by decide, by decide⟩
  have hfree : isHeld m b = false := by decide
  have htally : tally h b = ⟨3, 2, 1⟩ := by decide
  obtain ⟨hrun, hsize⟩ := run_eq_pass (h := h) (m := m) (s := s) rfl rfl hsound
  rw [hfree, htally] at hrun
  exact ⟨hsound, hrun, hsize 0 0⟩

end Matchmaking
