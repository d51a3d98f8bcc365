import Matchmaking.Proofs.Atomicity
import Matchmaking.Proofs.Integrity

/-! The trail of a pairing as the record of a run. What the calls that move a pairing say of each
move is noted when they go through and never else, and the stages they pass are a course from
the first stage to the one the pairing is in. -/
namespace Matchmaking

structure Passage where
  pairing : Int
  before : Stage
  after : Stage
  operator : String
  reason : String
deriving DecidableEq, Repr

def Move.passage (m : Move) : Passage := ⟨m.pairing, m.before, m.after, m.operator, m.reason⟩

def Request.passage? (b : Books) : Request → Option Passage
  | .advance id expected next operator reason => some ⟨id, expected, next, operator, reason⟩
  | .breakUp id operator reason =>
    (b.pairing? id).map fun p => ⟨id, p.stage, .broken, operator, reason⟩
  | _ => none

def Course : Stage → List Passage → Stage → Prop
  | s, [], t => s = t
  | s, e :: es, t => e.before = s ∧ s.leadsTo e.after ∧ Course e.after es t

namespace Course
variable {s t : Stage} {es : List Passage} {e : Passage}

theorem snoc (h : Course s es t) (hb : e.before = t) (hl : t.leadsTo e.after) :
    Course s (es ++ [e]) e.after := by
  induction es generalizing s with
  | nil =>
    obtain rfl : s = t := h
    exact ⟨hb, hl, rfl⟩
  | cons e' es ih =>
    obtain ⟨hb', hl', hrest⟩ := h
    exact ⟨hb', hl', ih hrest⟩

theorem rank_le (h : Course s es t) : ∀ e ∈ es, s.rank ≤ e.before.rank := by
  induction es generalizing s with
  | nil => simp
  | cons e' es ih =>
    obtain ⟨hb, hl, hrest⟩ := h
    have hlt := Stage.rank_lt_of_leadsTo hl
    intro e he
    obtain rfl | he := List.mem_cons.1 he
    · exact Nat.le_of_eq (congrArg Stage.rank hb.symm)
    · have hle := ih hrest e he
      omega

/-- No stage is left twice. -/
theorem countP_before_le_one (h : Course s es t) (u : Stage) :
    es.countP (·.before == u) ≤ 1 := by
  induction es generalizing s with
  | nil => simp
  | cons e' es ih =>
    obtain ⟨hb, hl, hrest⟩ := h
    have hlt := Stage.rank_lt_of_leadsTo hl
    by_cases hu : s = u
    · -- the later passages leave later stages
      have hnone : es.countP (·.before == u) = 0 := by
        rw [List.countP_eq_zero]
        intro e he heq
        have hle := rank_le hrest e he
        rw [beq_iff_eq.1 heq, ← hu] at hle
        omega
      simp [hb, hu, hnone]
    · simp [hb, hu, ih hrest]

end Course

namespace Agency
variable {α : Type} {a : Agency} {m : Moment} {r : Request} {reply : α → Reply}

def passage? (a : Agency) (m : Moment) (r : Request) : Option Passage :=
  match (a.serve m r).1 with
  | .ok _ => r.passage? a.books
  | .error _ => none

def passages : Agency → List (Moment × Request) → List Passage
  | _, [] => []
  | a, (m, r) :: rs => (a.passage? m r).toList ++ (a.serve m r).2.passages rs

theorem ok_of_settle {r : Except AgencyError α × Books} {y : Reply}
    (h : (a.settle reply r).1 = .ok y) : ∃ x, r.1 = .ok x := by
  obtain ⟨r, b⟩ := r
  cases r with
  | error e' => cases h
  | ok x => exact ⟨x, rfl⟩

end Agency

namespace Courtship
variable {h : Hazards} {b : Books} {id : Int} {p : Pairing} {u : Unit}
variable {expected next : Stage} {operator reason : String}

theorem moves_part {b' : Books} (hp : part h p b = (.ok u, b')) : b'.moves = b.moves := by
  have hdetach : ∀ {b b' : Books} {x y r}, b.detach h x y = .ok (r, b') → b'.moves = b.moves := by
    intro b b' x y r hd
    rw [Books.detach_ok hd]
    split
    · obtain ⟨g, -, -, hg⟩ := Books.setPartner_eq_mapClients h b x
        (f := fun c => { c with standing := .single, partner := none })
      rw [hg]
      rfl
    · rfl
  obtain ⟨_, _, b₁, hman, hwoman⟩ := part_ok hp
  exact (hdetach hwoman).trans (hdetach hman)

/-- A call that moves a pairing writes its stage and one move, and parts the two at most. -/
theorem moved_of_advance (ha : (advance h id expected next operator reason b).1 = .ok p) :
    ∃ q, b.pairing? id = some q ∧ q.stage = expected ∧ expected.leadsTo next ∧
      (advance h id expected next operator reason b).2.pairings = (b.withStage id next).pairings ∧
      (advance h id expected next operator reason b).2.moves =
        (b.withMove id expected next operator reason).moves := by
  rw [advance] at ha ⊢
  rcases hc : (move h id expected next operator reason).commit b with ⟨e | _, b'⟩
  · rw [hc] at ha
    cases ha
  · obtain ⟨hl, b₁, _, b₂, hs, hadd, hend⟩ := move_ok (Work.commit_eq_ok.1 hc)
    obtain ⟨-, rfl⟩ := Books.addMove_ok hadd
    obtain ⟨hr, -⟩ | ⟨-, q, hq, hstage, -, rfl⟩ := Books.moveStage_ok hs
    · cases hr
    · refine ⟨q, hq, hstage, hl, ?_⟩
      obtain ⟨-, rfl⟩ | ⟨-, _, -, hpart⟩ := hend
      · exact ⟨rfl, rfl⟩
      · exact ⟨(pairings_part hpart).trans rfl, (moves_part hpart).trans rfl⟩

end Courtship

namespace Books
variable {b b' : Books} {log : List Passage} {id : Int} {p : Pairing}

/-- The trails are what `log` has of each pairing, and for pairings no longer there as well it has
a course. -/
structure Recorded (log : List Passage) (b : Books) : Prop where
  trail : ∀ p ∈ b.pairings.rows, (b.movesOf p.id).map Move.passage = log.filter (·.pairing == p.id)
  course : ∀ id, ∃ s, Course .acquaintance (log.filter (·.pairing == id)) s ∧
    ∀ p, b.pairing? id = some p → p.stage = s
  le_last : ∀ e ∈ log, e.pairing ≤ b.pairings.last

theorem recorded_empty : Recorded [] {} where
  trail p hp := by cases hp
  course id := ⟨.acquaintance, rfl, fun p hp => by cases hp⟩
  le_last e he := by cases he

theorem Recorded.of_same (hr : b.Recorded log) (hpairings : b'.pairings = b.pairings)
    (hmoves : b'.moves = b.moves) : b'.Recorded log := by
  refine ⟨fun p hp => ?_, fun id => ?_, fun e he => ?_⟩
  · rw [movesOf, hmoves]
    exact hr.trail p (hpairings ▸ hp)
  · rw [pairing?, hpairings]
    exact hr.course id
  · rw [hpairings]
    exact hr.le_last e he

theorem Recorded.enter (hb : b.Intact) (hr : b.Recorded log) (p : NewPairing) :
    (b.withPairing p).Recorded log := by
  have hs := hb.pairings.sound
  have hnext : Numbered.id (p.at b.pairings.next) = b.pairings.next := rfl
  -- nothing was noted under a number that was not given out
  have hlog : log.filter (·.pairing == b.pairings.next) = [] := by
    rw [List.filter_eq_nil_iff]
    intro e he hpairing
    have hle := hr.le_last e he
    rw [beq_iff_eq.1 hpairing, Table.next] at hle
    omega
  refine ⟨fun q hq => ?_, fun id => ?_, fun e he => ?_⟩
  · obtain hq | rfl := (Table.mem_rows_add b.pairings).1 hq
    · exact hr.trail q hq
    · have hlast : b.pairings.last < b.pairings.next := Int.lt_succ _
      calc ((b.withPairing p).movesOf b.pairings.next).map Move.passage
        _ = (b.movesOf b.pairings.next).map Move.passage := rfl
        _ = [] := by rw [movesOf_eq_nil hb hlast, List.map_nil]
        _ = log.filter (·.pairing == b.pairings.next) := hlog.symm
  · obtain ⟨s, hcourse, hstage⟩ := hr.course id
    refine ⟨s, hcourse, fun q hq => ?_⟩
    rw [pairing?, withPairing, Table.find?_add_eq, hnext] at hq
    cases hfind : b.pairings.find? id with
    | some q' =>
      rw [hfind, Option.some_or] at hq
      exact hstage q (hfind.trans hq)
    | none =>
      rw [hfind, Option.none_or] at hq
      split at hq
      · rename_i hid
        cases hq
        rw [← hid, hlog] at hcourse
        exact hcourse
      · cases hq
  · have hle := hr.le_last e he
    have hlast : (b.withPairing p).pairings.last = b.pairings.last + 1 := rfl
    omega

theorem Recorded.strike (hr : b.Recorded log) : (b.withoutPairing id).Recorded log := by
  refine ⟨fun p hp => ?_, fun x => ?_, hr.le_last⟩
  · obtain ⟨hrow, hne⟩ := Table.mem_rows_erase.1 hp
    have hmoves : (b.withoutPairing id).movesOf p.id = b.movesOf p.id := movesOf_withoutPairing hne
    rw [hmoves]
    exact hr.trail p hrow
  · obtain ⟨s, hcourse, hstage⟩ := hr.course x
    refine ⟨s, hcourse, fun p hp => ?_⟩
    rw [pairing?, withoutPairing] at hp
    by_cases hx : x = id
    · rw [hx, Table.find?_erase_self] at hp
      cases hp
    · rw [Table.find?_erase_of_ne hx] at hp
      exact hstage p hp

/-- No stroke but a mark is noted anywhere. -/
theorem Stroke.recorded (hs : b.Stroke False b') (hb : b.Intact) (hr : b.Recorded log) :
    b'.Recorded log := by
  cases hs with
  | enter hno => exact hr.enter hb _
  | strike id => exact hr.strike
  | move hm => exact hm.elim
  | note before after operator reason hm => exact hm.elim
  | _ => exact hr.of_same rfl rfl

/-- A move that is made is noted with the pairing, and nowhere else. -/
theorem Recorded.move {e : Passage} (hb : b.Intact) (hr : b.Recorded log)
    (hp : b.pairing? e.pairing = some p) (hbefore : e.before = p.stage)
    (hl : p.stage.leadsTo e.after)
    (hpairings : b'.pairings = (b.withStage e.pairing e.after).pairings)
    (hmoves : b'.moves = (b.withMove e.pairing e.before e.after e.operator e.reason).moves) :
    b'.Recorded (log ++ [e]) := by
  have hfind : ∀ x, b'.pairing? x =
      if x = e.pairing then some { p with stage := e.after } else b.pairing? x := by
    intro x
    rw [pairing?, hpairings]
    by_cases hx : x = e.pairing
    · rw [if_pos hx, hx, withStage, Table.find?_modify_self]
      exact congrArg (Option.map _) hp
    · rw [if_neg hx]
      exact Table.find?_modify_of_ne (fun _ => rfl) hx
  have hlog : ∀ x, (log ++ [e]).filter (·.pairing == x) =
      log.filter (·.pairing == x) ++ if x = e.pairing then [e] else [] := by
    intro x
    by_cases hx : x = e.pairing <;> simp [hx, Ne.symm]
  have htrail : ∀ x, (b'.movesOf x).map Move.passage =
      (b.movesOf x).map Move.passage ++ if x = e.pairing then [e] else [] := by
    intro x
    rw [movesOf, hmoves, withMove, Table.add, List.filter_append, List.map_append]
    by_cases hx : x = e.pairing <;> simp [movesOf, hx, Ne.symm, Move.passage]
  refine ⟨fun q hq => ?_, fun x => ?_, fun e' he' => ?_⟩
  · have hthere : ∃ q' ∈ b.pairings.rows, q'.id = q.id := by
      rw [hpairings] at hq
      obtain rfl | ⟨hq, -⟩ := hb.pairings.sound.mem_rows_modify hp hq
      · exact ⟨p, Table.mem_of_find? hp, rfl⟩
      · exact ⟨q, hq, rfl⟩
    obtain ⟨q', hq', hid⟩ := hthere
    rw [htrail, hlog, ← hid, hr.trail q' hq']
  · obtain ⟨s, hcourse, hstage⟩ := hr.course x
    rw [hfind, hlog]
    by_cases hx : x = e.pairing
    · obtain rfl : p.stage = s := hstage p (by rw [hx, hp])
      rw [if_pos hx, if_pos hx]
      refine ⟨e.after, hcourse.snoc hbefore hl, ?_⟩
      rintro q ⟨⟩
      rfl
    · rw [if_neg hx, if_neg hx, List.append_nil]
      exact ⟨s, hcourse, hstage⟩
  · have hlast : b'.pairings.last = b.pairings.last := by rw [hpairings]; rfl
    rw [hlast]
    obtain he' | he' := List.mem_append.1 he'
    · exact hr.le_last e' he'
    · obtain rfl := List.mem_singleton.1 he'
      have hid : p.id = e'.pairing := Table.id_of_find? hp
      rw [← hid]
      exact hb.pairings.sound.le_last p (Table.mem_of_find? hp)

end Books

namespace Agency
variable {a : Agency} {m : Moment} {r : Request} {log : List Passage}

theorem recorded_of_advance {id : Int} {expected next : Stage} {operator reason : String}
    (ha : a.books.Intact) (hr : a.books.Recorded log) :
    (a.serve m (.advance id expected next operator reason)).2.books.Recorded
      (log ++ (a.passage? m (.advance id expected next operator reason)).toList) := by
  rw [passage?]
  cases hreply : (a.serve m (.advance id expected next operator reason)).1 with
  | error e =>
    obtain ⟨_, he⟩ := error_of_settle hreply
    have hsame : (a.serve m (.advance id expected next operator reason)).2 = a :=
      settle_eq_self (Courtship.snd_advance_of_error he)
    rw [hsame]
    simpa using hr
  | ok y =>
    obtain ⟨_, hok⟩ := ok_of_settle hreply
    obtain ⟨p, hp, rfl, hl, hpairings, hmoves⟩ := Courtship.moved_of_advance hok
    exact hr.move (e := ⟨id, p.stage, next, operator, reason⟩) ha hp rfl hl hpairings hmoves

/-- A break is an advance from the stage there is. -/
theorem serve_breakUp {id : Int} {p : Pairing} {operator reason : String}
    (hp : a.books.pairing? id = some p) :
    a.serve m (.breakUp id operator reason) =
      a.serve m (.advance id p.stage .broken operator reason) := by
  simp only [serve, Courtship.breakUp, Books.fetchPairing_eq_ok.2 hp]

theorem serve_breakUp_of_none {id : Int} {operator reason : String}
    (hp : a.books.pairing? id = none) :
    a.serve m (.breakUp id operator reason) =
      (.error (.agency (.absent .pairing (toString id))), a) := by
  simp only [serve, Courtship.breakUp, Books.fetchPairing, hp]
  rfl

/-- A call that moves a pairing is noted exactly if it goes through. -/
theorem isSome_passage? : (a.passage? m r).isSome ↔ r.isMove ∧ ∃ y, (a.serve m r).1 = .ok y := by
  rw [passage?]
  cases hreply : (a.serve m r).1 with
  | error e => simp
  | ok y =>
    cases r with
    | advance id expected next operator reason => simp [Request.passage?, Request.isMove]
    | breakUp id operator reason =>
      cases hp : a.books.pairing? id with
      | none =>
        rw [serve_breakUp_of_none hp] at hreply
        cases hreply
      | some p => simp [Request.passage?, Request.isMove, hp]
    | _ => simp [Request.passage?, Request.isMove]

theorem recorded_of_breakUp {id : Int} {operator reason : String} (ha : a.books.Intact)
    (hr : a.books.Recorded log) :
    (a.serve m (.breakUp id operator reason)).2.books.Recorded
      (log ++ (a.passage? m (.breakUp id operator reason)).toList) := by
  cases hp : a.books.pairing? id with
  | none =>
    rw [passage?, serve_breakUp_of_none hp]
    simpa using hr
  | some p =>
    have hpassage : a.passage? m (.breakUp id operator reason) =
        a.passage? m (.advance id p.stage .broken operator reason) := by
      rw [passage?, passage?, serve_breakUp hp]
      simp only [Request.passage?, hp, Option.map_some]
    rw [hpassage, serve_breakUp hp]
    exact recorded_of_advance ha hr

theorem recorded_serve (hr : r.isHandwritten = false) (ha : a.books.Intact)
    (hlog : a.books.Recorded log) :
    (a.serve m r).2.books.Recorded (log ++ (a.passage? m r).toList) := by
  cases hmove : r.isMove with
  | true =>
    cases r with
    | advance id expected next operator reason => exact recorded_of_advance ha hlog
    | breakUp id operator reason => exact recorded_of_breakUp ha hlog
    | _ => cases hmove
  | false =>
    have hnone : a.passage? m r = none := by
      rw [← Option.not_isSome_iff_eq_none, isSome_passage?, hmove]
      simp
    have hs : a.books.Strokes False (a.serve m r).2.books :=
      strokes_of_serve (by simp [hr, hmove])
    rw [hnone, Option.toList_none, List.append_nil]
    have hkept : (a.serve m r).2.books.Intact ∧ (a.serve m r).2.books.Recorded log :=
      hs.keep (P := fun b => b.Intact ∧ b.Recorded log)
        (fun hstroke hb => ⟨hstroke.intact hb.1, hstroke.recorded hb.1 hb.2⟩) ⟨ha, hlog⟩
    exact hkept.2

theorem recorded_after {rs : List (Moment × Request)} (hr : ∀ q ∈ rs, q.2.isHandwritten = false)
    (ha : a.books.Intact) (hlog : a.books.Recorded log) :
    (a.after rs).books.Recorded (log ++ a.passages rs) := by
  induction rs generalizing a log with
  | nil =>
    rw [passages, List.append_nil]
    exact hlog
  | cons q rs ih =>
    obtain ⟨m, r⟩ := q
    have hserve := recorded_serve (m := m) (hr (m, r) List.mem_cons_self) ha hlog
    have hrest := ih (fun q hq => hr q (List.mem_cons_of_mem _ hq)) (intact_serve ha) hserve
    rw [after_cons, passages, ← List.append_assoc]
    exact hrest

/-- Through a run in which nobody writes stages or trails by hand: the trail of a pairing that is
still there at the end is what the calls that went through have said of it, in their order; it is
a course from the first stage to the one the pairing is in; and no pairing, there or not, is moved
twice from one stage. -/
theorem trail_eq_passages {rs : List (Moment × Request)}
    (hr : ∀ q ∈ rs, q.2.isHandwritten = false) :
    let b := (({} : Agency).after rs).books
    let log := ({} : Agency).passages rs
    (∀ p ∈ b.pairings.rows,
      (b.movesOf p.id).Pairwise (fun x y => x.id < y.id) ∧
      (b.movesOf p.id).map Move.passage = log.filter (·.pairing == p.id) ∧
      Course .acquaintance ((b.movesOf p.id).map Move.passage) p.stage) ∧
    ∀ id s, (log.filter (·.pairing == id)).countP (·.before == s) ≤ 1 := by
  intro b log
  have hb : b.Intact := intact_after Books.intact_empty
  have hlog : b.Recorded ([] ++ log) :=
    recorded_after hr Books.intact_empty Books.recorded_empty
  rw [List.nil_append] at hlog
  refine ⟨fun p hp => ⟨hb.pairings.soundMoves.increasing.filter _, hlog.trail p hp, ?_⟩,
    fun id s => ?_⟩
  · obtain ⟨s, hcourse, hstage⟩ := hlog.course p.id
    rw [hlog.trail p hp, hstage p (hb.pairings.sound.find?_of_mem hp)]
    exact hcourse
  · obtain ⟨t, hcourse, -⟩ := hlog.course id
    exact hcourse.countP_before_le_one s

end Agency

namespace Sample

def farewell : List (Moment × Request) :=
  couple ++ [.advance 1 .acquaintance .dating "Ann" "a walk",
    .advance 1 .acquaintance .dating "Ben" "the same walk",
    .breakUp 1 "Ann" "no more walks"].map (newYear, ·)

end Sample

theorem Agency.trail_eq_passages_sample :
    (∀ q ∈ Sample.farewell, q.2.isHandwritten = false) ∧
      let b := (({} : Agency).after Sample.farewell).books
      ∃ p ∈ b.pairings.rows, p.stage = .broken ∧
        (b.movesOf p.id).map Move.passage =
          [⟨1, .acquaintance, .dating, "Ann", "a walk"⟩,
            ⟨1, .dating, .broken, "Ann", "no more walks"⟩] ∧
        Course .acquaintance ((b.movesOf p.id).map Move.passage) .broken := by
  have hr : ∀ q ∈ Sample.farewell, q.2.isHandwritten = false := by decide
  have hp : ∃ p ∈ (({} : Agency).after Sample.farewell).books.pairings.rows,
      p.id = 1 ∧ p.stage = .broken := by
    decide +kernel
  have hlog : (({} : Agency).passages Sample.farewell).filter (·.pairing == 1) =
      [⟨1, .acquaintance, .dating, "Ann", "a walk"⟩,
        ⟨1, .dating, .broken, "Ann", "no more walks"⟩] := by
    decide +kernel
  obtain ⟨p, hp, hid, hbroken⟩ := hp
  obtain ⟨htrails, -⟩ := trail_eq_passages hr
  obtain ⟨-, htrail, hcourse⟩ := htrails p hp
  rw [hbroken] at hcourse
  exact ⟨hr, p, hp, hbroken, by rw [htrail, hid, hlog], hcourse⟩

end Matchmaking
