import Matchmaking.Proofs.Advice
import Matchmaking.Proofs.Columns
import Matchmaking.Proofs.Json.Documents

/-! The shortlists that are kept. A sweep writes the text of a ranking: the highest score first,
each candidate once and never the client, with scores and ages in their ranges. Nothing done to the
books later touches the text, and advice from it, or given anew, is a ranking too. -/
namespace Matchmaking

structure IsRanking (l : List Suggestion) : Prop where
  sorted : l.Pairwise fun s t => t.score ≤ s.score
  distinct : (l.map Suggestion.candidate).Nodup

theorem IsRanking.sublist {l l' : List Suggestion} (hl : IsRanking l) (hs : l'.Sublist l) :
    IsRanking l' :=
  ⟨hl.sorted.sublist hs, hl.distinct.sublist (hs.map _)⟩

theorem isRanking_nil : IsRanking [] := ⟨.nil, .nil⟩

/-! The ranges of a suggestion drawn up by a sweep. -/

namespace Profile
variable {p : Profile} {today : Date} {age : Int32}

theorem age_normalize : p.normalize.age = p.age := rfl

theorem age_le_of_check (hp : p.check = .ok ()) : p.age ≤ 120 := by
  rw [check] at hp
  obtain ⟨_, -, hp⟩ := bind_eq_ok.1 hp
  obtain ⟨_, hage, -⟩ := bind_eq_ok.1 hp
  rw [within] at hage
  split at hage
  · rename_i hrange
    exact Int32.le_iff_toInt_le.2 hrange.2
  · cases hage

theorem ageOn_mem (hp : p.age ≤ 120) (ha : p.ageOn today = some age) : 0 ≤ age ∧ age ≤ 120 := by
  rw [ageOn] at ha
  split at ha
  · rename_i hpos
    cases ha
    exact ⟨Int32.le_of_lt hpos, hp⟩
  · obtain ⟨_, -, ha⟩ := Option.bind_eq_some_iff.1 ha
    obtain ⟨⟨year, month⟩, -, ha⟩ := Option.bind_eq_some_iff.1 ha
    obtain ⟨hrange, ha⟩ := Option.ite_none_right_eq_some.1 ha
    cases ha
    exact ⟨Int32.le_trans (by decide) hrange.1, hrange.2⟩

end Profile

theorem Glance.score_mem (today : Date) (x y : Profile) (addition : Int32) :
    40 ≤ score today x y addition ∧ score today x y addition ≤ 99 := by
  have hmax : ∀ z : Int32, 40 ≤ max 40 z := by
    intro z
    have hif : max 40 z = if 40 ≤ z then z else 40 := rfl
    rw [hif]
    split
    · assumption
    · exact Int32.le_refl 40
  exact ⟨Std.le_min_iff.2 ⟨by decide, hmax _⟩, Std.min_le_left⟩

/-! The best of a pool. -/

theorem Page.sublist_of {α : Type} (p : Page) (l : List α) : (p.of l).Sublist l := by
  rw [Page.of]
  split
  · exact List.drop_sublist _ _
  · exact (List.take_sublist _ _).trans (List.drop_sublist _ _)

namespace Suggestion
variable {judge : Judge} {today : Date} {c : Client} {pool : List Client} {top : Nat}

theorem isRanking_best (hpool : (pool.map Client.id).Nodup) :
    IsRanking (best judge today c pool top) := by
  have hjudged : ((judged judge today c pool).map candidate).Nodup := by
    rw [judged, List.map_map]
    exact hpool.sublist (List.filter_sublist.map Client.id)
  have hsorted : ((judged judge today c pool).mergeSort fun x y => y.score ≤ x.score).Pairwise
      fun x y => decide (y.score ≤ x.score) = true := by
    refine List.pairwise_mergeSort (fun x y z hxy hyz => ?_) (fun x y => ?_) _
    · exact decide_eq_true (Int32.le_trans (of_decide_eq_true hyz) (of_decide_eq_true hxy))
    · simpa using Int32.le_total y.score x.score
  refine IsRanking.sublist ⟨hsorted.imp of_decide_eq_true, ?_⟩ (List.take_sublist _ _)
  exact ((List.mergeSort_perm _ _).map candidate).nodup_iff.2 hjudged

theorem length_best_le : (best judge today c pool top).length ≤ top := List.length_take_le _ _

end Suggestion

namespace Sweep
variable {b : Books} {c : Client} {limit : UInt64}

theorem nodup_pool (hb : b.clients.Sound) : ((pool b c limit).map Client.id).Nodup := by
  have hrows : (b.clients.rows.map Client.id).Nodup := by
    rw [List.Nodup, List.pairwise_map]
    exact hb.increasing.imp fun hlt => Int.ne_of_lt hlt
  exact hrows.sublist (((Page.sublist_of _ _).trans List.filter_sublist).map Client.id)

theorem mem_of_mem_pool {d : Client} (hd : d ∈ pool b c limit) : d ∈ b.clients.rows :=
  (List.mem_filter.1 (Page.mem_of_mem_of hd)).1

end Sweep

/-! The text of a shortlist is read back, or not at all. -/

section
open Coded
variable {s : Suggestion} {l : List Suggestion}

theorem Suggestion.decode?_eq_none (hs : ¬IsRowNumber s.candidate) :
    (decode? (encode s) : Option Suggestion) = none := by
  have hcandidate : (required? (some (encode s.candidate)) : Option Int) = none := if_neg hs
  rw [decode?_record (a := s) (fun _ => rfl) rfl rfl (by decide)]
  simp [hcandidate]

theorem readShortlist_of_numbers (hl : ∀ s ∈ l, IsRowNumber s.candidate) :
    readShortlist (some (writeShortlist l)) = some l :=
  (reads_list fun s hs => Suggestion.reads (hl s hs)).ofText?_toText

theorem readShortlist_of_number (hs : s ∈ l) (hout : ¬IsRowNumber s.candidate) :
    readShortlist (some (writeShortlist l)) = none := by
  have hmap : ∀ {l : List Suggestion}, s ∈ l →
      ((l.map encode).mapM decode? : Option (List Suggestion)) = none := by
    intro l hs
    induction l with
    | nil => cases hs
    | cons t l ih =>
      obtain rfl | hs := List.mem_cons.1 hs
      · simp [List.mapM_cons, Suggestion.decode?_eq_none hout]
      · cases hdecode : (decode? (encode t) : Option Suggestion) <;>
          simp [List.mapM_cons, hdecode, ih hs]
  rw [readShortlist, writeShortlist, Option.bind_some, ofText?, toText, Json.parse?_text,
    Option.bind_some]
  exact hmap hs

end

/-! The shortlists in the books. -/

structure IsKept (owner last : Int) (l : List Suggestion) : Prop extends IsRanking l where
  other : ∀ s ∈ l, s.candidate ≠ owner
  score : ∀ s ∈ l, 40 ≤ s.score ∧ s.score ≤ 99
  age : ∀ s ∈ l, 0 ≤ s.age ∧ s.age ≤ 120
  number : ∀ s ∈ l, 0 < s.candidate ∧ s.candidate ≤ last

/-- Numbers and ages are in their ranges, and every shortlist is the text of one that a sweep has
drawn up, at most as long as one of `tops` says. -/
structure Shortlisted (tops : Nat → Prop) (b : Books) : Prop where
  sound : b.clients.Sound
  last : 0 ≤ b.clients.last
  number : ∀ {x c}, b.client? x = some c → 0 < x
  age : ∀ {x c}, b.client? x = some c → c.profile.age ≤ 120
  kept : ∀ {x c text}, b.client? x = some c → c.shortlist = some text →
    ∃ l, text = writeShortlist l ∧ IsKept x b.clients.last l ∧ ∃ top, tops top ∧ l.length ≤ top

variable {tops : Nat → Prop} {b b' : Books} {m : Moment} {r : Request} {x : Int} {c c' : Client}
variable {reply : Except Failure Reply}

theorem shortlisted_empty : Shortlisted tops {} where
  sound := Table.sound_empty
  last := Int.le_refl 0
  number hc := by cases hc
  age hc := by cases hc
  kept hc := by cases hc

theorem Shortlisted.isKept_shortlistFor {s : SweepSettings} (hb : Shortlisted tops b) :
    IsKept c.id b.clients.last (Sweep.shortlistFor m s b c) := by
  have hmem : ∀ t ∈ Sweep.shortlistFor m s b c, ∃ d, b.client? d.id = some d ∧
      d.id ≤ b.clients.last ∧ d.id ≠ c.id ∧ t = .of m.today d (Sweep.judge m s c d) := by
    intro t ht
    obtain ⟨d, hd, hne, ht⟩ := Advice.exists_of_mem_best ht
    have hrow := Sweep.mem_of_mem_pool hd
    exact ⟨d, hb.sound.find?_of_mem hrow, hb.sound.le_last d hrow, hne, ht⟩
  refine ⟨Suggestion.isRanking_best (Sweep.nodup_pool hb.sound), fun t ht => ?_, fun t ht => ?_,
    fun t ht => ?_, fun t ht => ?_⟩
  all_goals obtain ⟨d, hfind, hlast, hne, rfl⟩ := hmem t ht
  · exact hne
  · exact Glance.score_mem m.today c.profile d.profile _
  · cases hage : d.profile.ageOn m.today with
    | none =>
      rw [Suggestion.of, hage]
      exact (by decide : (0 : Int32) ≤ 0 ∧ (0 : Int32) ≤ 120)
    | some age =>
      rw [Suggestion.of, hage]
      exact Profile.ageOn_mem (hb.age hfind) hage
  · exact ⟨hb.number hfind, hlast⟩

theorem IsKept.mono {owner last last' : Int} {l : List Suggestion} (hl : IsKept owner last l)
    (hle : last ≤ last') : IsKept owner last' l :=
  ⟨hl.toIsRanking, hl.other, hl.score, hl.age, fun s hs =>
    ⟨(hl.number s hs).1, Int.le_trans (hl.number s hs).2 hle⟩⟩

theorem Books.Stroke.last_clients_le {marks : Prop} (hs : b.Stroke marks b') :
    b.clients.last ≤ b'.clients.last := by
  cases hs with
  | register p =>
    have hlast : (b.withClient p).clients.last = b.clients.last + 1 := rfl
    omega
  | _ => exact Int.le_refl _

/-- A profile is as before or was taken in. -/
theorem Client.Becomes.profile_cases (h : c.Becomes b m r reply c') :
    c'.profile = c.profile ∨ c'.profile.IsTakenIn := by
  cases h with
  | edited hr hp hg => exact .inr ⟨_, hp, rfl⟩
  | _ => exact .inl rfl

/-- A shortlist is as before, or is written by hand or by a sweep. -/
theorem Client.Becomes.shortlist_cases (h : c.Becomes b m r reply c') :
    c'.shortlist = c.shortlist ∨ (∃ text, r = .book (.writeShortlist c.id text)) ∨
      ∃ s, r = .sweep s ∧ c'.shortlist = some (writeShortlist (Sweep.shortlistFor m s b c)) := by
  cases h with
  | listed hr => exact .inr (.inl ⟨_, hr⟩)
  | swept hr hreply hc => exact .inr (.inr ⟨_, hr, rfl⟩)
  | _ => exact .inl rfl

namespace BookRequest

def isListing : BookRequest → Bool
  | .writeShortlist _ _ => true
  | _ => false

end BookRequest

def Request.isOrdinary : Request → Bool
  | .book r => !r.isListing
  | .transaction rs _ => rs.all (!·.isListing)
  | .forceStanding _ _ | .arm _ => false
  | _ => true

namespace Agency
variable {tops : Nat → Prop} {a : Agency} {m : Moment} {r : Request}

theorem last_le_of_serve : a.books.clients.last ≤ (a.serve m r).2.books.clients.last := by
  have hstrokes : a.books.Strokes True (a.serve m r).2.books := strokes_of_serve fun _ => trivial
  exact hstrokes.keep (P := fun b => a.books.clients.last ≤ b.clients.last)
    (fun hs hle => Int.le_trans hle hs.last_clients_le) (Int.le_refl _)

theorem shortlisted_of_step (hf : a.hazards.faults = []) (ht : r.isTransaction = false)
    (hr : r.isOrdinary) (htops : ∀ s, r = .sweep s → tops s.top.toNat)
    (hb : Shortlisted tops a.books) : Shortlisted tops (a.serve m r).2.books := by
  have hforced : r.isForced = false := by
    cases r with
    | forceStanding id s => cases hr
    | _ => rfl
  have hyields : ∀ {x c'}, (a.serve m r).2.books.client? x = some c' →
      a.books.Yields m r (a.serve m r).1 x c' := yields_of_serve hf hb.sound ht hforced
  have hlast : a.books.clients.last ≤ (a.serve m r).2.books.clients.last := last_le_of_serve
  have hnext : 0 < a.books.clients.next := Int.lt_add_one_of_le hb.last
  refine ⟨sound_of_serve hb.sound, Int.le_trans hb.last hlast, fun {x c'} hc => ?_,
    fun {x c'} hc => ?_, fun {x c' text} hc htext => ?_⟩
  · obtain ⟨c, hfind, -⟩ | ⟨p, -, -, rfl, -⟩ := hyields hc
    · exact hb.number hfind
    · exact hnext
  · obtain ⟨c, hfind, hbecomes⟩ | ⟨p, -, hp, -, rfl⟩ := hyields hc
    · obtain hsame | ⟨p, hp, hprofile⟩ := hbecomes.profile_cases
      · rw [hsame]
        exact hb.age hfind
      · rw [hprofile, Profile.age_normalize]
        exact Profile.age_le_of_check hp
    · dsimp only
      rw [Profile.age_normalize]
      exact Profile.age_le_of_check hp
  · obtain ⟨c, hfind, hbecomes⟩ | ⟨p, -, -, -, rfl⟩ := hyields hc
    · obtain hsame | ⟨_, rfl⟩ | ⟨s, rfl, hswept⟩ := hbecomes.shortlist_cases
      · obtain ⟨l, hl, hkept, htop⟩ := hb.kept hfind (hsame ▸ htext)
        exact ⟨l, hl, hkept.mono hlast, htop⟩
      · cases hr
      · have hid : c.id = x := Table.id_of_find? hfind
        rw [hswept] at htext
        refine ⟨_, (Option.some.inj htext).symm, ?_, s.top.toNat, htops s rfl,
          Suggestion.length_best_le⟩
        rw [← hid]
        exact hb.isKept_shortlistFor.mono hlast
    · cases htext

theorem shortlisted_of_serve (hf : a.hazards.faults = []) (hr : r.isOrdinary)
    (htops : ∀ s, r = .sweep s → tops s.top.toNat) (hb : Shortlisted tops a.books) :
    Shortlisted tops (a.serve m r).2.books := by
  refine books_of_steps hb fun q hq hqb => ?_
  have hqf : q.1.hazards.faults = [] := by rw [hazards_of_mem_steps hq, hf]
  obtain ⟨ht, rfl⟩ | ⟨rs, ending, rfl, r, hmem, hbook⟩ := mem_steps hq
  · exact shortlisted_of_step hf ht hr htops hqb
  · have hlisting : (Request.book r).isOrdinary := List.all_eq_true.1 hr r hmem
    rw [hbook]
    exact shortlisted_of_step hqf rfl hlisting nofun hqb

theorem faults_serve (hr : r.isOrdinary) : (a.serve m r).2.hazards.faults = a.hazards.faults := by
  cases r with
  | arm fault => cases hr
  | holdWriter => rfl
  | dropWriter => rfl
  | _ => exact congrArg Hazards.faults (hazards_serve rfl)

theorem shortlisted_after {rs : List (Moment × Request)} (hf : a.hazards.faults = [])
    (hr : ∀ q ∈ rs, q.2.isOrdinary) (htops : ∀ m s, (m, .sweep s) ∈ rs → tops s.top.toNat)
    (hb : Shortlisted tops a.books) : Shortlisted tops (a.after rs).books := by
  induction rs generalizing a with
  | nil => exact hb
  | cons q rs ih =>
    obtain ⟨m, r⟩ := q
    have hq : r.isOrdinary := hr (m, r) List.mem_cons_self
    have hstep : Shortlisted tops (a.serve m r).2.books := by
      refine shortlisted_of_serve hf hq (fun s hs => htops m s ?_) hb
      rw [hs]
      exact List.mem_cons_self
    rw [after_cons]
    refine ih ((faults_serve hq).trans hf) (fun q hq => hr q (List.mem_cons_of_mem _ hq)) ?_ hstep
    exact fun m s hs => htops m s (List.mem_cons_of_mem _ hs)

end Agency

/-- Advice from a kept shortlist is a ranking because the list is one, and advice given anew because
it is drawn up as one. -/
theorem Shortlisted.isRanking_give {tops : Nat → Prop} {b : Books} {today : Date} {x : Int}
    {limit poolLimit : UInt64} {adv : Advice} (hb : Shortlisted tops b)
    (hadv : Advice.give today b x limit poolLimit = .ok adv) :
    adv.suggestions.length ≤ limit.toNat ∧ IsRanking adv.suggestions := by
  rw [Advice.give] at hadv
  obtain ⟨c, hc, hadv⟩ := bind_eq_ok.1 hadv
  have hc := Books.fetchClient_eq_ok.1 (mapError_eq_ok.1 hc)
  have hkept : IsRanking ((readShortlist c.shortlist).getD []) := by
    cases htext : c.shortlist with
    | none => exact isRanking_nil
    | some text =>
      obtain ⟨l, rfl, hl, -⟩ := hb.kept hc htext
      by_cases hnumbers : ∀ s ∈ l, Coded.IsRowNumber s.candidate
      · rw [readShortlist_of_numbers hnumbers]
        exact hl.toIsRanking
      · obtain ⟨s, hs, hout⟩ := by simpa using hnumbers
        rw [readShortlist_of_number hs hout]
        exact isRanking_nil
  dsimp only at hadv
  split at hadv
  · cases hadv
    exact ⟨Suggestion.length_best_le, Suggestion.isRanking_best (Sweep.nodup_pool hb.sound)⟩
  · cases hadv
    dsimp only
    rw [Advice.gather_eq]
    refine ⟨List.length_take_le _ _, hkept.sublist ?_⟩
    exact (List.take_sublist _ _).trans List.filter_sublist

namespace Agency

/-- From empty books, through requests that write no shortlist by hand, force no standing and arm no
fault: every shortlist is the text of a ranking, no longer than a sweep of the run was to make it,
with every score in 40 to 99 and every age in 0 to 120. It is read back as it was drawn up, as long
as the numbers of clients fit in 64 bits. Advice is a ranking of no more than are asked for, for
everyone who is there. -/
theorem shortlists_kept {rs : List (Moment × Request)} (hr : ∀ q ∈ rs, q.2.isOrdinary) :
    let a := ({} : Agency).after rs
    (∀ c ∈ a.books.clients.rows, ∀ text, c.shortlist = some text → ∃ l,
      text = writeShortlist l ∧
      (a.books.clients.last ≤ Int64.maxValue.toInt → readShortlist c.shortlist = some l) ∧
      IsRanking l ∧
      (∀ s ∈ l, s.candidate ≠ c.id ∧ (40 ≤ s.score ∧ s.score ≤ 99) ∧ 0 ≤ s.age ∧ s.age ≤ 120) ∧
      ∃ m s, (m, .sweep s) ∈ rs ∧ l.length ≤ s.top.toNat) ∧
    ∀ m id limit poolLimit,
      a.books.client? id = none ∧ a.serve m (.advise id limit poolLimit) =
        (.error (.agency (.absent .client (toString id))), a) ∨
      ∃ adv, a.serve m (.advise id limit poolLimit) = (.ok (.advice adv), a) ∧
        adv.suggestions.length ≤ limit.toNat ∧ IsRanking adv.suggestions := by
  intro a
  have hb : Shortlisted (fun top => ∃ m s, (m, .sweep s) ∈ rs ∧ s.top.toNat = top) a.books :=
    shortlisted_after rfl hr (fun m s hs => ⟨m, s, hs, rfl⟩) shortlisted_empty
  refine ⟨fun c hc text htext => ?_, fun m id limit poolLimit => ?_⟩
  · have hfind : a.books.client? c.id = some c := hb.sound.find?_of_mem hc
    obtain ⟨l, rfl, hl, _, ⟨m, s, hsweep, rfl⟩, hlength⟩ := hb.kept hfind htext
    refine ⟨l, rfl, fun hlast => ?_, hl.toIsRanking, fun t ht => ?_, m, s, hsweep, hlength⟩
    · rw [htext]
      refine readShortlist_of_numbers fun t ht => ?_
      obtain ⟨hpos, hle⟩ := hl.number t ht
      have hleast : Int64.minValue.toInt ≤ 0 := by decide
      exact ⟨by omega, by omega⟩
    · exact ⟨hl.other t ht, hl.score t ht, hl.age t ht⟩
  · have hserve : a.serve m (.advise id limit poolLimit) =
        (((Advice.give m.today a.books id limit poolLimit).map Reply.advice).mapError .agency, a) :=
      rfl
    cases hfind : a.books.client? id with
    | none =>
      refine .inl ⟨rfl, ?_⟩
      rw [hserve, Advice.give, Books.fetchClient, hfind]
      rfl
    | some c =>
      obtain ⟨adv, hgive, -⟩ := Advice.exists_give hb.sound hfind m.today limit poolLimit
      refine .inr ⟨adv, ?_, hb.isRanking_give hgive⟩
      rw [hserve, hgive]
      rfl

end Agency

namespace Sample

def registered : List (Moment × Request) :=
  [.book (.register man), .book (.register woman)].map (newYear, ·)

def listed : List (Moment × Request) := registered ++ [(newYear, .sweep { top := 1, jitter := 5 })]

end Sample

theorem Agency.shortlists_kept_sample :
    (∀ q ∈ Sample.listed, q.2.isOrdinary) ∧
      let a := ({} : Agency).after Sample.listed
      ∃ c ∈ a.books.clients.rows, ∃ l, readShortlist c.shortlist = some l ∧ IsRanking l ∧
        (∃ m s, (m, .sweep s) ∈ Sample.listed ∧ l.length ≤ s.top.toNat) ∧
        ∃ adv, a.serve Sample.newYear (.advise c.id 5 5) = (.ok (.advice adv), a) ∧
          adv.suggestions.length ≤ 5 ∧ IsRanking adv.suggestions := by
  have hr : ∀ q ∈ Sample.listed, q.2.isOrdinary := by decide
  have hrun := Sweep.run_eq_drawn (h := {}) (m := Sample.newYear)
    (s := { top := 1, jitter := 5 }) (b := (({} : Agency).after Sample.registered).books) rfl
    ⟨by decide +kernel, by decide +kernel⟩
  have hbooks : (({} : Agency).after Sample.listed).books = (Sweep.run {} Sample.newYear
      { top := 1, jitter := 5 } (({} : Agency).after Sample.registered).books).2 := rfl
  rw [if_neg (by decide)] at hrun
  rw [hrun] at hbooks
  have hfirst : ∃ c, (({} : Agency).after Sample.listed).books.client? 1 = some c ∧
      c.shortlist.isSome := by
    rw [hbooks]
    exact ⟨_, rfl, rfl⟩
  have hlast : (({} : Agency).after Sample.listed).books.clients.last ≤ Int64.maxValue.toInt := by
    rw [hbooks]
    decide
  obtain ⟨c, hc, hsome⟩ := hfirst
  obtain ⟨text, htext⟩ := Option.isSome_iff_exists.1 hsome
  obtain ⟨hkept, hadvice⟩ := shortlists_kept hr
  obtain ⟨l, -, hread, hl, -, hlength⟩ := hkept c (Table.mem_of_find? hc) text htext
  refine ⟨hr, c, Table.mem_of_find? hc, l, hread hlast, hl, hlength, ?_⟩
  obtain ⟨hnone, -⟩ | hadv := hadvice Sample.newYear c.id 5 5
  · have hid : c.id = 1 := Table.id_of_find? hc
    rw [hid, hc] at hnone
    cases hnone
  · exact hadv

end Matchmaking
