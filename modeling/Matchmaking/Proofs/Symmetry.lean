import Matchmaking.Proofs.Arranging
import Matchmaking.Proofs.Shortlists

/-! One pair has one precise verdict. The five factors and the reasons do not depend on who of the
two is named first, so the score kept with a new pairing, the suggestions that are judged anew and
the verdict that is asked for say the same of the same two. -/
namespace Matchmaking

namespace Pair
variable {today : Date} {a b : Profile}

theorem abs_neg (x : Int32) : (-x).abs = x.abs := by
  apply Int32.toBitVec_inj.1
  rw [Int32.toBitVec_abs, Int32.toBitVec_neg, Int32.toBitVec_abs, BitVec.abs_eq, BitVec.abs_eq,
    BitVec.msb_eq_decide, BitVec.msb_eq_decide]
  split <;> split <;> simp_all <;> bv_omega

theorem gap_comm (x y : Int32) : gap x y = gap y x := by
  rw [gap, gap, ← Int32.neg_sub, abs_neg]

theorem couple?_comm : couple? a b = couple? b a := coupleBy_comm _ _ _

theorem ages_comm : ages today b a = (ages today a b).map Prod.swap := by
  rw [ages, ages]
  cases a.ageOn today <;> cases b.ageOn today <;> rfl

theorem educationsKnown_comm : educationsKnown a b = educationsKnown b a := Bool.and_comm _ _

theorem incomesKnown_comm : incomesKnown a b = incomesKnown b a := Bool.and_comm _ _

end Pair

namespace FiveFactor
open Pair
variable {today : Date} {a b : Profile}

theorem heightPoints_comm : heightPoints a b = heightPoints b a := by
  rw [heightPoints, couple?_comm, heightPoints]

theorem maritalPoints_comm : maritalPoints a b = maritalPoints b a := by
  simp only [maritalPoints, eq_comm (a := a.marital), or_comm]

theorem agePoints_comm : agePoints today a b = agePoints today b a := by
  rw [agePoints, couple?_comm, agePoints]

theorem educationPoints_comm : educationPoints a b = educationPoints b a := by
  rw [educationPoints, educationPoints, educationsKnown_comm, gap_comm]

theorem incomeGap_comm : incomeGap a b = incomeGap b a := by
  rw [incomeGap, incomeGap, incomesKnown_comm, Int.max_comm, Int.min_comm]

theorem incomePoints_comm : incomePoints a b = incomePoints b a := by
  rw [incomePoints, incomeGap_comm, incomePoints]

theorem shared_comm (both one : Int32) (p q : Bool) : shared both one p q = shared both one q p := by
  cases p <;> cases q <;> rfl

theorem belongingsPoints_comm : belongingsPoints a b = belongingsPoints b a := by
  rw [belongingsPoints, belongingsPoints, shared_comm, shared_comm 10]

theorem score_comm : score today a b = score today b a := by
  rw [score, score, total, total, factors, factors, personPoints, personPoints, heightPoints_comm,
    maritalPoints_comm, agePoints_comm, educationPoints_comm, incomePoints_comm,
    belongingsPoints_comm]

theorem agesClose_comm : agesClose today a b = agesClose today b a := by
  rw [agesClose, agesClose, ages_comm (a := a)]
  cases ages today a b with
  | none => rfl
  | some xy => exact congrArg (fun g => decide (g ≤ 3)) (gap_comm _ _)

theorem educationsClose_comm : educationsClose a b = educationsClose b a := by
  rw [educationsClose, educationsClose, educationsKnown_comm, gap_comm]

theorem heightsFit_comm : heightsFit a b = heightsFit b a := by
  rw [heightsFit, couple?_comm, heightsFit]

theorem incomesClose_comm : incomesClose a b = incomesClose b a := by
  rw [incomesClose, incomeGap_comm, incomesClose]

theorem reasons_comm : reasons today a b = reasons today b a := by
  rw [reasons, reasons, agesClose_comm, educationsClose_comm, heightsFit_comm, incomesClose_comm,
    Bool.and_comm a.housing.isOwner, Bool.and_comm a.hasCar]
  simp only [eq_comm]

theorem judge_comm : judge today a b = judge today b a := by
  rw [judge, judge, score_comm, reasons_comm]

end FiveFactor

namespace Advice
variable {today : Date} {b : Books} {x y : Int} {c d : Client}

theorem verdict_eq : verdict today b x y =
    match b.client? x, b.client? y with
    | none, _ => .error (.absent .client (toString x))
    | some _, none => .error (.absent .client (toString y))
    | some c, some d =>
      if areOpposite (·.profile.gender) c d then .ok (judge today c d)
      else .error (.objection .oneGender) := by
  rw [verdict, Books.fetchClient, Books.fetchClient]
  cases b.client? x with
  | none => rfl
  | some c =>
    cases b.client? y with
    | none => rfl
    | some d => rfl

/-- The order of the two shows only where neither is there. -/
theorem verdict_comm (hthere : b.client? x ≠ none ∨ b.client? y ≠ none) :
    verdict today b x y = verdict today b y x := by
  rw [verdict_eq, verdict_eq]
  cases hx : b.client? x with
  | none =>
    cases hy : b.client? y with
    | none => simp [hx, hy] at hthere
    | some d => rfl
  | some c =>
    cases hy : b.client? y with
    | none => rfl
    | some d =>
      dsimp only
      rw [areOpposite, coupleBy_comm, ← areOpposite, judge, judge, FiveFactor.judge_comm]

theorem client?_of_verdict {v : Verdict} (hv : verdict today b x y = .ok v) : b.client? x ≠ none := by
  intro hx
  rw [verdict_eq, hx] at hv
  cases hv

theorem verdict_of_opposite (hc : b.client? x = some c) (hd : b.client? y = some d)
    (ho : areOpposite (·.profile.gender) c d) : verdict today b x y = .ok (judge today c d) := by
  rw [verdict_eq, hc, hd]
  exact if_pos ho

/-- A suggestion that is judged anew has the score and the reasons of the verdict on the pair. -/
theorem verdict_of_computed {limit poolLimit : UInt64} {l : List Suggestion} {s : Suggestion}
    (hb : b.clients.Sound) (hadv : give today b x limit poolLimit = .ok ⟨.computed, l⟩)
    (hs : s ∈ l) : verdict today b x s.candidate = .ok ⟨s.score, s.tags⟩ := by
  rw [give] at hadv
  obtain ⟨c, hc, hadv⟩ := bind_eq_ok.1 hadv
  have hc := Books.fetchClient_eq_ok.1 (mapError_eq_ok.1 hc)
  dsimp only at hadv
  split at hadv
  · cases hadv
    obtain ⟨d, hd, -, rfl⟩ := exists_of_mem_best hs
    obtain ⟨d', hfind, -, ho⟩ := stillSuits_iff.1 (stillSuits_of_mem_pool hb hd)
    obtain rfl := hb.eq_of_find? hfind (Sweep.mem_of_mem_pool hd) rfl
    exact verdict_of_opposite hc hfind ho
  · cases hadv

end Advice

namespace Courtship
variable {h : Hazards} {today : Date} {b b' : Books} {x y n : Int} {admin remark : String}
variable {p : NewPairing} {q : Pairing}

theorem verdict_of_propose (hp : propose today x y admin remark b = .ok p) :
    ∃ v, Advice.verdict today b x y = .ok v ∧ p.score = v.score := by
  obtain ⟨c, d, man, woman, hc, hd, hcouple, hman, hwoman, -, -⟩ := propose_ok hp
  have hopposite : areOpposite (·.profile.gender) c d := by
    rw [areOpposite, hcouple]
    rfl
  refine ⟨_, Advice.verdict_of_opposite hc hd hopposite, ?_⟩
  have hne : x ≠ y := by
    rintro rfl
    rw [propose, if_pos rfl] at hp
    cases hp
  rw [propose_of_ne hne, hc, hd] at hp
  dsimp only at hp
  rw [hcouple] at hp
  simp only [hman, hwoman] at hp
  cases hp
  obtain ⟨-, -, ⟨rfl, rfl⟩ | ⟨rfl, rfl⟩⟩ := of_coupleBy hcouple
  · rfl
  · exact congrArg Verdict.score FiveFactor.judge_comm

theorem pairings_attach {r : Bool} (ha : b.attach h x y = .ok (r, b')) :
    b'.pairings = b.pairings := by
  obtain ⟨-, rfl⟩ | ⟨-, -, -, -, rfl⟩ := Books.attach_ok ha
  · rfl
  · exact Books.pairings_setPartner

/-- A pairing that was entered is kept as it was proposed. -/
theorem pairing?_enter (hb : b.pairings.Sound) (he : enter h p b = (.ok n, b')) :
    b'.pairing? n = some (p.at n) := by
  obtain ⟨b₁, b₂, hman, hwoman, ha⟩ := enter_ok he
  obtain ⟨rfl, -, rfl⟩ := Books.addPairing_ok ha
  have hsame : b₂.pairings = b.pairings := (pairings_attach hwoman).trans (pairings_attach hman)
  rw [Books.pairing?, Books.withPairing, hsame, hb.find?_add rfl, if_pos rfl]

theorem arrange_ok (hb : b.pairings.Sound)
    (ha : arrange h today x y admin remark b = (.ok q, b')) :
    b'.pairing? q.id = some q ∧
      ∃ p, propose today x y admin remark b = .ok p ∧ q.score = p.score := by
  rw [arrange] at ha
  cases hp : propose today x y admin remark b with
  | error e =>
    rw [hp] at ha
    cases ha
  | ok p =>
    rw [hp] at ha
    dsimp only at ha
    rcases he : (enter h p).commit b with ⟨e | n, b₁⟩
    · rw [he] at ha
      cases ha
    · rw [he] at ha
      have hq := pairing?_enter hb (Work.commit_eq_ok.1 he)
      have hfetch : (b₁.fetchPairing n).mapError AgencyError.ofBooks = .ok q := congrArg Prod.fst ha
      obtain rfl : b₁ = b' := congrArg Prod.snd ha
      rw [mapError_eq_ok, Books.fetchPairing_eq_ok, hq] at hfetch
      obtain rfl := Option.some.inj hfetch
      exact ⟨hq, p, rfl, rfl⟩

end Courtship

namespace Agency
variable {a a' : Agency} {m : Moment} {x y : Int} {admin remark : String} {p : Pairing}

theorem of_settle_eq_ok {α : Type} {reply : α → Reply} {r : Except AgencyError α × Books} {y : Reply}
    (h : a.settle reply r = (.ok y, a')) : ∃ z, r = (.ok z, a'.books) ∧ y = reply z := by
  obtain ⟨e | z, b⟩ := r
  · cases h
  · cases h
    exact ⟨z, rfl, rfl⟩

theorem serve_verdict {v : Verdict} (hv : Advice.verdict m.today a.books x y = .ok v) :
    a.serve m (.verdict x y) = (.ok (.verdict v), a) := by
  rw [serve, hv]
  rfl

theorem verdict_of_arranged (hb : a.books.pairings.Sound)
    (ha : a.serve m (.arrange x y admin remark) = (.ok (.book (.pairing p)), a')) :
    a'.books.pairing? p.id = some p ∧
      ∃ v, Advice.verdict m.today a.books x y = .ok v ∧ p.score = v.score := by
  obtain ⟨q, hq, hreply⟩ := of_settle_eq_ok ha
  cases hreply
  obtain ⟨hkept, proposal, hproposal, hscore⟩ := Courtship.arrange_ok hb hq
  obtain ⟨v, hv, hproposed⟩ := Courtship.verdict_of_propose hproposal
  exact ⟨hkept, v, hv, hscore.trans hproposed⟩

/-- Under any hazards, on any books that number their clients and their pairings soundly, the
precise verdict on two is the same whoever is named first (of two who are both absent, the first is
named in the answer); a pairing that is arranged is kept with the score of that verdict, and a
suggestion that is judged anew has its score and its reasons. -/
theorem verdicts_agree (hclients : a.books.clients.Sound) (hpairings : a.books.pairings.Sound)
    (m : Moment) :
    (∀ p q : Profile, FiveFactor.judge m.today p q = FiveFactor.judge m.today q p) ∧
    (∀ x y, a.books.client? x ≠ none ∨ a.books.client? y ≠ none →
      a.serve m (.verdict x y) = a.serve m (.verdict y x)) ∧
    (∀ x y admin remark p a', a.serve m (.arrange x y admin remark) = (.ok (.book (.pairing p)), a') ∨
        a.serve m (.arrange y x admin remark) = (.ok (.book (.pairing p)), a') →
      a'.books.pairing? p.id = some p ∧
        ∃ v, a.serve m (.verdict x y) = (.ok (.verdict v), a) ∧ p.score = v.score) ∧
    ∀ x limit poolLimit l,
      a.serve m (.advise x limit poolLimit) = (.ok (.advice ⟨.computed, l⟩), a) →
      ∀ s ∈ l, a.serve m (.verdict x s.candidate) = (.ok (.verdict ⟨s.score, s.tags⟩), a) := by
  refine ⟨fun _ _ => FiveFactor.judge_comm, fun x y hthere => ?_, ?_, ?_⟩
  · rw [serve, serve, Advice.verdict_comm hthere]
  · rintro x y admin remark p a' (ha | ha)
    · obtain ⟨hkept, v, hv, hscore⟩ := verdict_of_arranged hpairings ha
      exact ⟨hkept, v, serve_verdict hv, hscore⟩
    · obtain ⟨hkept, v, hv, hscore⟩ := verdict_of_arranged hpairings ha
      have hthere := Advice.client?_of_verdict hv
      rw [Advice.verdict_comm (.inl hthere)] at hv
      exact ⟨hkept, v, serve_verdict hv, hscore⟩
  · intro x limit poolLimit l ha s hs
    obtain ⟨adv, hadv, hreply⟩ := of_settle_eq_ok ha
    cases hreply
    exact serve_verdict (Advice.verdict_of_computed hclients (congrArg Prod.fst hadv) hs)

/-- The woman is named first where the pairing is arranged, and the man where the verdict is asked
for. -/
theorem verdicts_agree_sample :
    let a : Agency := { books := Sample.parlour }
    a.books.clients.Sound ∧ a.books.pairings.Sound ∧
      a.serve Sample.newYear (.verdict 1 9) = a.serve Sample.newYear (.verdict 9 1) ∧
      (∃ p a' v, a.serve Sample.newYear (.arrange 2 1 "" "") = (.ok (.book (.pairing p)), a') ∧
        a'.books.pairing? p.id = some p ∧
        a.serve Sample.newYear (.verdict 1 2) = (.ok (.verdict v), a) ∧ p.score = v.score) ∧
      ∃ s, a.serve Sample.newYear (.advise 1 1 1) = (.ok (.advice ⟨.computed, [s]⟩), a) ∧
        a.serve Sample.newYear (.verdict 1 s.candidate) =
          (.ok (.verdict ⟨s.score, s.tags⟩), a) := by
  intro a
  have hclients : a.books.clients.Sound := ⟨by decide, by decide⟩
  have hpairings : a.books.pairings.Sound := Table.sound_empty
  obtain ⟨-, hcomm, harranged, hcomputed⟩ := verdicts_agree hclients hpairings Sample.newYear
  have harrange : ∃ p a', a.serve Sample.newYear (.arrange 2 1 "" "") =
      (.ok (.book (.pairing p)), a') := ⟨_, _, rfl⟩
  have hadvise : ∃ s, a.serve Sample.newYear (.advise 1 1 1) =
      (.ok (.advice ⟨.computed, [s]⟩), a) := by
    have hserve : a.serve Sample.newYear (.advise 1 1 1) =
        (.ok (.advice ⟨.computed, ([_].mergeSort _).take 1⟩), a) := rfl
    rw [List.mergeSort_singleton] at hserve
    exact ⟨_, hserve⟩
  obtain ⟨p, a', hp⟩ := harrange
  obtain ⟨s, hs⟩ := hadvise
  obtain ⟨hkept, v, hv, hscore⟩ := harranged 1 2 "" "" p a' (.inr hp)
  exact ⟨hclients, hpairings, hcomm 1 9 (.inl (by decide)), ⟨p, a', v, hp, hkept, hv, hscore⟩,
    s, hs, hcomputed 1 1 1 [s] hs s List.mem_cons_self⟩

end Agency

end Matchmaking
