import Matchmaking.Proofs.Requests
import Mathlib.Data.List.FinRange
import Mathlib.Data.List.Forall2

/-! The best of a pool, by their places in it. Those kept are as many as are asked for, the higher
score comes first and, of equals, the earlier place, and whoever is left out comes after all of
them. There is one such selection only, and a shorter one is the beginning of a longer. Of each it
is told who they are, how old, and with which score and for which reasons. -/
namespace Matchmaking

section
variable {α : Type} {le : α → α → Bool} {R : α → α → Prop} {l : List α}

/-- Among elements that count as equal, a stable sort keeps the order of the list. -/
theorem pairwise_mergeSort_of_pairwise (htrans : ∀ a b c, le a b → le b c → le a c)
    (htotal : ∀ a b, le a b || le b a) (hl : l.Pairwise R) :
    (l.mergeSort le).Pairwise fun a b => le a b ∧ (le b a → R a b) := by
  induction l with
  | nil => simp
  | cons a l ih =>
    -- The head goes before all that it does not exceed, and those stood after it.
    obtain ⟨l₁, l₂, hcons, hrest, hbefore⟩ := List.mergeSort_cons htrans htotal a l
    obtain ⟨hfirst, hl⟩ := List.pairwise_cons.1 hl
    have hsorted := List.pairwise_mergeSort htrans htotal (a :: l)
    have hkept := ih hl
    rw [hcons, List.pairwise_append, List.pairwise_cons] at hsorted
    rw [hrest, List.pairwise_append] at hkept
    obtain ⟨-, ⟨hafter, -⟩, hcross⟩ := hsorted
    obtain ⟨hkept₁, hkept₂, hkeptCross⟩ := hkept
    rw [hcons, List.pairwise_append, List.pairwise_cons]
    refine ⟨hkept₁, ⟨fun b hb => ⟨hafter b hb, fun _ => hfirst b ?_⟩, hkept₂⟩, fun b hb c hc => ?_⟩
    · have hmem : b ∈ l.mergeSort le := hrest ▸ List.mem_append_right l₁ hb
      exact List.mem_mergeSort.1 hmem
    · obtain rfl | hc := List.mem_cons.1 hc
      · have hnot : le c b = false := by simpa using hbefore b hb
        exact ⟨hcross b hb c List.mem_cons_self, fun hle => by rw [hnot] at hle; cases hle⟩
      · exact hkeptCross b hb c hc

end

namespace Suggestion

structure Describes (today : Date) (c : Client) (v : Verdict) (s : Suggestion) : Prop where
  candidate : s.candidate = c.id
  name : s.name = c.profile.name
  avatar : s.avatar = c.profile.avatar
  score : s.score = v.score
  tags : s.tags = v.tags
  age : s.age = (c.profile.ageOn today).getD 0
  height : s.height = c.profile.height
  education : s.education = c.profile.education

variable (judge : Judge) (today : Date) (client : Client) (pool : List Client)

def entry (i : Fin pool.length) : Suggestion := .of today pool[i] (judge client pool[i])

def Precedes (i j : Fin pool.length) : Prop :=
  (judge client pool[j]).score < (judge client pool[i]).score ∨
    (judge client pool[j]).score = (judge client pool[i]).score ∧ i < j

instance (i j : Fin pool.length) : Decidable (Precedes judge client pool i j) :=
  inferInstanceAs (Decidable (_ ∨ _))

/-- The places of the best `top` candidates, the client apart. -/
structure IsSelection (top : Nat) (kept : List (Fin pool.length)) : Prop where
  other : ∀ i ∈ kept, pool[i].id ≠ client.id
  length : kept.length = min top (pool.countP (·.id != client.id))
  ordered : kept.Pairwise (Precedes judge client pool)
  leftOut : ∀ j, pool[j].id ≠ client.id → j ∉ kept → ∀ i ∈ kept, Precedes judge client pool i j

def ranking : List (Fin pool.length) :=
  ((List.finRange pool.length).filter fun i => pool[i].id != client.id).mergeSort
    fun i j => (judge client pool[j]).score ≤ (judge client pool[i]).score

variable {judge today client pool} {top : Nat} {i j k : Fin pool.length}
variable {kept : List (Fin pool.length)}

theorem Precedes.irrefl (hi : Precedes judge client pool i i) : False := by
  obtain hlt | ⟨-, hlt⟩ := hi
  · exact Int32.lt_irrefl hlt
  · exact lt_irrefl i hlt

theorem Precedes.asymm (hij : Precedes judge client pool i j) : ¬Precedes judge client pool j i := by
  intro hji
  obtain hij | ⟨heq, hij⟩ := hij
  · obtain hji | ⟨heq, -⟩ := hji
    · exact Int32.lt_asymm hij hji
    · exact Int32.lt_irrefl (heq ▸ hij)
  · obtain hji | ⟨-, hji⟩ := hji
    · exact Int32.lt_irrefl (heq ▸ hji)
    · exact lt_asymm hij hji

theorem mem_ranking : i ∈ ranking judge client pool ↔ pool[i].id ≠ client.id := by
  simp [ranking]

theorem pairwise_ranking : (ranking judge client pool).Pairwise (Precedes judge client pool) := by
  have hplaces : ((List.finRange pool.length).filter fun i => pool[i].id != client.id).Pairwise
      (· < ·) := (List.pairwise_lt_finRange _).filter _
  refine (pairwise_mergeSort_of_pairwise (fun i j k hij hjk => ?_) (fun i j => ?_) hplaces).imp ?_
  · exact decide_eq_true (Int32.le_trans (of_decide_eq_true hjk) (of_decide_eq_true hij))
  · simpa using Int32.le_total (judge client pool[j]).score (judge client pool[i]).score
  · rintro i j ⟨hle, hplace⟩
    by_cases hge : (judge client pool[i]).score ≤ (judge client pool[j]).score
    · exact .inr ⟨Int32.le_antisymm (of_decide_eq_true hle) hge, hplace (decide_eq_true hge)⟩
    · exact .inl (Int32.not_le.1 hge)

theorem nodup_of_pairwise (hk : kept.Pairwise (Precedes judge client pool)) : kept.Nodup := by
  refine hk.imp fun {i j} hij => ?_
  rintro rfl
  exact hij.irrefl

theorem length_ranking :
    (ranking judge client pool).length = pool.countP (·.id != client.id) := by
  conv_rhs => rw [← List.map_get_finRange pool]
  rw [ranking, List.length_mergeSort, List.countP_map, List.countP_eq_length_filter]
  rfl

theorem describes_iff {c : Client} {v : Verdict} {s : Suggestion} :
    Describes today c v s ↔ of today c v = s := by
  constructor
  · intro h
    rw [of, ← h.candidate, ← h.name, ← h.avatar, ← h.score, ← h.tags, ← h.age, ← h.height,
      ← h.education]
  · rintro rfl
    exact ⟨rfl, rfl, rfl, rfl, rfl, rfl, rfl, rfl⟩

theorem forall₂_describes_iff {l : List Suggestion} :
    List.Forall₂ (fun i => Describes today pool[i] (judge client pool[i])) kept l ↔
      kept.map (entry judge today client pool) = l := by
  rw [← List.forall₂_eq_eq_eq, List.forall₂_map_left_iff]
  exact ⟨fun h => h.imp fun _ _ => describes_iff.1, fun h => h.imp fun _ _ => describes_iff.2⟩

theorem map_entry_ranking : (ranking judge client pool).map (entry judge today client pool) =
    (judged judge today client pool).mergeSort fun x y => y.score ≤ x.score := by
  have hjudged : judged judge today client pool =
      ((List.finRange pool.length).filter fun i => pool[i].id != client.id).map
        (entry judge today client pool) := by
    conv_lhs => rw [judged, ← List.map_get_finRange pool]
    rw [List.filter_map, List.map_map]
    rfl
  rw [hjudged]
  exact List.map_mergeSort fun i _ j _ => rfl

theorem best_eq_map_take : best judge today client pool top =
    ((ranking judge client pool).take top).map (entry judge today client pool) := by
  rw [best, ← map_entry_ranking, List.map_take]

theorem isSelection_take_ranking :
    IsSelection judge client pool top ((ranking judge client pool).take top) where
  other i hi := mem_ranking.1 (List.mem_of_mem_take hi)
  length := by rw [List.length_take, length_ranking]
  ordered := pairwise_ranking.sublist (List.take_sublist _ _)
  leftOut j hj hout i hi := by
    have hmem : j ∈ (ranking judge client pool).drop top := by
      have hall : j ∈ ranking judge client pool := mem_ranking.2 hj
      rw [← List.take_append_drop top (ranking judge client pool), List.mem_append] at hall
      exact hall.resolve_left hout
    exact pairwise_ranking.rel_of_mem_take_of_mem_drop hi hmem

/-- Those kept, and after them the others that were left out, are the whole ranking. -/
theorem IsSelection.eq_take_ranking (hs : IsSelection judge client pool top kept) :
    kept = (ranking judge client pool).take top := by
  let out := (ranking judge client pool).filter (· ∉ kept)
  have hmem : ∀ i, i ∈ kept ++ out ↔ i ∈ ranking judge client pool := by
    intro i
    by_cases hi : i ∈ kept
    · have hother := hs.other i hi
      simpa [out, hi, mem_ranking] using hother
    · simp [out, hi]
  have hordered : (kept ++ out).Pairwise (Precedes judge client pool) := by
    refine List.pairwise_append.2 ⟨hs.ordered, pairwise_ranking.filter _, fun i hi j hj => ?_⟩
    obtain ⟨hj, hout⟩ := List.mem_filter.1 hj
    exact hs.leftOut j (mem_ranking.1 hj) (by simpa using hout) i hi
  have hperm : (kept ++ out).Perm (ranking judge client pool) :=
    (List.perm_ext_iff_of_nodup (nodup_of_pairwise hordered)
      (nodup_of_pairwise pairwise_ranking)).2 hmem
  have hall : kept ++ out = ranking judge client pool :=
    hperm.eq_of_pairwise (fun i j _ _ hij hji => absurd hji hij.asymm) hordered pairwise_ranking
  have hprefix : kept <+: ranking judge client pool := hall ▸ List.prefix_append kept out
  rw [List.prefix_iff_eq_take.1 hprefix, hs.length, ← length_ranking, ← List.take_eq_take_min]

/-- Whatever the judgement, the best of a pool are a list that tells of those at the places of a
selection, each with their own verdict and age, and there is no other such list; so fewer of them
are the beginning of more. -/
theorem best_selects (judge : Judge) (today : Date) (client : Client) (pool : List Client)
    (top : Nat) :
    (∀ l, l = best judge today client pool top ↔
      ∃ kept, IsSelection judge client pool top kept ∧
        List.Forall₂ (fun i => Describes today pool[i] (judge client pool[i])) kept l) ∧
    ∀ more, top ≤ more → best judge today client pool top <+: best judge today client pool more := by
  refine ⟨fun l => ⟨?_, ?_⟩, fun more hle => ?_⟩
  · rintro rfl
    exact ⟨_, isSelection_take_ranking, forall₂_describes_iff.2 best_eq_map_take.symm⟩
  · rintro ⟨kept, hkept, hdescribed⟩
    rw [← forall₂_describes_iff.1 hdescribed, best_eq_map_take, hkept.eq_take_ranking]
  · rw [best_eq_map_take, best_eq_map_take]
    exact (List.take_prefix_take_left hle).map _

end Suggestion

namespace Sample

def seeker : Client := { id := 1, profile := { man with age := 30, height := 180, education := 3 } }

def circle : List Client :=
  [{ id := 2, profile := { woman with age := 45 } }, seeker,
    { id := 3, profile := { woman with birthMonth := some "1994-06" } },
    { id := 4, profile := { woman with height := 165, education := 3 } },
    { id := 3, profile := { woman with birthMonth := some "1994-06" } }]

def glance : Judge := fun x y => Glance.judge newYear.today x.profile y.profile 0

end Sample

/-- Of three with the same score the first two are kept: one whose age is worked out, and one whose age
is unknown and who is there for other reasons. -/
theorem Suggestion.best_selects_sample :
    let best := best Sample.glance Sample.newYear.today Sample.seeker Sample.circle
    2 ≤ 3 ∧ best 2 = [
      { candidate := 3, name := "Lin", avatar := none, score := 80, tags := ["similar age"],
        age := 31, height := 0, education := 0 },
      { candidate := 4, name := "Lin", avatar := none, score := 80,
        tags := ["comparable education", "height match"], age := 0, height := 165, education := 3 }] ∧
      best 2 <+: best 3 := by
  intro best
  obtain ⟨hbest, hprefix⟩ :=
    best_selects Sample.glance Sample.newYear.today Sample.seeker Sample.circle 2
  have htwo : 2 ≤ 3 := by decide
  refine ⟨htwo, ((hbest _).2 ⟨[⟨2, by decide⟩, ⟨3, by decide⟩], ?_, ?_⟩).symm, hprefix 3 htwo⟩
  · exact ⟨by decide, by decide, by decide, by decide⟩
  · refine .cons ⟨rfl, rfl, rfl, ?_, ?_, ?_, rfl, rfl⟩
      (.cons ⟨rfl, rfl, rfl, ?_, ?_, ?_, rfl, rfl⟩ .nil)
    all_goals decide

end Matchmaking
