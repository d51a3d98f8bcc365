import Matchmaking.Books.Table
import Mathlib.Data.List.Nodup

/-! Tables whose numbers increase and were all given out. Every way of writing a table keeps
this, and a number then names one row. -/
namespace Matchmaking.Table
variable {α : Type} [Numbered α] {t : Table α} {i j : Int} {a b : α} {row : Int → α}

structure Sound (t : Table α) : Prop where
  increasing : t.rows.Pairwise fun a b => Numbered.id a < Numbered.id b
  le_last : ∀ a ∈ t.rows, Numbered.id a ≤ t.last

theorem sound_empty : Sound ({} : Table α) := ⟨.nil, by simp⟩

theorem find?_eq_none_iff : t.find? i = none ↔ ∀ a ∈ t.rows, Numbered.id a ≠ i := by
  simp [find?]

theorem find?_add_eq :
    (t.add row).find? i =
      (t.find? i).or (if Numbered.id (row t.next) = i then some (row t.next) else none) := by
  by_cases hi : Numbered.id (row t.next) = i <;>
    simp [find?, add, List.find?_append, hi]

theorem find?_modify_self {f : α → α}
    (hf : ∀ a, Numbered.id (f a) = Numbered.id a := by intro; rfl) :
    (t.modify i f).find? i = (t.find? i).map f := by
  rw [find?_modify hf]
  cases h : t.find? i with
  | none => rfl
  | some a => simp [id_of_find? h]

theorem find?_modify_of_ne {f : α → α}
    (hf : ∀ a, Numbered.id (f a) = Numbered.id a := by intro; rfl)
    (hj : j ≠ i) : (t.modify i f).find? j = t.find? j := by
  rw [find?_modify hf]
  cases h : t.find? j with
  | none => rfl
  | some a =>
    have ha : Numbered.id a ≠ i := by rw [id_of_find? h]; exact hj
    simp [ha]

theorem has_add : (t.add row).has i ↔ t.has i ∨ Numbered.id (row t.next) = i := by
  simp [has, add]

theorem has_map_rows {f : α → α} (hf : ∀ a, Numbered.id (f a) = Numbered.id a) :
    ({ t with rows := t.rows.map f } : Table α).has i = t.has i := by
  simp [has, Function.comp_def, hf]

theorem find?_map_rows {f : α → α} (hf : ∀ a, Numbered.id (f a) = Numbered.id a) :
    ({ t with rows := t.rows.map f } : Table α).find? i = (t.find? i).map f := by
  have hkey : (fun a => Numbered.id a == i) ∘ f = fun a => Numbered.id a == i :=
    funext fun a => congrArg (· == i) (hf a)
  rw [find?, List.find?_map, hkey, find?]

theorem has_modify {f : α → α}
    (hf : ∀ a, Numbered.id (f a) = Numbered.id a := by intro; rfl) :
    (t.modify j f).has i = t.has i := by
  refine has_map_rows fun a => ?_
  by_cases ha : Numbered.id a = j <;> simp [ha, hf]

theorem has_erase : (t.erase j).has i ↔ t.has i ∧ i ≠ j := by
  simp only [has_iff, mem_rows_erase]
  constructor
  · rintro ⟨a, ⟨ha, hne⟩, rfl⟩
    exact ⟨⟨a, ha, rfl⟩, hne⟩
  · rintro ⟨⟨a, ha, rfl⟩, hne⟩
    exact ⟨a, ⟨ha, hne⟩, rfl⟩

namespace Sound

theorem add (h : t.Sound) (hrow : Numbered.id (row t.next) = t.next) : (t.add row).Sound := by
  have hlt : ∀ a ∈ t.rows, Numbered.id a < Numbered.id (row t.next) := by
    intro a ha
    have hle := h.le_last a ha
    rw [hrow, next]
    omega
  constructor
  · simpa [Table.add, List.pairwise_append] using ⟨h.increasing, hlt⟩
  · intro a ha
    obtain ha | rfl := (mem_rows_add t).1 ha
    · exact Int.le_trans (Int.le_of_lt (hlt a ha)) (Int.le_of_eq hrow)
    · exact Int.le_of_eq hrow

theorem map_rows {f : α → α} (h : t.Sound) (hf : ∀ a, Numbered.id (f a) = Numbered.id a) :
    ({ t with rows := t.rows.map f } : Table α).Sound := by
  constructor
  · simpa [List.pairwise_map, hf] using h.increasing
  · simpa [hf] using h.le_last

theorem modify {f : α → α} (h : t.Sound) (hf : ∀ a, Numbered.id (f a) = Numbered.id a) :
    (t.modify i f).Sound := by
  refine h.map_rows fun a => ?_
  by_cases ha : Numbered.id a = i <;> simp [ha, hf]

theorem filter_rows {p : α → Bool} (h : t.Sound) :
    ({ t with rows := t.rows.filter p } : Table α).Sound :=
  ⟨h.increasing.filter _, fun a ha => h.le_last a (List.mem_filter.1 ha).1⟩

theorem erase (h : t.Sound) : (t.erase i).Sound := h.filter_rows

theorem eq_of_mem (h : t.Sound) (ha : a ∈ t.rows) (hb : b ∈ t.rows)
    (hab : Numbered.id a = Numbered.id b) : a = b := by
  have hn : (t.rows.map Numbered.id).Nodup := by
    rw [List.Nodup, List.pairwise_map]
    exact h.increasing.imp fun hlt => Int.ne_of_lt hlt
  exact List.inj_on_of_nodup_map hn ha hb hab

theorem find?_eq_some_iff (h : t.Sound) :
    t.find? i = some a ↔ a ∈ t.rows ∧ Numbered.id a = i := by
  constructor
  · intro ha
    exact ⟨mem_of_find? ha, id_of_find? ha⟩
  · rintro ⟨ha, rfl⟩
    cases hf : t.find? (Numbered.id a) with
    | none => exact absurd rfl (find?_eq_none_iff.1 hf a ha)
    | some b => rw [h.eq_of_mem (mem_of_find? hf) ha (id_of_find? hf)]

theorem find?_of_mem (h : t.Sound) (ha : a ∈ t.rows) : t.find? (Numbered.id a) = some a :=
  h.find?_eq_some_iff.2 ⟨ha, rfl⟩

theorem eq_of_find? (h : t.Sound) (hb : t.find? i = some b) (ha : a ∈ t.rows)
    (hi : Numbered.id a = i) : a = b :=
  h.eq_of_mem ha (mem_of_find? hb) (hi.trans (id_of_find? hb).symm)

/-- A row after one is modified is that one, or another as it was. -/
theorem mem_rows_modify {f : α → α} (h : t.Sound) (hb : t.find? i = some b)
    (ha : a ∈ (t.modify i f).rows) : a = f b ∨ a ∈ t.rows ∧ a ≠ b := by
  obtain ⟨c, hc, rfl⟩ := List.mem_map.1 ha
  by_cases hi : Numbered.id c = i
  · obtain rfl := h.eq_of_find? hb hc hi
    exact .inl (if_pos hi)
  · rw [if_neg hi]
    refine .inr ⟨hc, ?_⟩
    rintro rfl
    exact hi (id_of_find? hb)

theorem le_last_of_has (h : t.Sound) (hi : t.has i) : i ≤ t.last := by
  obtain ⟨a, ha, rfl⟩ := has_iff.1 hi
  exact h.le_last a ha

/-- The next number is not taken. -/
theorem find?_next (h : t.Sound) : t.find? t.next = none := by
  rw [find?_eq_none_iff]
  intro a ha
  have hle := h.le_last a ha
  rw [next]
  omega

theorem find?_add (h : t.Sound) (hrow : Numbered.id (row t.next) = t.next) :
    (t.add row).find? i = if i = t.next then some (row t.next) else t.find? i := by
  rw [find?_add_eq, hrow]
  by_cases hi : i = t.next
  · subst hi
    rw [h.find?_next, if_pos rfl, Option.none_or]
  · rw [if_neg hi, if_neg (Ne.symm hi), Option.or_none]

end Sound

end Matchmaking.Table
