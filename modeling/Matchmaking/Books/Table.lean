/-! Tables of rows numbered in the order in which they are added. -/
namespace Matchmaking

class Numbered (α : Type) where
  id : α → Int

/-- The rows in order of their numbers, and the highest number given out so far. -/
structure Table (α : Type) where
  rows : List α := []
  last : Int := 0
deriving DecidableEq, Repr

namespace Table
variable {α : Type} (t : Table α)

def next : Int := t.last + 1

def add (row : Int → α) : Table α := ⟨t.rows ++ [row t.next], t.next⟩

theorem mem_rows_add {row : Int → α} {a : α} :
    a ∈ (t.add row).rows ↔ a ∈ t.rows ∨ a = row t.next := by
  simp [add]

variable [Numbered α] (i : Int)

def find? : Option α := t.rows.find? fun r => Numbered.id r == i

def has : Bool := t.rows.any fun r => Numbered.id r == i

def modify (f : α → α) : Table α :=
  { t with rows := t.rows.map fun r => if Numbered.id r = i then f r else r }

def erase : Table α := { t with rows := t.rows.filter fun r => Numbered.id r != i }

variable {t i} {j : Int} {a : α}

theorem mem_of_find? (h : t.find? i = some a) : a ∈ t.rows := List.mem_of_find?_eq_some h

theorem id_of_find? (h : t.find? i = some a) : Numbered.id a = i := by
  simpa using List.find?_some h

theorem has_iff : t.has i ↔ ∃ r ∈ t.rows, Numbered.id r = i := by simp [has]

theorem isSome_find? : (t.find? i).isSome = t.has i := by simp [find?, has, List.isSome_find?]

theorem find?_modify {f : α → α} (hf : ∀ r, Numbered.id (f r) = Numbered.id r) :
    (t.modify i f).find? j = (t.find? j).map fun r => if Numbered.id r = i then f r else r := by
  simp only [find?, modify, List.find?_map]
  congr 2
  funext r
  by_cases hr : Numbered.id r = i <;> simp [hr, hf]

theorem mem_rows_erase : a ∈ (t.erase i).rows ↔ a ∈ t.rows ∧ Numbered.id a ≠ i := by simp [erase]

theorem find?_erase_self : (t.erase i).find? i = none := by simp [find?, erase]

theorem find?_erase_of_ne (hj : j ≠ i) : (t.erase i).find? j = t.find? j := by
  simp only [find?, erase, List.find?_filter]
  congr 1
  funext r
  by_cases hr : Numbered.id r = j <;> simp [hr, hj]

end Table

end Matchmaking
