/-! Closed vocabularies: finite types whose members are written as one word each. -/
namespace Matchmaking

class Vocabulary (α : Type) where
  all : List α
  word : α → String

namespace Vocabulary
variable {α : Type} [Vocabulary α]

def ofWord? (s : String) : Option α := all.find? fun a => word a == s

class Lawful (α : Type) [Vocabulary α] : Prop where
  ofWord?_word : ∀ a : α, ofWord? (word a) = some a

theorem ofWord?_word [Lawful α] (a : α) : ofWord? (word a) = some a := Lawful.ofWord?_word a

theorem word_inj [Lawful α] {a b : α} (h : word a = word b) : a = b := by
  simpa [ofWord?_word] using congrArg (ofWord? (α := α)) h

end Vocabulary

end Matchmaking
