/-! Cutting a text in two at the first occurrence of a character. -/
namespace Matchmaking.Text

def cut (sep : Char) : List Char → Option (List Char × List Char)
  | [] => none
  | c :: s => if c = sep then some ([], s) else (cut sep s).map fun (a, b) => (c :: a, b)

variable {sep : Char} {s a b : List Char}

theorem cut_append (h : sep ∉ a) : cut sep (a ++ sep :: b) = some (a, b) := by
  induction a with
  | nil => simp [cut]
  | cons c a ih =>
    simp only [List.mem_cons, not_or] at h
    simp [cut, Ne.symm h.1, ih h.2]

theorem eq_append_of_cut (h : cut sep s = some (a, b)) : s = a ++ sep :: b ∧ sep ∉ a := by
  induction s generalizing a with
  | nil => cases h
  | cons c s ih =>
    by_cases hc : c = sep
    · obtain ⟨rfl, rfl⟩ : [] = a ∧ s = b := by simpa [cut, hc] using h
      simp [hc]
    · rw [cut, if_neg hc] at h
      obtain ⟨⟨p, q⟩, hp, he⟩ := Option.map_eq_some_iff.1 h
      obtain ⟨rfl, rfl⟩ : c :: p = a ∧ q = b := by simpa using he
      obtain ⟨rfl, hn⟩ := ih hp
      exact ⟨rfl, by simp [hn, Ne.symm hc]⟩

theorem cut_eq_some_iff : cut sep s = some (a, b) ↔ s = a ++ sep :: b ∧ sep ∉ a :=
  ⟨eq_append_of_cut, fun ⟨hs, ha⟩ => hs ▸ cut_append ha⟩

end Matchmaking.Text
