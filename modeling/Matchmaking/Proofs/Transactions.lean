import Matchmaking.Agency.Work
import Matchmaking.Books.Clients
import Matchmaking.Books.Pairings

/-! What a write has done when it goes through, under any hazards, and when work in a transaction
succeeds. A write to one table leaves the others alone. -/
namespace Matchmaking
variable {ε α β : Type}

theorem bind_eq_ok {x : Except ε α} {f : α → Except ε β} {y : β} :
    (x >>= f) = .ok y ↔ ∃ a, x = .ok a ∧ f a = .ok y := by
  cases x with
  | error e => simp [Bind.bind, Except.bind]
  | ok a => simp [Bind.bind, Except.bind]

theorem mapError_eq_ok {ε' : Type} {g : ε → ε'} {x : Except ε α} {y : α} :
    x.mapError g = .ok y ↔ x = .ok y := by
  cases x with
  | error e => exact ⟨nofun, nofun⟩
  | ok a =>
    have hmap : (Except.ok a : Except ε α).mapError g = .ok a := rfl
    simp [hmap]

namespace Hazards
variable {h : Hazards}

theorem stoppedBy_of_no_faults (hf : h.faults = []) (id : Int) : h.stoppedBy id = [] := by
  simp [stoppedBy, hf]

end Hazards

namespace Work
variable {w : Work α} {f : α → Work β} {b b' : Books} {x : α} {y : β}

theorem bind_eq_ok :
    (w >>= f) b = (.ok y, b') ↔ ∃ x b₁, w b = (.ok x, b₁) ∧ f x b₁ = (.ok y, b') := by
  rw [bind_apply]
  rcases hw : w b with ⟨r, b₁⟩
  cases r with
  | error e => simp
  | ok a => exact ⟨fun h => ⟨a, b₁, rfl, h⟩, by rintro ⟨_, _, ⟨⟩, h⟩; exact h⟩

theorem write_eq_ok {g : Books → Except BookError (α × Books)} :
    write g b = (.ok x, b') ↔ g b = .ok (x, b') := by
  rw [write]
  obtain e | ⟨a, b₁⟩ := g b <;> simp

theorem read_eq_ok {g : Books → Except BookError α} :
    read g b = (.ok x, b') ↔ g b = .ok x ∧ b = b' := by
  simp [read, mapError_eq_ok]

theorem commit_eq_ok : w.commit b = (.ok x, b') ↔ w b = (.ok x, b') := by
  rw [commit]
  obtain ⟨e | a, b₁⟩ := w b <;> simp

/-- What failed has left nothing behind. -/
theorem eq_of_commit_error {e : AgencyError} (h : w.commit b = (.error e, b')) : b' = b := by
  rw [commit] at h
  rcases hw : w b with ⟨e' | a, b₁⟩
  · rw [hw] at h
    cases h
    rfl
  · rw [hw] at h
    cases h

end Work

end Matchmaking
