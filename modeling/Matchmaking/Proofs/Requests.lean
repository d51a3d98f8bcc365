import Matchmaking.Agency.Request

/-! The kinds of requests, and the agency after a run of them. -/
namespace Matchmaking

namespace Request

def isUpkeep : Request → Bool
  | .book (.register _) | .book (.editProfile _ _) | .book (.writeShortlist _ _)
  | .removeClient _ | .switchStanding _ _ | .sweep _ => true
  | _ => false

def isArrangement : Request → Bool
  | .arrange _ _ _ _ => true
  | _ => false

def isProgress : Request → Bool
  | .advance _ _ _ _ _ | .breakUp _ _ _ | .strike _ => true
  | _ => false

def isCourtship (r : Request) : Bool := r.isArrangement || r.isProgress

/-- Requests that write links and pairings by the rules of courtship alone. -/
def isRegular (r : Request) : Bool := r.isUpkeep || r.isCourtship

def isHazard : Request → Bool
  | .arm _ | .holdWriter | .dropWriter => true
  | _ => false

theorem isHazard_of_isRegular {r : Request} (hr : r.isRegular) : r.isHazard = false := by
  cases r with
  | arm fault => cases hr
  | holdWriter => cases hr
  | dropWriter => cases hr
  | _ => rfl

end Request

namespace Agency
variable {α : Type} (a : Agency)

def after (rs : List (Moment × Request)) : Agency := (a.serveAll rs).2

theorem after_cons (m : Moment) (r : Request) (rs : List (Moment × Request)) :
    a.after ((m, r) :: rs) = (a.serve m r).2.after rs := rfl

theorem after_append (rs qs : List (Moment × Request)) :
    a.after (rs ++ qs) = (a.after rs).after qs := by
  induction rs generalizing a with
  | nil => rfl
  | cons q rs ih =>
    obtain ⟨m, r⟩ := q
    rw [List.cons_append, after_cons, after_cons, ih]

variable {a} {reply : α → Reply} {e : Failure}

theorem error_of_settle {r : Except AgencyError α × Books}
    (h : (a.settle reply r).1 = .error e) : ∃ e', r.1 = .error e' := by
  obtain ⟨r, b⟩ := r
  cases r with
  | error e' => exact ⟨e', rfl⟩
  | ok x => cases h

theorem settle_eq_self {r : Except AgencyError α × Books} (h : r.2 = a.books) :
    (a.settle reply r).2 = a := by
  simp only [settle, h]

/-- A call to the books leaves them as they were, or as it says. -/
theorem books_settleBook {P : Books → Prop} {r : Except BookError (α × Books)} (hkeep : P a.books)
    (hok : ∀ x b, r = .ok (x, b) → P b) : P (a.settleBook reply r).2.books := by
  cases r with
  | error e => exact hkeep
  | ok y => exact hok y.1 y.2 rfl

theorem hazards_serve {m : Moment} {r : Request} (hr : r.isHazard = false) :
    (a.serve m r).2.hazards = a.hazards := by
  have hbook : ∀ {β : Type} {reply : β → Reply} {r : Except BookError (β × Books)},
      (a.settleBook reply r).2.hazards = a.hazards := by
    intro β reply r
    cases r <;> rfl
  cases r with
  | book r => exact hbook
  | transaction rs ending =>
    rw [serve]
    dsimp only
    split <;> rfl
  | removeClient id => exact hbook
  | switchStanding id s => exact hbook
  | shortlist id => exact hbook
  | forceStanding id s => exact hbook
  | editMove id => exact hbook
  | arm fault => cases hr
  | holdWriter => cases hr
  | dropWriter => cases hr
  | _ => rfl

/-- What each regular request preserves, a run of them does. -/
theorem books_after {P : Books → Prop} {rs : List (Moment × Request)}
    (hstep : ∀ {a : Agency} {m r}, a.hazards.faults = [] → r.isRegular → P a.books →
      P (a.serve m r).2.books)
    (ha : a.hazards.faults = []) (hr : ∀ q ∈ rs, q.2.isRegular) (hb : P a.books) :
    P (a.after rs).books := by
  induction rs generalizing a with
  | nil => exact hb
  | cons q rs ih =>
    obtain ⟨m, r⟩ := q
    have hq : r.isRegular := hr (m, r) List.mem_cons_self
    rw [after_cons]
    refine ih ?_ (fun q hm => hr q (List.mem_cons_of_mem _ hm)) (hstep ha hq hb)
    rw [hazards_serve (Request.isHazard_of_isRegular hq), ha]

theorem hazards_after {rs : List (Moment × Request)} (hr : ∀ q ∈ rs, q.2.isRegular) :
    (a.after rs).hazards = a.hazards := by
  induction rs generalizing a with
  | nil => rfl
  | cons q rs ih =>
    obtain ⟨m, r⟩ := q
    have hq : r.isRegular := hr (m, r) List.mem_cons_self
    rw [after_cons, ih fun q hm => hr q (List.mem_cons_of_mem _ hm),
      hazards_serve (Request.isHazard_of_isRegular hq)]

end Agency

/-! A man and a woman who come together, part, and come together again. -/
namespace Sample

def newYear : Moment := { today := ⟨2026, 1, 1, by decide, by decide, by decide⟩, now := 0 }

def man : Profile := { name := "Wei", gender := .male }

def woman : Profile := { name := "Lin", gender := .female }

def couple : List (Moment × Request) :=
  [.book (.register man), .book (.register woman), .arrange 1 2 "" ""].map (newYear, ·)

def reunion : List (Moment × Request) :=
  couple ++ [.breakUp 1 "" "", .arrange 1 2 "" ""].map (newYear, ·)

def struckReunion : List (Moment × Request) := reunion ++ [(newYear, .strike 1)]

/-- A third client is linked to the man, who is free, and is stopped whenever he is linked. -/
def crossed : List (Moment × Request) :=
  [.book (.register man), .book (.register woman), .book (.register woman), .book (.attach 3 1),
    .arm (.stopAfterPartnerWrite 1 3)].map (newYear, ·)

end Sample

end Matchmaking
