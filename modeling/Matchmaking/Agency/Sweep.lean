import Matchmaking.Agency.Refusal
import Matchmaking.Agency.Sweep.Visit
import Matchmaking.Books.Leases

/-! The sweep: a recurring pass over the single clients that draws up a shortlist for each. At
most one sweep runs at a time, under a lease. -/
namespace Matchmaking

inductive SweepOutcome where
  | skipped
  | completed (report : SweepReport)
deriving DecidableEq, Repr

namespace Sweep

def leaseKey : String := "lock:prefilter"

variable (h : Hazards) (m : Moment) (s : SweepSettings)

def walk (cursor : Option Int) (report : SweepReport) (b : Books) : SweepReport × Books :=
  match _hl : (page s b cursor).getLast? with
  | none => (report, b)
  | some last =>
    let next := (page s b cursor).foldl (visit h m s) (report, b)
    -- a page that is not full is the last
    if (page s b cursor).length < (pageSize s).toNat then next
    else walk (some last.id) next.1 next.2
termination_by (remaining b cursor).length
decreasing_by
  exact length_remaining_lt s (List.mem_of_getLast? _hl) (outline_foldl_visit h m s _ _)

def run (b : Books) : Except AgencyError SweepOutcome × Books :=
  match b.takeLease h leaseKey m.token m.now s.leaseSeconds with
  | .error e => (.error (.ofBooks e), b)
  | .ok (false, b) => (.ok .skipped, b)
  | .ok (true, b) =>
    let (report, b) := walk h m s none {} b
    match b.returnLease h leaseKey m.token with
    | .ok (_, b) => (.ok (.completed report), b)
    | .error _ => (.ok (.completed report), b)

end Sweep

end Matchmaking
