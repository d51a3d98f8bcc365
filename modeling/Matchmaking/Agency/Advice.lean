import Matchmaking.Agency.Courtship
import Matchmaking.Agency.Sweep

/-! Advice for a client, from their shortlist where it still serves and otherwise judged anew. -/
namespace Matchmaking

inductive AdviceSource where
  | shortlist | computed
deriving DecidableEq, Repr

structure Advice where
  source : AdviceSource
  suggestions : List Suggestion
deriving DecidableEq, Repr

namespace Advice

variable (today : Date) (b : Books)

def judge : Judge := fun x y => FiveFactor.judge today x.profile y.profile

def stillSuits (client : Client) (candidate : Int) : Bool :=
  (b.client? candidate).any fun c => c.isSingle && areOpposite (·.profile.gender) client c

def gather (client : Client) : Nat → List Suggestion → List Suggestion
  | 0, _ | _, [] => []
  | n + 1, s :: l =>
    if stillSuits b client s.candidate then s :: gather client n l else gather client (n + 1) l

/-- At most `limit` suggestions, the best first. -/
def give (id : Int) (limit poolLimit : UInt64) : Except AgencyError Advice := do
  let client ← (b.fetchClient id).mapError .ofBooks
  let served := gather b client limit.toNat ((readShortlist client.shortlist).getD [])
  if served = [] then
    pure ⟨.computed, Suggestion.best (judge today) today client (Sweep.pool b client poolLimit)
      limit.toNat⟩
  else pure ⟨.shortlist, served⟩

def verdict (x y : Int) : Except AgencyError Verdict := do
  let c ← (b.fetchClient x).mapError .ofBooks
  let d ← (b.fetchClient y).mapError .ofBooks
  if areOpposite (·.profile.gender) c d then pure (judge today c d)
  else throw (.objection .oneGender)

end Advice

end Matchmaking
