import Matchmaking.Books.Basic

/-! Leases: rights to run a recurring job that lapse by themselves. -/
namespace Matchmaking

/-- The second `ttl` seconds after `now`, or the last second of the clock. -/
def expiry (now : Int64) (ttl : UInt64) : Int64 :=
  .ofInt (min (now.toInt + min (ttl.toNat : Int) Int64.maxValue.toInt) Int64.maxValue.toInt)

namespace Books
variable (h : Hazards) (b : Books) (key holder : String)

def lease? : Option Lease := b.leases.find? (·.key == key)

def dropLease : Books := { b with leases := b.leases.filter (·.key != key) }

def takeLease (now : Int64) (ttl : UInt64) : Except BookError (Bool × Books) := do
  h.allow
  if (b.lease? key).all (·.expiresAt ≤ now) then
    let rest := b.dropLease key
    pure (true, { rest with leases := ⟨key, holder, expiry now ttl⟩ :: rest.leases })
  else pure (false, b)

def returnLease : Except BookError (Bool × Books) := do
  h.allow
  if (b.lease? key).any (·.holder == holder) then pure (true, b.dropLease key)
  else pure (false, b)

def sortedLeases : List Lease := b.leases.mergeSort fun x y => x.key ≤ y.key

end Books

end Matchmaking
