import Matchmaking.Judgement.Glance
import Matchmaking.Text.Decimal

/-! The settings of the agency, as read from its environment. -/
namespace Matchmaking

structure SweepSettings where
  /-- How many candidates are judged for each client. -/
  poolLimit : UInt64 := 100
  /-- How many of them are kept. -/
  top : UInt64 := 20
  pageSize : UInt64 := 200
  /-- How many seconds the lease of a sweep lasts. -/
  leaseSeconds : UInt64 := 1800
  jitter : Int32 := 5
deriving DecidableEq, Repr

structure Settings where
  sweep : SweepSettings := {}
  advicePoolLimit : UInt64 := 100
deriving DecidableEq, Repr

namespace Settings

def number (env : String → Option String) (name : String) (default : UInt64) : UInt64 :=
  (((env name).bind fun s => Text.Decimal.readUInt64 s.toList)).getD default

def ofEnvironment (env : String → Option String) : Settings where
  sweep := {
    poolLimit := max 1 (number env "MATCH_PREFILTER_POOL_LIMIT" 100)
    top := max 1 (number env "MATCH_PREFILTER_TOP_N" 20)
    pageSize := max 1 (number env "MATCH_PREFILTER_PAGE_SIZE" 200)
    leaseSeconds := max 1 (number env "MATCH_PREFILTER_LOCK_TTL_SECS" 1800)
    jitter := .ofNat (min (number env "MATCH_PREFILTER_JITTER" 5).toNat
      Glance.jitterLimit.toInt.toNat) }
  advicePoolLimit := max 1 (number env "MATCH_RECOMMEND_POOL_LIMIT" 100)

end Settings

def booksAddress (path : String) : String :=
  if path.startsWith "sqlite:" then path else s!"sqlite:{path}?mode=rwc"

end Matchmaking
