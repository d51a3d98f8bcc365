import Matchmaking.Profile

/-! The rows of the agency's books: clients, pairings, the trail of a pairing's moves, leases. -/
namespace Matchmaking

inductive Standing where
  | single | matching | matched | stopped
deriving DecidableEq, Repr

instance : Vocabulary Standing where
  all := [.single, .matching, .matched, .stopped]
  word
    | .single => "single"
    | .matching => "matching"
    | .matched => "matched"
    | .stopped => "stopped"

instance : Vocabulary.Lawful Standing := ⟨fun a => by cases a <;> rfl⟩

inductive Stage where
  | acquaintance | dating | matched | married | broken
deriving DecidableEq, Repr

instance : Vocabulary Stage where
  all := [.acquaintance, .dating, .matched, .married, .broken]
  word
    | .acquaintance => "acquaintance"
    | .dating => "dating"
    | .matched => "matched"
    | .married => "married"
    | .broken => "broken"

instance : Vocabulary.Lawful Stage := ⟨fun a => by cases a <;> rfl⟩

namespace Stage

def rank : Stage → Nat
  | .acquaintance => 0
  | .dating => 1
  | .matched => 2
  | .married => 3
  | .broken => 4

def isFinal : Stage → Bool
  | .married | .broken => true
  | _ => false

def isLive (s : Stage) : Bool := s != .broken

def leadsTo : Stage → Stage → Bool
  | .acquaintance, .dating | .dating, .matched | .matched, .married => true
  | s, .broken => !s.isFinal
  | _, _ => false

def moveText (before after : Stage) : String :=
  s!"{Vocabulary.word before} -> {Vocabulary.word after}"

theorem leadsTo_of_isFinal {s : Stage} (h : s.isFinal) (t : Stage) : s.leadsTo t = false := by
  cases s <;> cases t <;> simp_all [isFinal, leadsTo]

theorem rank_lt_of_leadsTo {s t : Stage} (h : s.leadsTo t) : s.rank < t.rank := by
  cases s <;> cases t <;> simp_all [isFinal, leadsTo, rank]

end Stage

structure Client where
  id : Int
  profile : Profile
  standing : Standing := .single
  partner : Option Int := none
  /-- The text of the shortlist drawn up for this client. -/
  shortlist : Option String := none
deriving DecidableEq, Repr

namespace Client

def isFree (c : Client) : Bool := c.standing == .single && c.partner.isNone
def isSingle (c : Client) : Bool := c.standing == .single

/-- The time of the last shortlist is kept exactly where there is one. -/
def isShortlistStamped (c : Client) : Bool := c.shortlist.isSome

end Client

structure Pairing where
  id : Int
  man : Int
  woman : Int
  score : Int32 := 0
  stage : Stage := .acquaintance
  remark : String := ""
  admin : String := ""
deriving DecidableEq, Repr

namespace Pairing

def otherParty (p : Pairing) (client : Int) : Option Int :=
  if client = p.man then some p.woman
  else if client = p.woman then some p.man
  else none

def names (p : Pairing) (client : Int) : Bool := client == p.man || client == p.woman

def isLiveFor (p : Pairing) (man woman : Int) : Bool :=
  p.stage.isLive && p.man == man && p.woman == woman

end Pairing

structure Move where
  id : Int
  pairing : Int
  before : Stage
  after : Stage
  operator : String
  reason : String
deriving DecidableEq, Repr

structure Lease where
  key : String
  holder : String
  expiresAt : Int64
deriving DecidableEq, Repr

end Matchmaking
