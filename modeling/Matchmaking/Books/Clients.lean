import Matchmaking.Books.Basic

/-! Reading and writing clients. The profile, the shortlist and the partner are written by
separate operations, each of which leaves the other columns alone. -/
namespace Matchmaking

structure Criteria where
  standing : Option Standing := none
  gender : Option Gender := none
  except : Option Int := none
  after : Option Int := none
deriving DecidableEq, Repr

namespace Criteria

def singles (gender : Gender) : Criteria := { standing := some .single, gender := some gender }

def accepts (f : Criteria) (c : Client) : Bool :=
  f.standing.all (c.standing == ·) && f.gender.all (c.profile.gender == ·) &&
    f.except.all (c.id != ·) && f.after.all (· < c.id)

end Criteria

/-- A stretch of a list. A negative limit is none, and a negative offset is zero. -/
structure Page where
  limit : Int64 := 50
  offset : Int64 := 0
deriving DecidableEq, Repr

namespace Page

def upTo (limit : Int64) : Page := { limit }

def of {α : Type} (p : Page) (l : List α) : List α :=
  let l := l.drop p.offset.toInt.toNat
  if p.limit < 0 then l else l.take p.limit.toInt.toNat

theorem mem_of_mem_of {α : Type} {p : Page} {l : List α} {a : α} (h : a ∈ p.of l) : a ∈ l := by
  unfold of at h
  dsimp only at h
  split at h
  · exact List.mem_of_mem_drop h
  · exact List.mem_of_mem_drop (List.mem_of_mem_take h)

end Page

namespace Books
variable (h : Hazards) (b : Books) (id : Int)

def fetchClient : Except BookError Client :=
  match b.client? id with
  | some c => pure c
  | none => throw (.absent .client (toString id))

def select (f : Criteria) : List Client := b.clients.rows.filter f.accepts

def pageOf (f : Criteria) (p : Page) : List Client := p.of (b.select f)

def count (f : Criteria) : Nat := (b.select f).length

def register (profile : Profile) : Except BookError (Int × Books) := do
  profile.check.mapError .badProfile
  h.allow
  pure (b.clients.next,
    { b with clients := b.clients.add fun id => { id, profile := profile.normalize } })

def editProfile (profile : Profile) : Except BookError Books := do
  profile.check.mapError .badProfile
  h.allow
  match b.client? id with
  | some c =>
    if c.partner.isNone || c.profile.gender == profile.gender then
      pure (b.modifyClient id fun c => { c with profile := profile.normalize })
    else throw (.barred .client (toString id) .linkedGender)
  | none => throw (.absent .client (toString id))

def writeShortlist (text : String) : Except BookError Books := do
  h.allow
  if b.clients.has id then
    h.guard (.shortlistWrite id) "disk full"
    pure (b.modifyClient id fun c => { c with shortlist := some text })
  else throw (.absent .client (toString id))

def setPartner (f : Client → Client) : Books :=
  (h.stoppedBy id).foldl (setStanding .stopped) (b.modifyClient id f)

def attach (partner : Int) : Except BookError (Bool × Books) := do
  h.allow
  if (b.client? id).any Client.isFree then
    h.guard (.partnerWrite id) "client write failed"
    -- nobody else may have that partner, who must be there
    if b.clients.rows.any (·.partner == some partner) then
      throw (.duplicate .partnerLink (toString partner))
    else if b.clients.has partner then
      pure (true, b.setPartner h id fun c =>
        { c with standing := .matched, partner := some partner })
    else throw (.storage .foreignKey)
  else pure (false, b)

def detach (partner : Int) : Except BookError (Bool × Books) := do
  h.allow
  if (b.client? id).any (·.partner == some partner) then
    h.guard (.partnerWrite id) "client write failed"
    pure (true, b.setPartner h id fun c => { c with standing := .single, partner := none })
  else pure (false, b)

def bereave : Except BookError Books := do
  h.guard (.partnerWrite id) "client write failed"
  pure (b.setPartner h id fun c => { c with partner := none })

def removeClient : Except BookError Books := do
  h.allow
  match b.client? id with
  | some c =>
    if c.standing = .matching ∨ c.standing = .matched then
      throw (.barred .client (toString id) (.standing c.standing))
    else
      let rest := { b with clients := b.clients.erase id }
      -- whoever has them as partner is left without one
      let left := rest.clients.rows.filter (·.partner == some id)
      left.foldlM (fun b c => b.bereave h c.id) rest
  | none => throw (.absent .client (toString id))

def switchStanding (standing : Standing) : Except BookError Books := do
  if standing = .single ∨ standing = .stopped then
    h.allow
    match b.client? id with
    | some c =>
      if c.partner = none ∧ (c.standing = .single ∨ c.standing = .stopped) then
        pure (setStanding standing b id)
      else throw (.barred .client (toString id) (.standing c.standing))
    | none => throw (.absent .client (toString id))
  else throw (.barred .client (toString id) (.unsettable standing))

def forceStanding (standing : Standing) : Except BookError (Nat × Books) := do
  h.allow
  -- the number of rows written, and the books
  pure (if b.clients.has id then 1 else 0, setStanding standing b id)

end Books

end Matchmaking
