import Matchmaking.Books.Leases
import Matchmaking.Proofs.Transactions

/-! What each write to the books has done when it goes through, under any hazards. -/
namespace Matchmaking.Books

section
variable (b : Books) (id : Int)

def withClient (profile : Profile) : Books :=
  { b with clients := b.clients.add fun id => { id, profile } }

def withoutClient : Books := { b with clients := b.clients.erase id }

def withProfile (profile : Profile) : Books := b.modifyClient id fun c => { c with profile }

def withShortlist (text : String) : Books :=
  b.modifyClient id fun c => { c with shortlist := some text }

def withPairing (p : NewPairing) : Books := { b with pairings := b.pairings.add p.at }

def withStage (stage : Stage) : Books :=
  { b with pairings := b.pairings.modify id fun p => { p with stage } }

def withoutPairing : Books :=
  { b with
    pairings := b.pairings.erase id
    moves := { b.moves with rows := b.moves.rows.filter (·.pairing != id) } }

def withMove (before after : Stage) (operator reason : String) : Books :=
  { b with moves := b.moves.add fun n => ⟨n, id, before, after, operator, reason⟩ }

def withLeases (leases : List Lease) : Books := { b with leases }

end

variable {h : Hazards} {b b' : Books} {id partner : Int} {r : Bool} {profile : Profile}

theorem register_ok (hr : b.register h profile = .ok (id, b')) :
    profile.check = .ok () ∧ id = b.clients.next ∧ b' = b.withClient profile.normalize := by
  rw [register] at hr
  obtain ⟨_, hp, hr⟩ := bind_eq_ok.1 hr
  obtain ⟨_, -, hr⟩ := bind_eq_ok.1 hr
  cases hr
  exact ⟨mapError_eq_ok.1 hp, rfl, rfl⟩

theorem editProfile_ok (he : b.editProfile h id profile = .ok b') :
    profile.check = .ok () ∧ ∃ c, b.client? id = some c ∧
      (c.partner = none ∨ c.profile.gender = profile.gender) ∧
      b' = b.withProfile id profile.normalize := by
  rw [editProfile] at he
  obtain ⟨_, hp, he⟩ := bind_eq_ok.1 he
  obtain ⟨_, -, he⟩ := bind_eq_ok.1 he
  split at he
  · rename_i c hc
    split at he
    · rename_i hg
      cases he
      exact ⟨mapError_eq_ok.1 hp, c, hc, by simpa using hg, rfl⟩
    · cases he
  · cases he

theorem writeShortlist_ok {text : String} (hw : b.writeShortlist h id text = .ok b') :
    b' = b.withShortlist id text := by
  rw [writeShortlist] at hw
  obtain ⟨_, -, hw⟩ := bind_eq_ok.1 hw
  split at hw
  · obtain ⟨_, -, hw⟩ := bind_eq_ok.1 hw
    cases hw
    rfl
  · cases hw

theorem attach_ok (ha : b.attach h id partner = .ok (r, b')) :
    (r = false ∧ b' = b) ∨
    (r = true ∧ (b.client? id).any Client.isFree ∧
      (∀ c ∈ b.clients.rows, c.partner ≠ some partner) ∧ b.clients.has partner ∧
      b' = b.setPartner h id fun c =>
        { c with standing := .matched, partner := some partner }) := by
  rw [attach] at ha
  obtain ⟨_, -, ha⟩ := bind_eq_ok.1 ha
  split at ha
  · rename_i hfree
    obtain ⟨_, -, ha⟩ := bind_eq_ok.1 ha
    split at ha
    · cases ha
    · rename_i hany
      split at ha
      · rename_i hhas
        cases ha
        exact .inr ⟨rfl, hfree, by simpa using hany, hhas, rfl⟩
      · cases ha
  · cases ha
    exact .inl ⟨rfl, rfl⟩

theorem detach_ok (hd : b.detach h id partner = .ok (r, b')) :
    b' = if (b.client? id).any (·.partner == some partner) then
      b.setPartner h id fun c => { c with standing := .single, partner := none } else b := by
  rw [detach] at hd
  obtain ⟨_, -, hd⟩ := bind_eq_ok.1 hd
  split at hd
  · rename_i hl
    obtain ⟨_, -, hd⟩ := bind_eq_ok.1 hd
    cases hd
    rw [if_pos hl]
  · rename_i hl
    cases hd
    rw [if_neg hl]

theorem bereave_ok (hb : b.bereave h id = .ok b') :
    b' = b.setPartner h id fun c => { c with partner := none } := by
  rw [bereave] at hb
  obtain ⟨_, -, hb⟩ := bind_eq_ok.1 hb
  cases hb
  rfl

theorem removeClient_ok (hr : b.removeClient h id = .ok b') :
    ∃ c, b.client? id = some c ∧ c.standing ≠ .matching ∧ c.standing ≠ .matched ∧
      ((b.withoutClient id).clients.rows.filter (·.partner == some id)).foldlM
        (fun b c => b.bereave h c.id) (b.withoutClient id) = .ok b' := by
  rw [removeClient] at hr
  obtain ⟨_, -, hr⟩ := bind_eq_ok.1 hr
  split at hr
  · rename_i c hc
    split at hr
    · cases hr
    · rename_i hs
      rw [not_or] at hs
      exact ⟨c, hc, hs.1, hs.2, hr⟩
  · cases hr

theorem switchStanding_ok {s : Standing} (hs : b.switchStanding h id s = .ok b') :
    (s = .single ∨ s = .stopped) ∧ ∃ c, b.client? id = some c ∧ c.partner = none ∧
      (c.standing = .single ∨ c.standing = .stopped) ∧ b' = setStanding s b id := by
  rw [switchStanding] at hs
  split at hs
  · rename_i hsettable
    obtain ⟨_, -, hs⟩ := bind_eq_ok.1 hs
    split at hs
    · rename_i c hc
      split at hs
      · rename_i hfree
        cases hs
        exact ⟨hsettable, c, hc, hfree.1, hfree.2, rfl⟩
      · cases hs
    · cases hs
  · cases hs

theorem addPairing_ok {p : NewPairing} (ha : b.addPairing h p = .ok (id, b')) :
    id = b.pairings.next ∧ (∀ q ∈ b.pairings.rows, q.isLiveFor p.man p.woman = false) ∧
      b' = b.withPairing p := by
  rw [addPairing] at ha
  obtain ⟨_, -, ha⟩ := bind_eq_ok.1 ha
  split at ha
  · cases ha
  · rename_i hany
    cases ha
    exact ⟨rfl, by simpa using hany, rfl⟩

theorem moveStage_ok {before after : Stage} (hm : b.moveStage h id before after = .ok (r, b')) :
    (r = false ∧ b' = b) ∨
    (r = true ∧ ∃ p, b.pairing? id = some p ∧ p.stage = before ∧
      (after.isLive → ∀ q ∈ b.pairings.rows, q.id ≠ id → q.isLiveFor p.man p.woman = false) ∧
      b' = b.withStage id after) := by
  rw [moveStage] at hm
  obtain ⟨_, -, hm⟩ := bind_eq_ok.1 hm
  split at hm
  · rename_i p hp
    split at hm
    · rename_i hs
      split at hm
      · cases hm
      · rename_i hlive
        cases hm
        exact .inr ⟨rfl, p, hp, hs.1, by simpa using hlive, rfl⟩
    · cases hm
      exact .inl ⟨rfl, rfl⟩
  · cases hm
    exact .inl ⟨rfl, rfl⟩

theorem removePairing_ok {p : Pairing} (hr : b.removePairing h id = .ok (p, b')) :
    b.pairing? id = some p ∧ b' = b.withoutPairing id := by
  rw [removePairing] at hr
  obtain ⟨_, -, hr⟩ := bind_eq_ok.1 hr
  split at hr
  · rename_i q hq
    cases hr
    exact ⟨hq, rfl⟩
  · cases hr

theorem addMove_ok {before after : Stage} {operator reason : String} {n : Int}
    (ha : b.addMove h id before after operator reason = .ok (n, b')) :
    n = b.moves.next ∧ b' = b.withMove id before after operator reason := by
  rw [addMove] at ha
  obtain ⟨_, -, ha⟩ := bind_eq_ok.1 ha
  obtain ⟨_, -, ha⟩ := bind_eq_ok.1 ha
  split at ha
  · cases ha
    exact ⟨rfl, rfl⟩
  · cases ha

/-- A trail belongs to a pairing that is there. -/
theorem has_of_addMove {before after : Stage} {operator reason : String} {n : Int}
    (ha : b.addMove h id before after operator reason = .ok (n, b')) : b.pairings.has id := by
  rw [addMove] at ha
  obtain ⟨_, -, ha⟩ := bind_eq_ok.1 ha
  obtain ⟨_, -, ha⟩ := bind_eq_ok.1 ha
  split at ha
  · assumption
  · cases ha

theorem takeLease_ok {key holder : String} {now : Int64} {ttl : UInt64}
    (ht : b.takeLease h key holder now ttl = .ok (r, b')) : ∃ l, b' = b.withLeases l := by
  rw [takeLease] at ht
  obtain ⟨_, -, ht⟩ := bind_eq_ok.1 ht
  split at ht <;> cases ht
  · exact ⟨_, rfl⟩
  · exact ⟨b.leases, rfl⟩

theorem returnLease_ok {key holder : String} (hr : b.returnLease h key holder = .ok (r, b')) :
    ∃ l, b' = b.withLeases l := by
  rw [returnLease] at hr
  obtain ⟨_, -, hr⟩ := bind_eq_ok.1 hr
  split at hr <;> cases hr
  · exact ⟨_, rfl⟩
  · exact ⟨b.leases, rfl⟩

theorem setPartner_of_no_faults (hf : h.faults = []) (f : Client → Client) :
    b.setPartner h id f = b.modifyClient id f := by
  rw [setPartner, h.stoppedBy_of_no_faults hf, List.foldl_nil]

end Matchmaking.Books
