import Matchmaking.Proofs.Courtship
import Matchmaking.Proofs.Upkeep
import Mathlib.Logic.Relation

/-! Requests as strokes in the books. Whatever is requested, and whatever faults are armed, the
books change by a few kinds of strokes only, each with the check that the storage makes before
it. -/
namespace Matchmaking

/-- The form in which a profile is kept that was found in order. -/
def Profile.IsTakenIn (p : Profile) : Prop := ∃ q : Profile, q.check = .ok () ∧ p = q.normalize

namespace Books

def mapClients (b : Books) (g : Client → Client) : Books :=
  { b with clients := { b.clients with rows := b.clients.rows.map g } }

/-- One stroke in the books. Profiles are written only as they are taken in, and stages and trails
only if `marks` says so. -/
inductive Stroke (marks : Prop) (b : Books) : Books → Prop
  | register (p : Profile) (htaken : p.IsTakenIn) : Stroke marks b (b.withClient p)
  | revise {g : Client → Client} (hid : ∀ c, (g c).id = c.id)
      (hp : ∀ c, (g c).partner = c.partner ∨ (g c).partner = none)
      (hprofile : ∀ c, (g c).profile = c.profile ∨ (g c).profile.IsTakenIn) :
      Stroke marks b (b.mapClients g)
  | attach {id partner : Int} {g : Client → Client} (hid : ∀ c, (g c).id = c.id)
      (hp : ∀ c, (g c).partner = if c.id = id then some partner else c.partner)
      (hno : ∀ c ∈ b.clients.rows, c.partner ≠ some partner) (hhas : b.clients.has partner)
      (hprofile : ∀ c, (g c).profile = c.profile) : Stroke marks b (b.mapClients g)
  | remove {id : Int} {g : Client → Client} (hid : ∀ c, (g c).id = c.id)
      (hp : ∀ c ∈ b.clients.rows,
        ((g c).partner = c.partner ∨ (g c).partner = none) ∧
          (c.id ≠ id → (g c).partner ≠ some id))
      (hprofile : ∀ c, (g c).profile = c.profile) :
      Stroke marks b ((b.withoutClient id).mapClients g)
  | lease (l : List Lease) : Stroke marks b (b.withLeases l)
  | enter {p : NewPairing} (hno : ∀ q ∈ b.pairings.rows, q.isLiveFor p.man p.woman = false) :
      Stroke marks b (b.withPairing p)
  | strike (id : Int) : Stroke marks b (b.withoutPairing id)
  | move {id : Int} {p : Pairing} {stage : Stage} (hm : marks) (hp : b.pairing? id = some p)
      (hno : stage.isLive → ∀ q ∈ b.pairings.rows, q.id ≠ id → q.isLiveFor p.man p.woman = false) :
      Stroke marks b (b.withStage id stage)
  | note {id : Int} (before after : Stage) (operator reason : String) (hm : marks)
      (hhas : b.pairings.has id) : Stroke marks b (b.withMove id before after operator reason)

abbrev Strokes (marks : Prop) : Books → Books → Prop := Relation.ReflTransGen (Stroke marks)

variable {marks : Prop} {h : Hazards} {b b' b'' : Books} {id partner : Int} {r : Bool}

/-- What holds after each stroke if it held before holds after any number of them. -/
theorem Strokes.keep {P : Books → Prop} (hs : b.Strokes marks b')
    (hstep : ∀ {b b'}, b.Stroke marks b' → P b → P b') (hb : P b) : P b' := by
  induction hs with
  | refl => exact hb
  | tail _ hlast ih => exact hstep hlast ih

/-! Writes to the clients. Those that a fault stops on the way are revised once more. -/

theorem mapClients_mapClients (g g' : Client → Client) :
    (b.mapClients g).mapClients g' = b.mapClients (g' ∘ g) := by
  simp [mapClients]

theorem modifyClient_eq_mapClients (f : Client → Client) :
    b.modifyClient id f = b.mapClients fun c => if c.id = id then f c else c := rfl

theorem foldl_setStanding_eq (b : Books) (s : Standing) (l : List Int) :
    ∃ g : Client → Client,
      (∀ c, (g c).id = c.id ∧ (g c).partner = c.partner ∧ (g c).profile = c.profile) ∧
      l.foldl (setStanding s) b = b.mapClients g := by
  induction l generalizing b with
  | nil => exact ⟨id, fun _ => ⟨rfl, rfl, rfl⟩, by simp [mapClients]⟩
  | cons x l ih =>
    obtain ⟨g, hg, hl⟩ := ih (setStanding s b x)
    refine ⟨g ∘ fun c => if c.id = x then { c with standing := s } else c, fun c => ?_, ?_⟩
    · by_cases hc : c.id = x <;> simp [hg, hc]
    · rw [List.foldl_cons, hl, ← mapClients_mapClients]
      rfl

theorem setPartner_eq_mapClients (h : Hazards) (b : Books) (id : Int) {f : Client → Client}
    (hf : ∀ c, (f c).id = c.id ∧ (f c).profile = c.profile := by intro; exact ⟨rfl, rfl⟩) :
    ∃ g : Client → Client, (∀ c, (g c).id = c.id ∧ (g c).profile = c.profile) ∧
      (∀ c, (g c).partner = if c.id = id then (f c).partner else c.partner) ∧
      b.setPartner h id f = b.mapClients g := by
  obtain ⟨g, hg, hl⟩ := foldl_setStanding_eq (b.modifyClient id f) .stopped (h.stoppedBy id)
  refine ⟨g ∘ fun c => if c.id = id then f c else c, fun c => ?_, fun c => ?_, ?_⟩
  · by_cases hc : c.id = id <;> simp [hg, hf, hc]
  · by_cases hc : c.id = id <;> simp [hg, hc]
  · rw [setPartner, hl, modifyClient_eq_mapClients, mapClients_mapClients]

theorem stroke_modifyClient {f : Client → Client} (hf : ∀ c, (f c).id = c.id)
    (hp : ∀ c, (f c).partner = c.partner)
    (hprofile : ∀ c, (f c).profile = c.profile ∨ (f c).profile.IsTakenIn) :
    b.Stroke marks (b.modifyClient id f) := by
  rw [modifyClient_eq_mapClients]
  refine .revise (fun c => ?_) (fun c => .inl ?_) fun c => ?_
  · by_cases hc : c.id = id <;> simp [hc, hf]
  · by_cases hc : c.id = id <;> simp [hc, hp]
  · by_cases hc : c.id = id
    · simpa only [if_pos hc] using hprofile c
    · exact .inl (by rw [if_neg hc])

theorem strokes_of_annotates (ha : b.Annotates b') : b.Strokes marks b' := by
  obtain ⟨g, l, rfl⟩ := ha
  have hclients : b.Stroke marks (b.mapClients fun c => { c with shortlist := g c }) :=
    .revise (fun _ => rfl) (fun _ => .inl rfl) fun _ => .inl rfl
  exact .tail (.single hclients) (.lease l)

theorem strokes_of_attach (ha : b.attach h id partner = .ok (r, b')) : b.Strokes marks b' := by
  obtain ⟨-, rfl⟩ | ⟨-, -, hno, hhas, rfl⟩ := attach_ok ha
  · exact .refl
  · obtain ⟨g, hsame, hp, hg⟩ := setPartner_eq_mapClients h b id
      (f := fun c => { c with standing := .matched, partner := some partner })
    rw [hg]
    exact .single (.attach (fun c => (hsame c).1) hp hno hhas fun c => (hsame c).2)

theorem strokes_of_detach (hd : b.detach h id partner = .ok (r, b')) : b.Strokes marks b' := by
  rw [detach_ok hd]
  split
  · obtain ⟨g, hsame, hp, hg⟩ := setPartner_eq_mapClients h b id
      (f := fun c => { c with standing := .single, partner := none })
    rw [hg]
    refine .single (.revise (fun c => (hsame c).1) (fun c => ?_) fun c => .inl (hsame c).2)
    rw [hp]
    by_cases hc : c.id = id <;> simp [hc]
  · exact .refl

theorem mapClients_of_bereave {l : List Client}
    (hl : l.foldlM (fun b c => b.bereave h c.id) b = .ok b') :
    ∃ g : Client → Client, (∀ c, (g c).id = c.id ∧ (g c).profile = c.profile) ∧
      (∀ c, (g c).partner = if c.id ∈ l.map Client.id then none else c.partner) ∧
      b' = b.mapClients g := by
  induction l generalizing b with
  | nil =>
    cases hl
    exact ⟨id, fun _ => ⟨rfl, rfl⟩, fun _ => rfl, by simp [mapClients]⟩
  | cons d l ih =>
    obtain ⟨b₁, hb, hl⟩ := bind_eq_ok.1 hl
    obtain ⟨g₁, hsame₁, hp₁, hg₁⟩ := setPartner_eq_mapClients h b d.id
      (f := fun c => { c with partner := none })
    obtain ⟨g₂, hsame₂, hp₂, rfl⟩ := ih hl
    refine ⟨g₂ ∘ g₁, fun c => ?_, fun c => ?_, ?_⟩
    · exact ⟨(hsame₂ _).1.trans (hsame₁ c).1, (hsame₂ _).2.trans (hsame₁ c).2⟩
    · rw [Function.comp, hp₂, (hsame₁ c).1, hp₁]
      by_cases hc : c.id = d.id <;> simp [hc]
    · rw [bereave_ok hb, hg₁, mapClients_mapClients]

theorem strokes_of_removeClient (hr : b.removeClient h id = .ok b') : b.Strokes marks b' := by
  obtain ⟨_, -, -, -, hl⟩ := removeClient_ok hr
  obtain ⟨g, hsame, hp, rfl⟩ := mapClients_of_bereave hl
  refine .single (.remove (fun c => (hsame c).1) (fun c hc => ⟨?_, fun hne hg => ?_⟩)
    fun c => (hsame c).2)
  · rw [hp]
    split
    · exact .inr rfl
    · exact .inl rfl
  · -- whoever still had the client as partner was among those bereaved
    rw [hp] at hg
    split at hg
    · cases hg
    · rename_i hnot
      refine hnot (List.mem_map_of_mem (List.mem_filter.2 ⟨?_, by simpa using hg⟩))
      exact Table.mem_rows_erase.2 ⟨hc, hne⟩

theorem strokes_of_addPairing {p : NewPairing} (ha : b.addPairing h p = .ok (id, b')) :
    b.Strokes marks b' := by
  obtain ⟨-, hno, rfl⟩ := addPairing_ok ha
  exact .single (.enter hno)

theorem strokes_of_removePairing {p : Pairing} (hr : b.removePairing h id = .ok (p, b')) :
    b.Strokes marks b' := by
  obtain ⟨-, rfl⟩ := removePairing_ok hr
  exact .single (.strike id)

theorem strokes_of_moveStage {before after : Stage} (hmarks : marks)
    (hm : b.moveStage h id before after = .ok (r, b')) : b.Strokes marks b' := by
  obtain ⟨-, rfl⟩ | ⟨-, p, hp, -, hno, rfl⟩ := moveStage_ok hm
  · exact .refl
  · exact .single (.move hmarks hp hno)

theorem strokes_of_addMove {before after : Stage} {operator reason : String} {n : Int}
    (hmarks : marks) (ha : b.addMove h id before after operator reason = .ok (n, b')) :
    b.Strokes marks b' := by
  have hhas := has_of_addMove ha
  obtain ⟨-, rfl⟩ := addMove_ok ha
  exact .single (.note before after operator reason hmarks hhas)

end Books

namespace BookRequest
variable {marks : Prop} {h : Hazards} {b b' : Books} {reply : BookReply}

def isMark : BookRequest → Bool
  | .moveStage _ _ _ | .addMove _ _ _ _ _ => true
  | _ => false

theorem strokes_of_attempt {r : BookRequest} (hr : r.isMark → marks)
    (ha : r.attempt h b = .ok (reply, b')) : b.Strokes marks b' := by
  cases r with
  | register p =>
    obtain ⟨⟨n, b₁⟩, hreg, ha⟩ := bind_eq_ok.1 ha
    cases ha
    obtain ⟨hcheck, -, rfl⟩ := Books.register_ok hreg
    exact .single (.register _ ⟨p, hcheck, rfl⟩)
  | editProfile id p =>
    obtain ⟨b₁, hedit, ha⟩ := bind_eq_ok.1 ha
    cases ha
    obtain ⟨hcheck, _, -, -, rfl⟩ := Books.editProfile_ok hedit
    have htaken : p.normalize.IsTakenIn := ⟨p, hcheck, rfl⟩
    exact .single (Books.stroke_modifyClient (fun _ => rfl) (fun _ => rfl) fun _ => .inr htaken)
  | writeShortlist id text =>
    obtain ⟨b₁, hwrite, ha⟩ := bind_eq_ok.1 ha
    cases ha
    rw [Books.writeShortlist_ok hwrite]
    exact .single (Books.stroke_modifyClient (fun _ => rfl) (fun _ => rfl) fun _ => .inl rfl)
  | attach id partner =>
    obtain ⟨⟨n, b₁⟩, hattach, ha⟩ := bind_eq_ok.1 ha
    cases ha
    exact Books.strokes_of_attach hattach
  | detach id partner =>
    obtain ⟨⟨n, b₁⟩, hdetach, ha⟩ := bind_eq_ok.1 ha
    cases ha
    exact Books.strokes_of_detach hdetach
  | addPairing p =>
    obtain ⟨⟨n, b₁⟩, hadd, ha⟩ := bind_eq_ok.1 ha
    cases ha
    exact Books.strokes_of_addPairing hadd
  | removePairing id =>
    obtain ⟨⟨p, b₁⟩, hremove, ha⟩ := bind_eq_ok.1 ha
    cases ha
    exact Books.strokes_of_removePairing hremove
  | moveStage id before after =>
    obtain ⟨⟨n, b₁⟩, hmove, ha⟩ := bind_eq_ok.1 ha
    cases ha
    exact Books.strokes_of_moveStage (hr rfl) hmove
  | addMove id before after operator reason =>
    obtain ⟨⟨n, b₁⟩, hadd, ha⟩ := bind_eq_ok.1 ha
    cases ha
    exact Books.strokes_of_addMove (hr rfl) hadd
  | takeLease key holder now ttl =>
    obtain ⟨⟨n, b₁⟩, htake, ha⟩ := bind_eq_ok.1 ha
    cases ha
    obtain ⟨l, rfl⟩ := Books.takeLease_ok htake
    exact .single (.lease l)
  | returnLease key holder =>
    obtain ⟨⟨n, b₁⟩, hreturn, ha⟩ := bind_eq_ok.1 ha
    cases ha
    obtain ⟨l, rfl⟩ := Books.returnLease_ok hreturn
    exact .single (.lease l)
  | client id =>
    obtain ⟨_, -, ha⟩ := bind_eq_ok.1 ha
    cases ha
    exact .refl
  | pairing id =>
    obtain ⟨_, -, ha⟩ := bind_eq_ok.1 ha
    cases ha
    exact .refl
  | _ =>
    cases ha
    exact .refl

theorem strokes_runAll {rs : List BookRequest} (hr : ∀ r ∈ rs, r.isMark → marks) :
    b.Strokes marks (runAll h rs b).2 := by
  induction rs generalizing b with
  | nil => exact .refl
  | cons r rs ih =>
    have hrest := ih (b := (r.run h b).2) fun r' hr' => hr r' (List.mem_cons_of_mem r hr')
    refine Relation.ReflTransGen.trans ?_ hrest
    rw [run]
    split
    · rename_i ha
      exact strokes_of_attempt (hr r List.mem_cons_self) ha
    · exact .refl

end BookRequest

/-! Calls on pairings: work that goes through writes the strokes of its statements, and so does
work that fails on the way, before it is taken back. -/

namespace Work
variable {marks : Prop} {α β : Type} {w : Work α}

def Strokes (marks : Prop) (w : Work α) : Prop := ∀ b : Books, b.Strokes marks (w b).2

theorem strokes_pure (a : α) : Strokes marks (pure a : Work α) := fun _ => .refl

theorem strokes_fail (e : AgencyError) : Strokes marks (fail e : Work α) := fun _ => .refl

theorem strokes_read (f : Books → Except BookError α) : Strokes marks (read f) := fun _ => .refl

theorem strokes_write {f : Books → Except BookError (α × Books)}
    (hf : ∀ {b a b'}, f b = .ok (a, b') → b.Strokes marks b') : Strokes marks (write f) := by
  intro b
  rw [write]
  split
  · rename_i hok
    exact hf hok
  · exact .refl

theorem Strokes.bind {f : α → Work β} (hw : w.Strokes marks) (hf : ∀ a, (f a).Strokes marks) :
    (w >>= f).Strokes marks := by
  intro b
  have hfirst := hw b
  rw [bind_apply]
  split
  · rename_i a b₁ hrun
    rw [hrun] at hfirst
    exact hfirst.trans (hf a b₁)
  · rename_i hrun
    rw [hrun] at hfirst
    exact hfirst

theorem Strokes.commit (hw : w.Strokes marks) (b : Books) :
    b.Strokes marks (w.commit b).2 := by
  have hrun := hw b
  rw [Work.commit]
  split
  · rename_i hok
    rw [hok] at hrun
    exact hrun
  · exact .refl

end Work

namespace Courtship
variable {marks : Prop} {h : Hazards} {today : Date} {id : Int}
variable {expected next : Stage} {operator reason : String}

theorem strokes_claim (x y : Int) : (claim h x y).Strokes marks := by
  refine Work.Strokes.bind (Work.strokes_write Books.strokes_of_attach) fun r => ?_
  cases r with
  | false => exact Work.strokes_fail _
  | true => exact Work.strokes_pure ()

theorem strokes_enter (p : NewPairing) : (enter h p).Strokes marks := by
  refine (strokes_claim _ _).bind fun _ => (strokes_claim _ _).bind fun _ => ?_
  exact Work.strokes_write Books.strokes_of_addPairing

theorem strokes_part (p : Pairing) : (part h p).Strokes marks := by
  refine Work.Strokes.bind (Work.strokes_write Books.strokes_of_detach) fun _ => ?_
  exact Work.Strokes.bind (Work.strokes_write Books.strokes_of_detach) fun _ => Work.strokes_pure ()

theorem strokes_reject : (reject id expected next).Strokes marks := fun _ => .refl

theorem strokes_move (hm : marks) : (move h id expected next operator reason).Strokes marks := by
  rw [move]
  split
  · refine Work.Strokes.bind (Work.strokes_write (Books.strokes_of_moveStage hm)) fun r => ?_
    cases r with
    | false => exact strokes_reject
    | true =>
      refine Work.Strokes.bind (Work.strokes_write (Books.strokes_of_addMove hm)) fun _ => ?_
      by_cases hb : next = .broken
      · rw [if_pos hb]
        exact (Work.strokes_read _).bind strokes_part
      · rw [if_neg hb]
        exact Work.strokes_pure ()
  · exact strokes_reject

variable {b : Books}

theorem strokes_arrange {x y : Int} {admin remark : String} :
    b.Strokes marks (arrange h today x y admin remark b).2 := by
  rw [arrange]
  split
  · exact .refl
  · rename_i p _
    have henter : b.Strokes marks ((enter h p).commit b).2 := (strokes_enter p).commit b
    split
    · rename_i hc
      rwa [hc] at henter
    · rename_i hc
      rwa [hc] at henter

theorem strokes_advance (hm : marks) :
    b.Strokes marks (advance h id expected next operator reason b).2 := by
  have hmove : b.Strokes marks ((move h id expected next operator reason).commit b).2 :=
    (strokes_move hm).commit b
  rw [advance]
  split
  · rename_i hc
    rwa [hc] at hmove
  · rename_i hc
    rwa [hc] at hmove

theorem strokes_breakUp (hm : marks) : b.Strokes marks (breakUp h id operator reason b).2 := by
  rw [breakUp]
  split
  · exact .refl
  · exact strokes_advance hm

theorem strokes_strike : b.Strokes marks (strike h id b).2 := by
  refine Work.Strokes.commit (Work.Strokes.bind ?_ strokes_part) b
  exact Work.strokes_write Books.strokes_of_removePairing

end Courtship

namespace Request

def isHandwritten : Request → Bool
  | .book r => r.isMark
  | .transaction rs _ => rs.any (·.isMark)
  | _ => false

def isMove : Request → Bool
  | .advance _ _ _ _ _ | .breakUp _ _ _ => true
  | _ => false

end Request

/-- Whatever is requested, under whatever hazards, the books change by strokes. -/
theorem Agency.strokes_of_serve {marks : Prop} {a : Agency} {m : Moment} {r : Request}
    (hr : r.isHandwritten ∨ r.isMove → marks) : a.books.Strokes marks (a.serve m r).2.books := by
  cases r with
  | book r =>
    refine books_settleBook .refl fun _ _ hok => ?_
    exact BookRequest.strokes_of_attempt (fun hmark => hr (.inl hmark)) hok
  | transaction rs ending =>
    have hmark : ∀ r ∈ rs, r.isMark → marks := by
      intro r hmem hmark
      exact hr (.inl (List.any_eq_true.2 ⟨r, hmem, hmark⟩))
    have hall : a.books.Strokes marks (BookRequest.runAll a.hazards rs a.books).2 :=
      BookRequest.strokes_runAll hmark
    cases ending with
    | commit => exact hall
    | rollback => exact .refl
    | drop => exact .refl
  | removeClient id =>
    exact books_settleBook_write .refl fun _ hremove => Books.strokes_of_removeClient hremove
  | switchStanding id s =>
    refine books_settleBook_write .refl fun _ hswitch => ?_
    obtain ⟨-, _, -, -, -, rfl⟩ := Books.switchStanding_ok hswitch
    exact .single (Books.stroke_modifyClient (fun _ => rfl) (fun _ => rfl) fun _ => .inl rfl)
  | arrange x y admin remark => exact Courtship.strokes_arrange
  | advance id expected next operator reason => exact Courtship.strokes_advance (hr (.inr rfl))
  | breakUp id operator reason => exact Courtship.strokes_breakUp (hr (.inr rfl))
  | strike id => exact Courtship.strokes_strike
  | sweep s => exact Books.strokes_of_annotates (Sweep.annotates_run a.books)
  | shortlist id =>
    refine books_settleBook .refl fun _ _ hok => ?_
    obtain ⟨_, -, hok⟩ := bind_eq_ok.1 hok
    cases hok
    exact .refl
  | forceStanding id s =>
    refine books_settleBook .refl fun _ _ hok => ?_
    obtain ⟨_, -, hok⟩ := bind_eq_ok.1 hok
    cases hok
    exact .single (Books.stroke_modifyClient (fun _ => rfl) (fun _ => rfl) fun _ => .inl rfl)
  | editMove id =>
    refine books_settleBook .refl fun _ _ hok => ?_
    obtain ⟨_, -, hok⟩ := bind_eq_ok.1 hok
    cases hok
    exact .refl
  | arm fault =>
    rw [serve]
    split
    · exact .refl
    · exact .refl
  | _ => exact .refl

theorem Agency.strokes_of_after {a : Agency} {rs : List (Moment × Request)} :
    a.books.Strokes True (a.after rs).books := by
  induction rs generalizing a with
  | nil => exact .refl
  | cons q rs ih =>
    obtain ⟨m, r⟩ := q
    have hfirst : a.books.Strokes True (a.serve m r).2.books := strokes_of_serve fun _ => trivial
    rw [after_cons]
    exact hfirst.trans ih

end Matchmaking
