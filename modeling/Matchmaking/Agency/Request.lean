import Matchmaking.Agency.Advice
import Matchmaking.Books.Leases
import Matchmaking.Books.Pairings

/-! The requests that the agency serves, and its replies. A run of requests is a list of them,
each at its moment, on books that begin empty. -/
namespace Matchmaking

inductive BookRequest where
  | register (profile : Profile)
  | client (id : Int)
  | findClient (id : Int)
  | clients (filter : Criteria) (page : Page)
  | count (filter : Criteria)
  | editProfile (id : Int) (profile : Profile)
  | writeShortlist (id : Int) (text : String)
  | attach (id partner : Int)
  | detach (id partner : Int)
  | addPairing (pairing : NewPairing)
  | pairing (id : Int)
  | removePairing (id : Int)
  | pairingsOf (client : Int)
  | moveStage (id : Int) (before after : Stage)
  | addMove (id : Int) (before after : Stage) (operator reason : String)
  | movesOf (id : Int)
  | takeLease (key holder : String) (now : Int64) (ttl : UInt64)
  | returnLease (key holder : String)
  | lease (key : String)

inductive BookReply where
  | done
  | answer (b : Bool)
  | number (id : Int)
  | count (n : Nat)
  | client (c : Client)
  | foundClient (c : Option Client)
  | clients (l : List Client)
  | pairing (p : Pairing)
  | pairings (l : List Pairing)
  | moves (l : List Move)
  | lease (l : Option Lease)

namespace BookRequest

variable (h : Hazards) (b : Books)

def attempt : BookRequest → Except BookError (BookReply × Books)
  | .register p => do let (id, b) ← b.register h p; pure (.number id, b)
  | .client id => do pure (.client (← b.fetchClient id), b)
  | .findClient id => pure (.foundClient (b.client? id), b)
  | .clients f p => pure (.clients (b.pageOf f p), b)
  | .count f => pure (.count (b.count f), b)
  | .editProfile id p => do pure (.done, ← b.editProfile h id p)
  | .writeShortlist id text => do pure (.done, ← b.writeShortlist h id text)
  | .attach id partner => do let (r, b) ← b.attach h id partner; pure (.answer r, b)
  | .detach id partner => do let (r, b) ← b.detach h id partner; pure (.answer r, b)
  | .addPairing p => do let (id, b) ← b.addPairing h p; pure (.number id, b)
  | .pairing id => do pure (.pairing (← b.fetchPairing id), b)
  | .removePairing id => do let (p, b) ← b.removePairing h id; pure (.pairing p, b)
  | .pairingsOf id => pure (.pairings (b.pairingsOf id), b)
  | .moveStage id before after => do
    let (r, b) ← b.moveStage h id before after; pure (.answer r, b)
  | .addMove id before after operator reason => do
    let (id, b) ← b.addMove h id before after operator reason; pure (.number id, b)
  | .movesOf id => pure (.moves (b.movesOf id), b)
  | .takeLease key holder now ttl => do
    let (r, b) ← b.takeLease h key holder now ttl; pure (.answer r, b)
  | .returnLease key holder => do let (r, b) ← b.returnLease h key holder; pure (.answer r, b)
  | .lease key => pure (.lease (b.lease? key), b)

def run (r : BookRequest) : Except BookError BookReply × Books :=
  match r.attempt h b with
  | .ok (reply, b) => (.ok reply, b)
  | .error e => (.error e, b)

def runAll : List BookRequest → Books → List (Except BookError BookReply) × Books
  | [], b => ([], b)
  | r :: rs, b =>
    let (reply, b) := r.run h b
    let (replies, b) := runAll rs b
    (reply :: replies, b)

end BookRequest

inductive Ending where
  | commit | rollback | drop
deriving DecidableEq, Repr

instance : Vocabulary Ending where
  all := [.commit, .rollback, .drop]
  word
    | .commit => "commit"
    | .rollback => "rollback"
    | .drop => "drop"

inductive Request where
  | book (r : BookRequest)
  | transaction (rs : List BookRequest) (ending : Ending)
  | removeClient (id : Int)
  | switchStanding (id : Int) (standing : Standing)
  | migrate
  | arrange (x y : Int) (admin remark : String)
  | advance (id : Int) (expected next : Stage) (operator reason : String)
  | breakUp (id : Int) (operator reason : String)
  | strike (id : Int)
  | pairing (id : Int)
  | pairingsOf (client : Int)
  | movesOf (id : Int)
  | sweep (settings : SweepSettings)
  | advise (id : Int) (limit poolLimit : UInt64)
  | verdict (x y : Int)
  | shortlist (id : Int)
  | view
  | forceStanding (id : Int) (standing : Standing)
  | editMove (id : Int)
  | arm (fault : Fault)
  | holdWriter
  | dropWriter

inductive Reply where
  | book (r : BookReply)
  | transaction (rs : List (Except BookError BookReply))
  | rows (n : Nat)
  | armed
  | sweep (o : SweepOutcome)
  | advice (a : Advice)
  | verdict (v : Verdict)
  | shortlist (l : Option (List Suggestion))
  | books (b : Books)

inductive Failure where
  | book (e : BookError)
  | agency (e : AgencyError)
deriving DecidableEq, Repr

structure Agency where
  books : Books := {}
  hazards : Hazards := {}

namespace Agency

variable (a : Agency)

def settleBook {α : Type} (reply : α → Reply) (r : Except BookError (α × Books)) :
    Except Failure Reply × Agency :=
  match r with
  | .ok (x, b) => (.ok (reply x), { a with books := b })
  | .error e => (.error (.book e), a)

def settle {α : Type} (reply : α → Reply) (r : Except AgencyError α × Books) :
    Except Failure Reply × Agency :=
  ((r.1.map reply).mapError .agency, { a with books := r.2 })

def done (reply : Reply) : Except Failure Reply × Agency := (.ok reply, a)

def under (hazards : Hazards) : Agency := { a with hazards }

def serve (m : Moment) (r : Request) : Except Failure Reply × Agency :=
  let b := a.books
  let h := a.hazards
  match r with
  | .book r => a.settleBook .book (r.attempt h b)
  | .transaction rs ending =>
    let (replies, b) := BookRequest.runAll h rs b
    (.ok (.transaction replies), if ending = .commit then { a with books := b } else a)
  | .removeClient id => a.settleBook (fun _ => .book .done) (do pure ((), ← b.removeClient h id))
  | .switchStanding id standing =>
    a.settleBook (fun _ => .book .done) (do pure ((), ← b.switchStanding h id standing))
  | .migrate => a.done (.book .done)
  | .arrange x y admin remark =>
    a.settle (fun p => .book (.pairing p)) (Courtship.arrange h m.today x y admin remark b)
  | .advance id expected next operator reason =>
    a.settle (fun p => .book (.pairing p)) (Courtship.advance h id expected next operator reason b)
  | .breakUp id operator reason =>
    a.settle (fun p => .book (.pairing p)) (Courtship.breakUp h id operator reason b)
  | .strike id => a.settle (fun _ => .book .done) (Courtship.strike h id b)
  | .pairing id =>
    a.settle (fun p => .book (.pairing p)) ((b.fetchPairing id).mapError .ofBooks, b)
  | .pairingsOf client => a.done (.book (.pairings (b.pairingsOf client)))
  | .movesOf id => a.done (.book (.moves (b.movesOf id)))
  | .sweep settings => a.settle .sweep (Sweep.run h m settings b)
  | .advise id limit poolLimit => a.settle .advice (Advice.give m.today b id limit poolLimit, b)
  | .verdict x y => a.settle .verdict (Advice.verdict m.today b x y, b)
  | .shortlist id =>
    a.settleBook .shortlist (do pure (readShortlist (← b.fetchClient id).shortlist, b))
  | .view => a.done (.books b)
  | .forceStanding id standing => a.settleBook .rows (b.forceStanding h id standing)
  | .editMove id => a.settleBook .rows (do pure (← b.editMove h id, b))
  | .arm fault =>
    match h.arm fault with
    | .ok h => (a.under h).done .armed
    | .error e => (.error (.book e), a)
  | .holdWriter => (a.under { h with foreignWriter := some .locked }).done (.book .done)
  | .dropWriter => (a.under { h with foreignWriter := none }).done (.book .done)

def serveAll : Agency → List (Moment × Request) → List (Except Failure Reply) × Agency
  | a, [] => ([], a)
  | a, (m, r) :: rs =>
    let (reply, a) := a.serve m r
    let (replies, a) := serveAll a rs
    (reply :: replies, a)

end Agency

end Matchmaking
