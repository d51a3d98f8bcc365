import Matchmaking.Json.Value
import Matchmaking.Vocabulary

/-! Types with a JSON form. A record is an object of its fields, each at most once and among any
others, or an array of exactly its fields in order. -/
namespace Matchmaking

class Coded (α : Type) where
  encode : α → Json
  decode? : Json → Option α

namespace Coded
variable {α : Type}

def toText [Coded α] (a : α) : String := (encode a).text
def ofText? [Coded α] (s : String) : Option α := (Json.parse? s).bind decode?

class Lawful (α : Type) [Coded α] : Prop where
  decode?_encode : ∀ a : α, decode? (encode a) = some a

instance : Coded Bool where
  encode := .bool
  decode?
    | .bool b => some b
    | _ => none

instance : Coded String where
  encode s := .string (some s)
  decode?
    | .string s => s
    | _ => none

def intIn? (low high : Int) : Json → Option Int
  | .int i => if low ≤ i ∧ i ≤ high then some i else none
  | _ => none

instance : Coded Int32 where
  encode i := .int i.toInt
  decode? j := (intIn? Int32.minValue.toInt Int32.maxValue.toInt j).map .ofInt

instance : Coded Int64 where
  encode i := .int i.toInt
  decode? j := (intIn? Int64.minValue.toInt Int64.maxValue.toInt j).map .ofInt

/-- Numbers of rows, which are read only if they fit in 64 bits. -/
instance : Coded Int where
  encode := .int
  decode? := intIn? Int64.minValue.toInt Int64.maxValue.toInt

instance [Coded α] : Coded (Option α) where
  encode
    | none => .null
    | some a => encode a
  decode?
    | .null => some none
    | j => (decode? j).map some

instance [Coded α] : Coded (List α) where
  encode as := .array (as.map encode)
  decode?
    | .array js => js.mapM decode?
    | _ => none

def word? : Json → Option String
  | .string s => s
  | .object [(k, .null)] => k
  | _ => none

def decodeWord? [Vocabulary α] (j : Json) : Option α := (word? j).bind Vocabulary.ofWord?

instance (priority := low) [Vocabulary α] : Coded α where
  encode a := .string (some (Vocabulary.word a))
  decode? := decodeWord?

/-- The value of the member with a key: `none` where there is none, and no answer where there are
several. -/
def member? (members : List (Option String × Json)) (key : String) : Option (Option Json) :=
  match members.filter (·.1 == some key) with
  | [] => some none
  | [(_, v)] => some (some v)
  | _ => none

def fields? (names : List String) : Json → Option (List (Option Json))
  | .object members =>
    if members.all (·.1.isSome) then names.mapM (member? members) else none
  | .array items => if items.length = names.length then some (items.map some) else none
  | _ => none

def required? [Coded α] (field : Option Json) : Option α := field.bind decode?

def optional? [Coded α] : Option Json → Option (Option α)
  | none => some none
  | some j => decode? j

def record (fields : List (String × Json)) : Json :=
  .object (fields.map fun (k, v) => (some k, v))

end Coded

end Matchmaking
