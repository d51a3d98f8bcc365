import Matchmaking.Json.Token

/-! JSON values: their text, and the value of a text. -/
namespace Matchmaking

inductive Json where
  | null
  | bool (b : Bool)
  | int (i : Int)
  | fraction
  | string (s : Option String)
  | array (items : List Json)
  | object (members : List (Option String × Json))
deriving Repr

namespace Json

mutual
def tokens : Json → List Token
  | .null => [.null]
  | .bool b => [.bool b]
  | .int i => [.int i]
  | .fraction => [.fraction]
  | .string s => [.string s]
  | .array [] => [.beginArray, .endArray]
  | .array (v :: vs) => .beginArray :: tokens v ++ itemTokens vs
  | .object [] => [.beginObject, .endObject]
  | .object ((k, v) :: ms) =>
    .beginObject :: .string k :: .colon :: tokens v ++ memberTokens ms

def itemTokens : List Json → List Token
  | [] => [.endArray]
  | v :: vs => .comma :: tokens v ++ itemTokens vs

def memberTokens : List (Option String × Json) → List Token
  | [] => [.endObject]
  | (k, v) :: ms => .comma :: .string k :: .colon :: tokens v ++ memberTokens ms
end

def text (v : Json) : String := String.ofList (v.tokens.flatMap Token.chars)

/-- A container that is still open, with what it holds so far, the last first. -/
inductive Frame where
  | array (items : List Json)
  | object (members : List (Option String × Json)) (key : Option String)

inductive Phase where
  | value
  | firstItem
  | firstKey
  | key (members : List (Option String × Json))
  | colon (members : List (Option String × Json)) (key : Option String)
  | done (v : Json)

/-- The reading of a value: the open containers, innermost first, and what may come next. -/
structure Reader where
  frames : List Frame := []
  phase : Phase := .value

namespace Reader

def beginValue (frames : List Frame) : Token → Option Reader
  | .null => some ⟨frames, .done .null⟩
  | .bool b => some ⟨frames, .done (.bool b)⟩
  | .int i => some ⟨frames, .done (.int i)⟩
  | .fraction => some ⟨frames, .done .fraction⟩
  | .string s => some ⟨frames, .done (.string s)⟩
  | .beginArray => some ⟨frames, .firstItem⟩
  | .beginObject => some ⟨frames, .firstKey⟩
  | _ => none

def afterValue (v : Json) : List Frame → Token → Option Reader
  | .array items :: fs, .comma => some ⟨.array (v :: items) :: fs, .value⟩
  | .array items :: fs, .endArray => some ⟨fs, .done (.array (v :: items).reverse)⟩
  | .object ms k :: fs, .comma => some ⟨fs, .key ((k, v) :: ms)⟩
  | .object ms k :: fs, .endObject => some ⟨fs, .done (.object ((k, v) :: ms).reverse)⟩
  | _, _ => none

def step (r : Reader) (t : Token) : Option Reader :=
  match r.phase, t with
  | .value, t => beginValue r.frames t
  | .firstItem, .endArray => some ⟨r.frames, .done (.array [])⟩
  | .firstItem, t => beginValue (.array [] :: r.frames) t
  | .firstKey, .endObject => some ⟨r.frames, .done (.object [])⟩
  | .firstKey, .string k => some ⟨r.frames, .colon [] k⟩
  | .key ms, .string k => some ⟨r.frames, .colon ms k⟩
  | .colon ms k, .colon => some ⟨.object ms k :: r.frames, .value⟩
  | .done v, t => afterValue v r.frames t
  | _, _ => none

def result? : Reader → Option Json
  | ⟨[], .done v⟩ => some v
  | _ => none

end Reader

def ofTokens? (ts : List Token) : Option Json :=
  (ts.foldlM Reader.step {}).bind Reader.result?

def parse? (s : String) : Option Json := (tokenize s.toList).bind ofTokens?

end Json

end Matchmaking
