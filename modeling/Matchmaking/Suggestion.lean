import Matchmaking.Books.Row
import Matchmaking.Json.Coded
import Matchmaking.Profile.Age
import Matchmaking.Judgement.Verdict

/-! Suggestions for a client: the best of a pool, and their text as kept with the client. -/
namespace Matchmaking

structure Suggestion where
  candidate : Int
  name : String
  avatar : Option String
  score : Int32
  tags : List String
  /-- Zero where the age is unknown. -/
  age : Int32
  height : Int32
  education : Int32
deriving DecidableEq, Repr

/-- A way of judging how well the second client suits the first. -/
abbrev Judge := Client → Client → Verdict

namespace Suggestion

def of (today : Date) (c : Client) (v : Verdict) : Suggestion where
  candidate := c.id
  name := c.profile.name
  avatar := c.profile.avatar
  score := v.score
  tags := v.tags
  age := (c.profile.ageOn today).getD 0
  height := c.profile.height
  education := c.profile.education

variable (judge : Judge) (today : Date) (client : Client) (pool : List Client)

def judged : List Suggestion :=
  (pool.filter (·.id != client.id)).map fun c => .of today c (judge client c)

def best (top : Nat) : List Suggestion :=
  ((judged judge today client pool).mergeSort fun x y => y.score ≤ x.score).take top

end Suggestion

instance : Coded Suggestion where
  encode s := Coded.record [
    ("candidate_id", Coded.encode s.candidate),
    ("name", Coded.encode s.name),
    ("avatar", Coded.encode s.avatar),
    ("score", Coded.encode s.score),
    ("tags", Coded.encode s.tags),
    ("age", Coded.encode s.age),
    ("height", Coded.encode s.height),
    ("education", Coded.encode s.education)]
  decode? j := do
    let [candidate, name, avatar, score, tags, age, height, education] ← Coded.fields?
      ["candidate_id", "name", "avatar", "score", "tags", "age", "height", "education"] j | none
    return {
      candidate := ← Coded.required? candidate
      name := ← Coded.required? name
      avatar := ← Coded.optional? avatar
      score := ← Coded.required? score
      tags := ← Coded.required? tags
      age := ← Coded.required? age
      height := ← Coded.required? height
      education := ← Coded.required? education }

def writeShortlist (l : List Suggestion) : String := Coded.toText l

def readShortlist (text : Option String) : Option (List Suggestion) := text.bind Coded.ofText?

end Matchmaking
