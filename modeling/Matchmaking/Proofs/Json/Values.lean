import Matchmaking.Json.Value
import Matchmaking.Proofs.Json.Tokens

/-! Every JSON value is the value of its text. The reader takes in the tokens of a value wherever
one is due, with any containers open around it, and holds that value then. -/
namespace Matchmaking.Json

def Follows (ts : List Token) : Prop := Separated ts ∧ ∀ t ∈ ts.head?, t.isMark

theorem follows_nil : Follows [] := ⟨.nil, nofun⟩

theorem separated_cons {t : Token} {ts : List Token} (ht : t.isNumber = false)
    (hts : Separated ts) : Separated (t :: ts) := by
  cases ts with
  | nil => exact .singleton _
  | cons u us => exact .cons_cons (by simp [ht]) hts

theorem separated_of_follows {t : Token} {ts : List Token} (hts : Follows ts) :
    Separated (t :: ts) := by
  cases ts with
  | nil => exact .singleton _
  | cons u us => exact .cons_cons (fun _ => hts.2 u rfl) hts.1

theorem follows_cons {t : Token} {ts : List Token} (ht : t.isMark) (hts : Separated ts) :
    Follows (t :: ts) := by
  refine ⟨separated_cons ?_ hts, by simpa using ht⟩
  cases t <;> simp_all [Token.isMark, Token.isNumber]

/-! In the tokens of a value a number is followed by a mark. -/

mutual
theorem separated_tokens : ∀ (v : Json) {ts : List Token}, Follows ts →
    Separated (v.tokens ++ ts)
  | .null, _, hts | .bool _, _, hts | .int _, _, hts | .fraction, _, hts | .string _, _, hts => by
    simpa [tokens] using separated_of_follows hts
  | .array [], _, hts => by
    simpa [tokens] using separated_cons rfl (separated_cons rfl hts.1)
  | .array (v :: vs), _, hts => by
    simpa [tokens] using separated_cons rfl (separated_tokens v (follows_itemTokens vs hts.1))
  | .object [], _, hts => by
    simpa [tokens] using separated_cons rfl (separated_cons rfl hts.1)
  | .object ((k, v) :: ms), _, hts => by
    simpa [tokens] using separated_cons rfl (separated_cons rfl (separated_cons rfl
      (separated_tokens v (follows_memberTokens ms hts.1))))

theorem follows_itemTokens : ∀ (vs : List Json) {ts : List Token}, Separated ts →
    Follows (itemTokens vs ++ ts)
  | [], _, hts => by simpa [itemTokens] using follows_cons rfl hts
  | v :: vs, _, hts => by
    simpa [itemTokens] using follows_cons rfl (separated_tokens v (follows_itemTokens vs hts))

theorem follows_memberTokens : ∀ (ms : List (Option String × Json)) {ts : List Token},
    Separated ts → Follows (memberTokens ms ++ ts)
  | [], _, hts => by simpa [memberTokens] using follows_cons rfl hts
  | (k, v) :: ms, _, hts => by
    simpa [memberTokens] using follows_cons rfl (separated_cons rfl (separated_cons rfl
      (separated_tokens v (follows_memberTokens ms hts))))
end

/-! The reader takes in one value after the other. -/

/-- Where the first item of an array or its end may come, an item is read as anywhere. -/
theorem foldlM_firstItem (v : Json) (fs : List Frame) (ts : List Token) :
    (v.tokens ++ ts).foldlM Reader.step ⟨fs, .firstItem⟩ =
      (v.tokens ++ ts).foldlM Reader.step ⟨.array [] :: fs, .value⟩ := by
  cases v with
  | array vs => cases vs <;> rfl
  | object ms => cases ms <;> rfl
  | _ => rfl

mutual
theorem foldlM_tokens : ∀ (v : Json) (fs : List Frame) (ts : List Token),
    (v.tokens ++ ts).foldlM Reader.step ⟨fs, .value⟩ = ts.foldlM Reader.step ⟨fs, .done v⟩
  | .null, _, _ | .bool _, _, _ | .int _, _, _ | .fraction, _, _ | .string _, _, _ => by
    rw [tokens]
    rfl
  | .array [], _, _ | .object [], _, _ => by
    rw [tokens]
    rfl
  | .array (v :: vs), fs, ts => by
    calc (tokens (.array (v :: vs)) ++ ts).foldlM Reader.step ⟨fs, .value⟩
      _ = (v.tokens ++ (itemTokens vs ++ ts)).foldlM Reader.step ⟨fs, .firstItem⟩ := by
        rw [tokens, List.append_assoc]
        rfl
      _ = (itemTokens vs ++ ts).foldlM Reader.step ⟨.array [] :: fs, .done v⟩ := by
        rw [foldlM_firstItem, foldlM_tokens]
      _ = ts.foldlM Reader.step ⟨fs, .done (.array (v :: vs))⟩ := foldlM_itemTokens vs v [] fs ts
  | .object ((k, v) :: ms), fs, ts => by
    calc (tokens (.object ((k, v) :: ms)) ++ ts).foldlM Reader.step ⟨fs, .value⟩
      _ = (v.tokens ++ (memberTokens ms ++ ts)).foldlM Reader.step
          ⟨.object [] k :: fs, .value⟩ := by
        rw [tokens, List.append_assoc]
        rfl
      _ = (memberTokens ms ++ ts).foldlM Reader.step ⟨.object [] k :: fs, .done v⟩ :=
        foldlM_tokens v _ _
      _ = ts.foldlM Reader.step ⟨fs, .done (.object ((k, v) :: ms))⟩ :=
        foldlM_memberTokens ms k v [] fs ts

theorem foldlM_itemTokens : ∀ (vs : List Json) (v : Json) (items : List Json) (fs : List Frame)
    (ts : List Token), (itemTokens vs ++ ts).foldlM Reader.step ⟨.array items :: fs, .done v⟩ =
      ts.foldlM Reader.step ⟨fs, .done (.array (items.reverse ++ v :: vs))⟩
  | [], v, items, fs, ts => by
    rw [itemTokens, ← List.reverse_cons]
    rfl
  | w :: vs, v, items, fs, ts => by
    calc (itemTokens (w :: vs) ++ ts).foldlM Reader.step ⟨.array items :: fs, .done v⟩
      _ = (w.tokens ++ (itemTokens vs ++ ts)).foldlM Reader.step
          ⟨.array (v :: items) :: fs, .value⟩ := by
        rw [itemTokens, List.append_assoc]
        rfl
      _ = (itemTokens vs ++ ts).foldlM Reader.step ⟨.array (v :: items) :: fs, .done w⟩ :=
        foldlM_tokens w _ _
      _ = ts.foldlM Reader.step ⟨fs, .done (.array ((v :: items).reverse ++ w :: vs))⟩ :=
        foldlM_itemTokens vs w (v :: items) fs ts
      _ = _ := by simp

theorem foldlM_memberTokens : ∀ (ms : List (Option String × Json)) (k : Option String) (v : Json)
    (seen : List (Option String × Json)) (fs : List Frame) (ts : List Token),
    (memberTokens ms ++ ts).foldlM Reader.step ⟨.object seen k :: fs, .done v⟩ =
      ts.foldlM Reader.step ⟨fs, .done (.object (seen.reverse ++ (k, v) :: ms))⟩
  | [], k, v, seen, fs, ts => by
    rw [memberTokens, ← List.reverse_cons]
    rfl
  | (l, w) :: ms, k, v, seen, fs, ts => by
    calc (memberTokens ((l, w) :: ms) ++ ts).foldlM Reader.step ⟨.object seen k :: fs, .done v⟩
      _ = (w.tokens ++ (memberTokens ms ++ ts)).foldlM Reader.step
          ⟨.object ((k, v) :: seen) l :: fs, .value⟩ := by
        rw [memberTokens, List.append_assoc]
        rfl
      _ = (memberTokens ms ++ ts).foldlM Reader.step ⟨.object ((k, v) :: seen) l :: fs, .done w⟩ :=
        foldlM_tokens w _ _
      _ = ts.foldlM Reader.step ⟨fs, .done (.object (((k, v) :: seen).reverse ++ (l, w) :: ms))⟩ :=
        foldlM_memberTokens ms l w ((k, v) :: seen) fs ts
      _ = _ := by simp
end

theorem ofTokens?_tokens (v : Json) : ofTokens? v.tokens = some v := by
  have hread := foldlM_tokens v [] []
  rw [List.append_nil] at hread
  rw [ofTokens?, hread]
  rfl

/-- Whatever is written is read back. -/
theorem parse?_text (v : Json) : parse? v.text = some v := by
  have hseparated := separated_tokens v follows_nil
  rw [List.append_nil] at hseparated
  rw [parse?, text, String.toList_ofList, tokenize_flatMap_chars hseparated, Option.bind_some,
    ofTokens?_tokens]

end Matchmaking.Json
