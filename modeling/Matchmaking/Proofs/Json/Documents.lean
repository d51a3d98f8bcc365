import Matchmaking.Document
import Matchmaking.Proofs.Json.Values
import Matchmaking.Suggestion

/-! Every document is read back from its own text: shortlists, the words of the vocabularies,
profiles, verdicts and the rows of the books. Only the numbers of rows have a bound, that of 64
bits. -/
namespace Matchmaking

namespace Coded
variable {α : Type}

def IsRowNumber (i : Int) : Prop := Int64.minValue.toInt ≤ i ∧ i ≤ Int64.maxValue.toInt

instance (i : Int) : Decidable (IsRowNumber i) := inferInstanceAs (Decidable (_ ∧ _))

def Reads [Coded α] (a : α) : Prop := decode? (encode a) = some a

theorem reads [Coded α] [Lawful α] (a : α) : Reads a := Lawful.decode?_encode a

theorem Reads.ofText?_toText [Coded α] {a : α} (ha : Reads a) : ofText? (toText a) = some a := by
  rw [ofText?, toText, Json.parse?_text, Option.bind_some, ha]

/-! Simple values. -/

instance : Lawful Bool := ⟨fun _ => rfl⟩
instance : Lawful String := ⟨fun _ => rfl⟩

instance [Vocabulary α] [Vocabulary.Lawful α] : Lawful α := ⟨Vocabulary.ofWord?_word⟩

theorem intIn?_int {low high i : Int} (hi : low ≤ i ∧ i ≤ high) :
    intIn? low high (.int i) = some i := if_pos hi

instance : Lawful Int32 := by
  refine ⟨fun i => ?_⟩
  calc (intIn? Int32.minValue.toInt Int32.maxValue.toInt (.int i.toInt)).map Int32.ofInt
    _ = some (Int32.ofInt i.toInt) := by
      rw [intIn?_int ⟨i.minValue_le_toInt, i.toInt_le⟩, Option.map_some]
    _ = some i := by rw [Int32.ofInt_toInt]

instance : Lawful Int64 := by
  refine ⟨fun i => ?_⟩
  calc (intIn? Int64.minValue.toInt Int64.maxValue.toInt (.int i.toInt)).map Int64.ofInt
    _ = some (Int64.ofInt i.toInt) := by
      rw [intIn?_int ⟨i.minValue_le_toInt, i.toInt_le⟩, Option.map_some]
    _ = some i := by rw [Int64.ofInt_toInt]

theorem reads_int {i : Int} (hi : IsRowNumber i) : Reads i := intIn?_int hi

theorem reads_option_int {o : Option Int} (ho : ∀ i ∈ o, IsRowNumber i) : Reads o := by
  cases o with
  | none => rfl
  | some i =>
    exact congrArg (Option.map some) (intIn?_int (ho i rfl))

instance : Lawful (Option String) := ⟨fun o => by cases o <;> rfl⟩

theorem reads_list [Coded α] {l : List α} (hl : ∀ a ∈ l, Reads a) : Reads l := by
  have hmap : (l.map encode).mapM decode? = some l := by
    induction l with
    | nil => rfl
    | cons a l ih =>
      have ha : decode? (encode a) = some a := hl a List.mem_cons_self
      simp [List.mapM_cons, ha, ih fun b hb => hl b (List.mem_cons_of_mem _ hb)]
  exact hmap

instance [Coded α] [Lawful α] : Lawful (List α) := ⟨fun _ => reads_list fun a _ => reads a⟩

/-! A record with distinct names, field by field. -/

theorem filter_key_of_mem {fs : List (String × Json)} {f : String × Json}
    (hnames : (fs.map (·.1)).Nodup) (hf : f ∈ fs) : fs.filter (·.1 == f.1) = [f] := by
  induction fs with
  | nil => cases hf
  | cons g fs ih =>
    rw [List.map_cons, List.nodup_cons] at hnames
    obtain ⟨hg, hnames⟩ := hnames
    rcases List.mem_cons.mp hf with rfl | hf
    · have hrest : fs.filter (·.1 == f.1) = [] := by
        rw [List.filter_eq_nil_iff]
        intro h hh heq
        exact hg (List.mem_map.mpr ⟨h, hh, beq_iff_eq.mp heq⟩)
      rw [List.filter_cons_of_pos (by simp), hrest]
    · have hne : g.1 ≠ f.1 := fun h => hg (List.mem_map.mpr ⟨f, hf, h.symm⟩)
      rw [List.filter_cons_of_neg (by simpa using hne), ih hnames hf]

theorem member?_of_mem {fs : List (String × Json)} {f : String × Json}
    (hnames : (fs.map (·.1)).Nodup) (hf : f ∈ fs) :
    member? (fs.map fun (k, v) => (some k, v)) f.1 = some (some f.2) := by
  have hfilter : (fs.map fun (k, v) => ((some k : Option String), v)).filter (·.1 == some f.1) =
      [(some f.1, f.2)] := by
    rw [List.filter_map]
    have hkey : ((fun m => m.1 == some f.1) ∘ fun ((k, v) : String × Json) =>
        ((some k : Option String), v)) = fun g => g.1 == f.1 := by
      funext g
      simp
    rw [hkey, filter_key_of_mem hnames hf, List.map_singleton]
  rw [member?, hfilter]

/-- The fields of a record are found under their names. -/
theorem fields?_record {fs : List (String × Json)} (hnames : (fs.map (·.1)).Nodup) :
    fields? (fs.map (·.1)) (record fs) = some (fs.map fun f => some f.2) := by
  have hmap : ∀ gs : List (String × Json), (∀ f ∈ gs, f ∈ fs) →
      (gs.map (·.1)).mapM (member? (fs.map fun (k, v) => (some k, v))) =
        some (gs.map fun f => some f.2) := by
    intro gs hgs
    induction gs with
    | nil => rfl
    | cons g gs ih =>
      have hg := member?_of_mem hnames (hgs g List.mem_cons_self)
      simp [List.mapM_cons, hg, ih fun f hf => hgs f (List.mem_cons_of_mem _ hf)]
  have hall : (fs.map fun (k, v) => ((some k : Option String), v)).all (·.1.isSome) := by simp
  calc fields? (fs.map (·.1)) (record fs)
    _ = (fs.map (·.1)).mapM (member? (fs.map fun (k, v) => (some k, v))) := if_pos hall
    _ = some (fs.map fun f => some f.2) := hmap fs fun _ hf => hf

/-- A record is read from its fields once they are found. -/
theorem decode?_record [Coded α] {a : α} {names : List String} {fs : List (String × Json)}
    {ofFields? : List (Option Json) → Option α}
    (hdecode : ∀ j, decode? j = (fields? names j).bind ofFields?) (hencode : encode a = record fs)
    (hnames : fs.map (·.1) = names) (hdistinct : names.Nodup) :
    decode? (encode a) = ofFields? (fs.map fun f => some f.2) := by
  subst hnames
  rw [hdecode, hencode, fields?_record hdistinct, Option.bind_some]

/-- A record is read back where its fields, once found, are. -/
theorem reads_record [Coded α] {a : α} {names : List String} {fs : List (String × Json)}
    {ofFields? : List (Option Json) → Option α}
    (hdecode : ∀ j, decode? j = (fields? names j).bind ofFields?) (hencode : encode a = record fs)
    (hnames : fs.map (·.1) = names) (hdistinct : names.Nodup)
    (hfields : ofFields? (fs.map fun f => some f.2) = some a) : Reads a :=
  (decode?_record hdecode hencode hnames hdistinct).trans hfields

@[simp]
theorem required?_encode [Coded α] [Lawful α] (a : α) : required? (some (encode a)) = some a :=
  reads a

@[simp]
theorem optional?_encode [Coded α] [Lawful (Option α)] (o : Option α) :
    optional? (some (encode o)) = some o :=
  reads o

theorem required?_int {i : Int} (hi : IsRowNumber i) : required? (some (encode i)) = some i :=
  reads_int hi

theorem optional?_int {o : Option Int} (ho : ∀ i ∈ o, IsRowNumber i) :
    optional? (some (encode o)) = some o :=
  reads_option_int ho

end Coded

open Coded

theorem Suggestion.reads {s : Suggestion} (hs : IsRowNumber s.candidate) : Reads s :=
  reads_record (fun _ => rfl) rfl rfl (by decide) (by simp [required?_int hs])

@[simp]
theorem Profile.ofFields?_fieldValues (p : Profile) :
    Profile.ofFields? (p.fieldValues.map some) = some p := by
  simp [Profile.ofFields?, Profile.fieldValues]

instance : Lawful Profile := by
  refine ⟨fun p => reads_record (fun _ => rfl) rfl rfl (by decide) ?_⟩
  exact p.ofFields?_fieldValues

instance : Lawful Verdict :=
  ⟨fun _ => reads_record (fun _ => rfl) rfl rfl (by decide) (by simp)⟩

instance : Lawful LeaseDocument :=
  ⟨fun _ => reads_record (fun _ => rfl) rfl rfl (by decide) (by simp)⟩

theorem MoveDocument.reads {m : MoveDocument} (hid : IsRowNumber m.id)
    (hpairing : IsRowNumber m.pairing) : Reads m :=
  reads_record (fun _ => rfl) rfl rfl (by decide)
    (by simp [required?_int hid, required?_int hpairing])

theorem PairingDocument.reads {p : PairingDocument} (hid : IsRowNumber p.id)
    (hman : IsRowNumber p.man) (hwoman : IsRowNumber p.woman) : Reads p :=
  reads_record (fun _ => rfl) rfl rfl (by decide)
    (by simp [required?_int hid, required?_int hman, required?_int hwoman])

theorem ClientDocument.reads {c : ClientDocument} (hid : IsRowNumber c.id)
    (hpartner : ∀ i ∈ c.partner, IsRowNumber i) : Reads c := by
  refine reads_record (fun _ => rfl) rfl rfl (by decide) ?_
  have hvalues : (Profile.fieldNames.zip c.profile.fieldValues).map (fun f => some f.2) =
      c.profile.fieldValues.map some := rfl
  have hlength : (c.profile.fieldValues.map some).length = 11 := rfl
  simp [required?_int hid, optional?_int hpartner, hvalues, List.take_left' hlength,
    List.drop_left' hlength]

/-- Shortlists and every document are read back from their texts. -/
theorem documents_read_back :
    (∀ l : List Suggestion, (∀ s ∈ l, IsRowNumber s.candidate) →
      readShortlist (some (writeShortlist l)) = some l) ∧
    (∀ c : ClientDocument, IsRowNumber c.id → (∀ i ∈ c.partner, IsRowNumber i) →
      ofText? (toText c) = some c) ∧
    (∀ p : PairingDocument, IsRowNumber p.id → IsRowNumber p.man → IsRowNumber p.woman →
      ofText? (toText p) = some p) ∧
    (∀ m : MoveDocument, IsRowNumber m.id → IsRowNumber m.pairing →
      ofText? (toText m) = some m) ∧
    (∀ l : LeaseDocument, ofText? (toText l) = some l) ∧
    (∀ p : Profile, ofText? (toText p) = some p) ∧
    (∀ v : Verdict, ofText? (toText v) = some v) ∧
    (∀ g : Gender, ofText? (toText g) = some g) ∧
    (∀ m : MaritalBackground, ofText? (toText m) = some m) ∧
    (∀ h : Housing, ofText? (toText h) = some h) ∧
    (∀ s : Standing, ofText? (toText s) = some s) ∧
    (∀ s : Stage, ofText? (toText s) = some s) ∧
    (∀ g : Grade, ofText? (toText g) = some g) := by
  have hlawful : ∀ {α : Type} [Coded α] [Lawful α] (a : α), ofText? (toText a) = some a :=
    fun a => (reads a).ofText?_toText
  refine ⟨fun l hl => ?_, fun c hid hpartner => (ClientDocument.reads hid hpartner).ofText?_toText,
    fun p hid hman hwoman => (PairingDocument.reads hid hman hwoman).ofText?_toText,
    fun m hid hpairing => (MoveDocument.reads hid hpairing).ofText?_toText,
    hlawful, hlawful, hlawful, hlawful, hlawful, hlawful, hlawful, hlawful, hlawful⟩
  have hreads : Reads l := reads_list fun s hs => Suggestion.reads (hl s hs)
  rw [readShortlist, writeShortlist, Option.bind_some, hreads.ofText?_toText]

namespace Sample

def strangeSuggestion : Suggestion where
  candidate := -9223372036854775808
  name := "\x00\x1f\"\\\n😀"
  avatar := some ""
  score := -2147483648
  tags := ["", "\u2028é", "],["]
  age := 2147483647
  height := 0
  education := -1

def strangeClient : ClientDocument where
  id := 9223372036854775807
  profile := { name := "\"", gender := .female, monthlyIncome := -9223372036854775808 }
  partner := some (-9223372036854775808)
  shortlist := some (writeShortlist [strangeSuggestion])
  shortlistAt := none
  createdAt := ""
  updatedAt := "\\"

theorem documents_read_back_sample :
    IsRowNumber strangeSuggestion.candidate ∧
    readShortlist (some (writeShortlist [strangeSuggestion])) = some [strangeSuggestion] ∧
    IsRowNumber strangeClient.id ∧ (∀ i ∈ strangeClient.partner, IsRowNumber i) ∧
    ofText? (toText strangeClient) = some strangeClient := by
  have hleast : IsRowNumber (-9223372036854775808) := by constructor <;> decide
  have hgreatest : IsRowNumber 9223372036854775807 := by constructor <;> decide
  have hpartner : ∀ i ∈ strangeClient.partner, IsRowNumber i := by
    rintro i ⟨⟩
    exact hleast
  obtain ⟨hshortlists, hclients, -⟩ := documents_read_back
  have hsuggestions : ∀ s ∈ [strangeSuggestion], IsRowNumber s.candidate := by
    intro s hs
    rw [List.mem_singleton.1 hs]
    exact hleast
  exact ⟨hleast, hshortlists _ hsuggestions, hgreatest, hpartner,
    hclients _ hgreatest hpartner⟩

end Sample

end Matchmaking
