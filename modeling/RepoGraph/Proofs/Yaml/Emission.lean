import RepoGraph.Proofs.Extract.Kept
import RepoGraph.Yaml.Emission

/-!
# What is put out of a value

What is put out of a value agrees with its JSON form: either the value has a form, and its whole
text is put out, which is read as that form; or it has none, and what is put out stops with the
fault that the value is refused for.  The text is that of a JSON value in which fields of one name
may still stand side by side; they are joined when it is read.

Main statements: `Yaml.Value.putsOut_emit`, `Yaml.Value.emit_ofJson`.
-/

namespace RepoGraph

namespace Json

/-! ### The text after the first item -/

/-- Items that stand behind another one. -/
def moreItems (indent : Nat) : List Json → String
  | [] => ""
  | items => "," ++ prettyItems indent items

/-- Fields that stand behind another one. -/
def moreFields (indent : Nat) : List (String × Json) → String
  | [] => ""
  | fields => "," ++ prettyFields indent fields

theorem prettyItems_cons (indent : Nat) (item : Json) (rest : List Json) :
    prettyItems indent (item :: rest) =
      newline indent ++ prettyAt indent item ++ moreItems indent rest := by
  cases rest with
  | nil => simp [prettyItems, moreItems]
  | cons next rest => simp [prettyItems, moreItems, String.append_assoc]

theorem prettyFields_cons (indent : Nat) (name : String) (value : Json)
    (rest : List (String × Json)) :
    prettyFields indent ((name, value) :: rest) =
      newline indent ++ quote name ++ ": " ++ prettyAt indent value ++ moreFields indent rest := by
  cases rest with
  | nil => simp [prettyFields, moreFields, String.append_assoc]
  | cons next rest => simp [prettyFields, moreFields, String.append_assoc]

end Json

namespace Yaml

/-! ### Emissions and answers -/

namespace Emission

theorem whole_append (s t : String) : whole s ++ whole t = whole (s ++ t) := rfl

/-- What is put out for an answer: a text that means the answer, or some text and the fault of the
answer. -/
inductive PutsOut {α : Type} (means : String → α → Prop) :
    Emission → Except JsonFault α → Prop where
  | whole {text : String} {a : α} (h : means text a) : PutsOut means ⟨text, none⟩ (.ok a)
  | stopped (part : String) (fault : JsonFault) : PutsOut means ⟨part, some fault⟩ (.error fault)

namespace PutsOut

variable {α β γ : Type} {means : String → α → Prop} {means' : String → β → Prop}
  {means'' : String → γ → Prop} {e e' : Emission} {answer : Except JsonFault α}
  {answer' : Except JsonFault β}

/-- A text that is made of an answer. -/
theorem ofText {text : α → String} (h : ∀ a, answer = .ok a → means (text a) a) :
    PutsOut means (Emission.ofText (answer.map text)) answer := by
  cases answer with
  | ok a => exact .whole (h a rfl)
  | error fault => exact .stopped "" fault

/-- One after the other, for the answers in a row. -/
theorem append {join : α → β → γ} (h : PutsOut means e answer) (h' : PutsOut means' e' answer')
    (hmeans : ∀ s t a b, means s a → means' t b → means'' (s ++ t) (join a b)) :
    PutsOut means'' (e ++ e') (answer >>= fun a => answer'.map (join a)) := by
  cases h with
  | stopped part fault => exact .stopped part fault
  | whole h =>
    cases h' with
    | stopped part fault => exact .stopped _ fault
    | whole h' => exact .whole (hmeans _ _ _ _ h h')

/-- With a text before it. -/
theorem after {opening : String} (h : PutsOut (fun text a => means (opening ++ text) a) e answer) :
    PutsOut means (Emission.whole opening ++ e) answer := by
  cases h with
  | whole h => exact .whole h
  | stopped part fault => exact .stopped (opening ++ part) fault

/-- With a text behind it. -/
theorem before {closing : String} (h : PutsOut (fun text a => means (text ++ closing) a) e answer) :
    PutsOut means (e ++ Emission.whole closing) answer := by
  cases h with
  | whole h => exact .whole h
  | stopped part fault => exact .stopped part fault

end PutsOut

end Emission

namespace Value

open Emission (PutsOut)
open Json (areShort areShortFields asReadItems asReadFields moreItems moreFields newline quote)

/-! ### What the texts mean -/

/-- Whether a text is that of a value which is read as another one. -/
def IsText (before : String) (indent : Nat) (text : String) (json : Json) : Prop :=
  ∃ raw : Json, raw.isShort = true ∧ raw.asRead = json ∧ text = before ++ raw.prettyAt indent

/-- The same for items that stand behind another one. -/
def AreMoreItems (indent : Nat) (text : String) (items : List Json) : Prop :=
  ∃ raws, areShort raws = true ∧ asReadItems raws = items ∧ text = moreItems indent raws

/-- The same for a field. -/
def IsField (before : String) (indent : Nat) (text : String) (field : String × Json) : Prop :=
  ∃ raw : Json, raw.isShort = true ∧ raw.asRead = field.2 ∧
    text = before ++ quote field.1 ++ ": " ++ raw.prettyAt indent

/-- The same for fields that stand behind another one. -/
def AreMoreFields (indent : Nat) (text : String) (fields : Fields) : Prop :=
  ∃ raws : Fields, areShortFields raws = true ∧
    (raws.map fun field => (field.1, field.2.asRead)) = fields ∧ text = moreFields indent raws

variable {before text more : String} {indent : Nat} {json : Json} {items : List Json}
  {field : String × Json} {fields : Fields}

theorem isText_of_isKept (h : json.IsKept) :
    IsText before indent (before ++ json.prettyAt indent) json :=
  ⟨json, h.isShort_eq, h.asRead_eq, rfl⟩

theorem AreMoreItems.cons (hmore : AreMoreItems indent more items)
    (h : IsText ("," ++ newline indent) indent text json) :
    AreMoreItems indent (text ++ more) (json :: items) := by
  obtain ⟨raw, hshort, rfl, rfl⟩ := h
  obtain ⟨raws, hshorts, rfl, rfl⟩ := hmore
  refine ⟨raw :: raws, by rw [areShort, hshort, hshorts]; rfl, rfl, ?_⟩
  simp only [moreItems, Json.prettyItems_cons, String.append_assoc]

theorem IsText.moreItem (h : IsText ("," ++ newline indent) indent text json) :
    AreMoreItems indent text [json] := by
  obtain ⟨raw, hshort, rfl, rfl⟩ := h
  refine ⟨[raw], by rw [areShort, hshort]; rfl, rfl, ?_⟩
  simp only [moreItems, Json.prettyItems, String.append_assoc]

theorem IsText.list (h : IsText ("[" ++ newline (indent + 2)) (indent + 2) text json)
    (hmore : AreMoreItems (indent + 2) more items) :
    IsText before indent (before ++ (text ++ more) ++ (newline indent ++ "]"))
      (.arr (json :: items)) := by
  obtain ⟨raw, hshort, rfl, rfl⟩ := h
  obtain ⟨raws, hshorts, rfl, rfl⟩ := hmore
  refine ⟨.arr (raw :: raws), ?_, rfl, ?_⟩
  · rw [Json.isShort, areShort, hshort, hshorts]
    rfl
  · simp [Json.prettyAt, Json.prettyItems_cons, String.append_assoc]

theorem AreMoreFields.cons (hmore : AreMoreFields indent more fields)
    (h : IsField ("," ++ newline indent) indent text field) :
    AreMoreFields indent (text ++ more) (field :: fields) := by
  obtain ⟨name, value⟩ := field
  obtain ⟨raw, hshort, rfl, rfl⟩ := h
  obtain ⟨raws, hshorts, rfl, rfl⟩ := hmore
  refine ⟨(name, raw) :: raws, by rw [areShortFields, hshort, hshorts]; rfl, rfl, ?_⟩
  simp only [moreFields, Json.prettyFields_cons, String.append_assoc]

theorem IsField.map (h : IsField "" (indent + 2) text field)
    (hmore : AreMoreFields (indent + 2) more fields) :
    IsText before indent
      (before ++ "\x7b" ++ newline (indent + 2) ++ (text ++ more) ++ (newline indent ++ "\x7d"))
      (.obj (Fields.update [] (field :: fields))) := by
  obtain ⟨name, value⟩ := field
  obtain ⟨raw, hshort, rfl, rfl⟩ := h
  obtain ⟨raws, hshorts, rfl, rfl⟩ := hmore
  refine ⟨.obj ((name, raw) :: raws), ?_, ?_, ?_⟩
  · rw [Json.isShort, areShortFields, hshort, hshorts]
    rfl
  · rw [Json.asRead, Json.asReadFields_eq_update]
    rfl
  · simp [Json.prettyAt, Json.prettyFields_cons, String.append_assoc]

/-! ### Forms of containers -/

theorem itemsToJson_cons (item : Value) (rest : List Value) : itemsToJson (item :: rest) =
    item.toJson >>= fun first => (itemsToJson rest).map (first :: ·) := by
  rw [itemsToJson]
  cases item.toJson with
  | error fault => rfl
  | ok first => cases itemsToJson rest <;> rfl

theorem toJson_list_cons (item : Value) (rest : List Value) : toJson (.list (item :: rest)) =
    item.toJson >>= fun first => (itemsToJson rest).map fun more => .arr (first :: more) := by
  rw [toJson, itemsToJson_cons]
  cases item.toJson with
  | error fault => rfl
  | ok first => cases itemsToJson rest <;> rfl

theorem toJson_pair (key value : Value) : toJson (.pair key value) =
    key.toJson >>= fun first => value.toJson.map fun second => .arr [first, second] := by
  rw [toJson]
  cases key.toJson with
  | error fault => rfl
  | ok first => cases value.toJson <;> rfl

/-- The field of an entry. -/
def fieldOf (key : Scalar) (value : Value) : Except JsonFault (String × Json) :=
  key.fieldName >>= fun name => value.toJson.map (name, ·)

theorem entriesToJson_cons (key : Scalar) (value : Value) (rest : List (Scalar × Value)) :
    entriesToJson ((key, value) :: rest) =
      fieldOf key value >>= fun first => (entriesToJson rest).map (first :: ·) := by
  rw [entriesToJson, fieldOf]
  cases key.fieldName with
  | error fault => rfl
  | ok name =>
    cases value.toJson with
    | error fault => rfl
    | ok json => cases entriesToJson rest <;> rfl

theorem toJson_map_cons (key : Scalar) (value : Value) (rest : List (Scalar × Value)) :
    toJson (.map ((key, value) :: rest)) = fieldOf key value >>= fun first =>
      (entriesToJson rest).map fun more => .obj (Fields.update [] (first :: more)) := by
  rw [toJson, entriesToJson_cons]
  cases fieldOf key value with
  | error fault => rfl
  | ok field => cases entriesToJson rest <;> rfl

/-! ### What is put out -/

/-- An entry puts out its field. -/
theorem putsOut_entry (key : Scalar) {value : Value} (before : String)
    (h : Emission.PutsOut (IsText "" indent) (value.emit "" indent) value.toJson) :
    PutsOut (IsField before indent)
      (.ofText (key.fieldName.map fun name => before ++ quote name ++ ": ") ++ value.emit "" indent)
      (fieldOf key value) := by
  have hname : PutsOut (fun text name => text = before ++ quote name ++ ": ")
      (.ofText (key.fieldName.map fun name => before ++ quote name ++ ": ")) key.fieldName :=
    .ofText fun _ _ => rfl
  refine hname.append h fun s t name json hs ht => ?_
  obtain ⟨raw, hshort, hread, rfl⟩ := ht
  exact ⟨raw, hshort, hread, by rw [hs, String.empty_append]⟩

mutual

/-- A value puts out its form, or stops with its fault. -/
theorem putsOut_emit (before : String) (indent : Nat) (v : Value) :
    PutsOut (IsText before indent) (v.emit before indent) v.toJson := by
  match v with
  | scalar s =>
    rw [emit, toJson]
    exact .ofText fun json hjson => isText_of_isKept (Scalar.isKept_toJson hjson)
  | list [] => exact .whole (isText_of_isKept (.arr fun _ h => nomatch h))
  | list (item :: rest) =>
    rw [toJson_list_cons, emit, emitItems]
    · exact .before (.after ((putsOut_emit _ _ item).append (putsOut_emitItems _ rest)
        fun _ _ _ _ hitem hmore => hitem.list hmore))
    · simp
  | map [] => exact .whole (isText_of_isKept .noFields)
  | map ((key, value) :: rest) =>
    rw [toJson_map_cons, emit, emitEntries]
    · exact .before (.after ((putsOut_entry key "" (putsOut_emit "" _ value)).append
        (putsOut_emitEntries _ rest) fun _ _ _ _ hfield hmore => hfield.map hmore))
    · simp
  | set keys =>
    rw [emit, toJson]
    cases (shownSet keys).mapError JsonFault.numeral with
    | ok text => exact .whole (isText_of_isKept (.str text))
    | error fault => exact .stopped _ fault
  | pair key value =>
    rw [toJson_pair, emit]
    exact .before (.after ((putsOut_emit _ _ key).append (putsOut_emit _ _ value)
      fun _ _ _ _ hkey hvalue => hkey.list hvalue.moreItem))
  | loop isMap => exact .stopped before .circular
termination_by sizeOf v

theorem putsOut_emitItems (indent : Nat) (items : List Value) :
    PutsOut (AreMoreItems indent) (emitItems ("," ++ newline indent) indent items)
      (itemsToJson items) := by
  match items with
  | [] => exact .whole ⟨[], rfl, rfl, rfl⟩
  | item :: rest =>
    rw [emitItems, itemsToJson_cons]
    exact (putsOut_emit _ _ item).append (putsOut_emitItems _ rest)
      fun _ _ _ _ hitem hmore => hmore.cons hitem
termination_by sizeOf items

theorem putsOut_emitEntries (indent : Nat) (entries : List (Scalar × Value)) :
    PutsOut (AreMoreFields indent) (emitEntries ("," ++ newline indent) indent entries)
      (entriesToJson entries) := by
  match entries with
  | [] => exact .whole ⟨[], rfl, rfl, rfl⟩
  | (key, value) :: rest =>
    rw [emitEntries, entriesToJson_cons]
    exact (putsOut_entry key _ (putsOut_emit "" _ value)).append (putsOut_emitEntries _ rest)
      fun _ _ _ _ hfield hmore => hmore.cons hfield
termination_by sizeOf entries

end

/-- A value that is put out as a whole has a form, and its text is that of a value read as the
form. -/
theorem exists_of_emit (v : Value) (h : (v.emit "" 0).fault = none) : ∃ raw : Json,
    raw.isShort = true ∧ v.toJson = .ok raw.asRead ∧ v.emit "" 0 = .whole raw.pretty := by
  have hout := putsOut_emit "" 0 v
  generalize v.emit "" 0 = e, v.toJson = answer at hout h ⊢
  cases hout with
  | stopped part fault => cases h
  | whole htext =>
    obtain ⟨raw, hshort, rfl, rfl⟩ := htext
    exact ⟨raw, hshort, rfl, by rw [String.empty_append]; rfl⟩

/-! ### JSON values -/

theorem emitItems_ofItems {items : List Json}
    (h : ∀ item ∈ items, ∀ before indent,
      (ofJson item).emit before indent = .whole (before ++ item.prettyAt indent)) (indent : Nat) :
    emitItems ("," ++ newline indent) indent (ofItems items) = .whole (moreItems indent items) := by
  induction items with
  | nil => rfl
  | cons item rest ih =>
    rw [ofItems, emitItems, h item List.mem_cons_self,
      ih fun i hi => h i (List.mem_cons_of_mem _ hi),
      Emission.whole_append]
    simp only [moreItems, Json.prettyItems_cons, String.append_assoc]

theorem emitEntries_ofFields {fields : Fields}
    (h : ∀ field ∈ fields, ∀ before indent,
      (ofJson field.2).emit before indent = .whole (before ++ field.2.prettyAt indent))
        (indent : Nat) :
    emitEntries ("," ++ newline indent) indent (ofFields fields) =
      .whole (moreFields indent fields) := by
  induction fields with
  | nil => rfl
  | cons field rest ih =>
    obtain ⟨name, value⟩ := field
    have hname : Emission.ofText ((Scalar.fieldName (.text name)).map fun name =>
        "," ++ newline indent ++ quote name ++ ": ") =
          .whole ("," ++ newline indent ++ quote name ++ ": ") := rfl
    rw [ofFields, emitEntries, hname, h _ List.mem_cons_self,
      ih fun f hf => h f (List.mem_cons_of_mem _ hf), Emission.whole_append, Emission.whole_append]
    simp [moreFields, Json.prettyFields_cons, String.append_assoc]

/-- A JSON value that comes back is put out as its text. -/
theorem emit_ofJson (h : json.IsKept) (before : String) (indent : Nat) :
    (ofJson json).emit before indent = .whole (before ++ json.prettyAt indent) := by
  induction h generalizing before indent with
  | null | bool | float | str => rfl
  | @int n h =>
    -- a number that is kept is short enough to be written
    have htext : Scalar.toJson (.int n) = .ok (.int n) := by
      rw [Scalar.toJson, Numeral.integerText, show (4300 : Nat) = Json.maxDigits from rfl,
        if_neg (Nat.not_le.2 h)]
      rfl
    rw [ofJson, emit, htext]
    rfl
  | @arr items _ ih =>
    cases items with
    | nil => rfl
    | cons item rest =>
      rw [ofJson, ofItems, emit, emitItems, ih item List.mem_cons_self,
        emitItems_ofItems fun i hi => ih i (List.mem_cons_of_mem _ hi)]
      · simp [Emission.whole_append, Json.prettyAt, Json.prettyItems_cons, String.append_assoc]
      · simp
  | @obj fields _ _ ih =>
    cases fields with
    | nil => rfl
    | cons field rest =>
      obtain ⟨name, value⟩ := field
      have hname : Emission.ofText ((Scalar.fieldName (.text name)).map fun name =>
          "" ++ quote name ++ ": ") = .whole ("" ++ quote name ++ ": ") := rfl
      rw [ofJson, ofFields, emit, emitEntries, hname, ih _ List.mem_cons_self,
        emitEntries_ofFields fun f hf => ih f (List.mem_cons_of_mem _ hf)]
      · simp [Emission.whole_append, Json.prettyAt, Json.prettyFields_cons, String.append_assoc]
      · simp

end Value

end Yaml

end RepoGraph
