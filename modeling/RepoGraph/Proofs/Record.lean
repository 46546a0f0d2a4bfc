import RepoGraph.Output
import RepoGraph.Proofs.Json.Fields
import RepoGraph.Proofs.Json.RoundTrip

/-!
# Records are read as they were written

The records of entities, relationships and outputs have distinct names, so each field is found again
under its name in what their text is read as.  Only metadata and properties, which hold values of
any kind, may come back in another form: the one that a text is read as.

Main statements: `Entity.ofJson_asRead`, `Enriched.ofJson_asRead`, `Output.ofJson_asRead`.
-/

namespace RepoGraph

/-! ### Steps that end well -/

/-- A step that ends well after another one that did. -/
theorem exists_of_bind {ε α β : Type} {first : Except ε α} {next : α → Except ε β} {b : β}
    (h : first >>= next = .ok b) : ∃ a, first = .ok a ∧ next a = .ok b := by
  cases first with
  | error fault => cases h
  | ok a => exact ⟨a, rfl, h⟩

theorem exists_of_map {ε α β : Type} {first : Except ε α} {f : α → β} {b : β}
    (h : first.map f = .ok b) : ∃ a, first = .ok a ∧ f a = b := by
  cases first with
  | error fault => cases h
  | ok a => exact ⟨a, rfl, Except.ok.inj h⟩

theorem eq_ok_of_mapError {ε ε' α : Type} {reason : ε → ε'} {answer : Except ε α} {a : α}
    (h : answer.mapError reason = .ok a) : answer = .ok a := by
  cases answer with
  | error fault => cases h
  | ok value => exact congrArg Except.ok (Except.ok.inj h)

/-- Going through a list that ends well does so for every item. -/
theorem exists_of_mapM {ε α β : Type} {f : α → Except ε β} {items : List α} {values : List β}
    (h : items.mapM f = .ok values) {item : α} (hitem : item ∈ items) : ∃ b, f item = .ok b := by
  induction items generalizing values with
  | nil => cases hitem
  | cons first rest ih =>
    rw [List.mapM_cons] at h
    obtain ⟨b, hfirst, h⟩ := exists_of_bind h
    obtain ⟨bs, hrest, -⟩ := exists_of_bind h
    obtain rfl | hitem := List.mem_cons.1 hitem
    · exact ⟨b, hfirst⟩
    · exact ih hrest hitem

namespace Json

/-! ### Fields -/

theorem asReadFields_eq_update (done fields : Fields) :
    asReadFields done fields = done.update (fields.map fun f => (f.1, f.2.asRead)) := by
  induction fields generalizing done with
  | nil => rw [asReadFields]; rfl
  | cons field rest ih =>
    obtain ⟨name, value⟩ := field
    rw [asReadFields, ih]
    rfl

theorem get?_map_asRead (fields : Fields) (name : String) :
    Fields.get? (fields.map fun f => (f.1, f.2.asRead)) name =
      (fields.get? name).map asRead := by
  induction fields with
  | nil => rfl
  | cons field rest ih =>
    obtain ⟨n, value⟩ := field
    by_cases h : n = name
    · simp [Fields.get?, h]
    · simp [Fields.get?, h, ih]

/-- Fields with distinct names are found again. -/
theorem get?_asRead {fields : Fields} (h : fields.names.Nodup) (name : String) :
    (obj fields).asRead.get? name = (fields.get? name).map asRead := by
  have hnames : (Fields.names (fields.map fun f => (f.1, f.2.asRead))).Nodup := by
    rwa [Fields.names, List.map_map]
  rw [asRead, get?, asReadFields_eq_update, Fields.get?_update hnames, get?_map_asRead]
  exact Option.or_none

theorem asReadItems_eq_map (items : List Json) : asReadItems items = items.map asRead := by
  induction items with
  | nil => rw [asReadItems]; rfl
  | cons item rest ih => rw [asReadItems, ih]; rfl

/-- Items that are read as they are. -/
theorem asRead_arr_map {α : Type} {item : α → Json} (h : ∀ a, (item a).asRead = item a)
    (as : List α) : (arr (as.map item)).asRead = arr (as.map item) := by
  rw [asRead, asReadItems_eq_map, List.map_map]
  exact congrArg arr (List.map_congr_left fun a _ => h a)

end Json

namespace Record

theorem mapM_ok {α β γ : Type} {read : γ → Except RecordFault α} {item : β → γ} {value : β → α}
    (h : ∀ b, read (item b) = .ok (value b)) (bs : List β) :
    (bs.map item).mapM read = .ok (bs.map value) := by
  induction bs with
  | nil => rfl
  | cons b rest ih =>
    rw [List.map_cons, List.mapM_cons, h, ih]
    rfl

variable {v : Json} {name : String}

theorem optionalText_eq {o : Option String} (h : v.get? name = o.map .str) :
    optionalText v name = .ok o := by
  rw [optionalText, Json.getNonNull?, h]
  cases o <;> rfl

theorem optionalInteger_eq {o : Option Int} (h : v.get? name = o.map .int) :
    optionalInteger v name = .ok o := by
  rw [optionalInteger, Json.getNonNull?, h]
  cases o <;> rfl

theorem optionalList_eq {α : Type} {read : Json → Except RecordFault α} {item : α → Json}
    (hread : ∀ a, read (item a) = .ok a) {o : Option (List α)}
    (h : v.get? name = o.map fun as => .arr (as.map item)) :
    optionalList read v name = .ok o := by
  rw [optionalList, Json.getNonNull?, h]
  cases o with
  | none => rfl
  | some as =>
    show (List.mapM read (as.map item)).map some = _
    rw [mapM_ok hread, List.map_id']
    rfl

theorem recordsOf_eq {α β : Type} {read : Json → Except RecordFault α} {item : β → Json}
    {value : β → α} (hread : ∀ b, read (item b) = .ok (value b)) {bs : List β}
    (h : v.get? name = some (.arr (bs.map item))) :
    recordsOf read v name = .ok (bs.map value) := by
  rw [recordsOf, h]
  exact mapM_ok hread bs

end Record

theorem Number.asRead_toJson (n : Number) : n.toJson.asRead = n.toJson := by
  cases n <;> rw [toJson, Json.asRead]

/-! ### Entities -/

/-- A location's text is read as its record. -/
theorem Location.asRead_toJson (l : Location) : l.toJson.asRead = l.toJson := by
  simp only [toJson, Json.asRead, Json.asReadFields]
  rfl

namespace Entity

/-- An entity as its text is read. -/
def asRead (e : Entity) : Entity := { e with metadata := Json.asReadFields [] e.metadata }

@[simp]
theorem id_asRead (e : Entity) : e.asRead.id = e.id := rfl

@[simp]
theorem kind_asRead (e : Entity) : e.asRead.kind = e.kind := rfl

@[simp]
theorem path_asRead (e : Entity) : e.asRead.path = e.path := rfl

/-- The names that the fields of an entity may have. -/
def fieldNames : List String :=
  ["id", "type", "name", "path", "metadata", "content", "sourceLocation"]

theorem names_toFields (e : Entity) : (e.toFields.names).Sublist fieldNames := by
  rw [toFields, Fields.names_append, Fields.names_append]
  exact ((List.Sublist.refl _).append (Fields.names_optional _ _ _)).append
    (Fields.names_optional _ _ _)

/-- An entity is read from a record that has its fields. -/
theorem ofJson_of_get? {e : Entity} {fields : Fields}
    (h : ∀ name ∈ fieldNames, fields.get? name = (e.toFields.get? name).map Json.asRead) :
    ofJson (.obj fields) = .ok e.asRead := by
  have hid : fields.get? "id" = some (.str e.id) := by
    simp [h "id" (by decide), toFields, Fields.get?, Json.asRead]
  have hkind : fields.get? "type" = some (.str e.kind) := by
    simp [h "type" (by decide), toFields, Fields.get?, Json.asRead]
  have hname : fields.get? "name" = some (.str e.name) := by
    simp [h "name" (by decide), toFields, Fields.get?, Json.asRead]
  have hpath : fields.get? "path" = some (.str e.path) := by
    simp [h "path" (by decide), toFields, Fields.get?, Json.asRead]
  have hmetadata : fields.get? "metadata" = some (.obj (Json.asReadFields [] e.metadata)) := by
    simp [h "metadata" (by decide), toFields, Fields.get?, Json.asRead]
  have hcontent : fields.get? "content" = e.content.map .str := by
    rw [h "content" (by decide), toFields, Fields.get?_append, Fields.get?_append,
      Fields.get?_optional, Fields.get?_optional]
    cases e.content <;> simp [Fields.get?, Json.asRead]
  have hlocation : fields.get? "sourceLocation" = e.location.map Location.toJson := by
    rw [h "sourceLocation" (by decide), toFields, Fields.get?_append, Fields.get?_append,
      Fields.get?_optional, Fields.get?_optional]
    cases e.location <;> simp [Fields.get?, Location.asRead_toJson]
  simp only [ofJson, Record.requiredText, Record.required, Record.textOr, Record.optionalText,
    Record.fieldsOf, Json.get?, Json.getNonNull?, hid, hkind, hname, hpath, hmetadata, hcontent,
    hlocation]
  cases e with
  | mk id kind name path content metadata location =>
    cases content <;> cases location <;> rfl

/-- The text of an entity's record is read as the entity. -/
theorem ofJson_asRead (e : Entity) : ofJson e.toJson.asRead = .ok e.asRead := by
  have hnames : e.toFields.names.Nodup := (names_toFields e).nodup (by decide)
  have hobj : e.toJson.asRead = .obj (Json.asReadFields [] e.toFields) := by
    rw [toJson, Json.asRead]
  rw [hobj]
  refine ofJson_of_get? fun name _ => ?_
  have hget := Json.get?_asRead hnames name
  rwa [Json.asRead] at hget

end Entity

/-! ### The semantic layer -/

namespace Enrichment

/-- The names that the fields of the semantic layer may have. -/
def fieldNames : List String :=
  ["semanticDescription", "purpose", "patterns", "architecturalRole", "complexity", "embedding"]

theorem names_toFields (x : Enrichment) : (x.toFields.names).Sublist fieldNames := by
  simp only [toFields, Fields.names_append]
  exact ((((Fields.names_optional _ _ _).append (Fields.names_optional _ _ _)).append
    (Fields.names_optional _ _ _)).append (Fields.names_optional _ _ _)).append
      (Fields.names_optional _ _ _) |>.append (Fields.names_optional _ _ _)

theorem get?_toFields (x : Enrichment) (name : String) :
    x.toFields.get? name =
      (if "semanticDescription" = name then x.description.map .str else .none).or
        ((if "purpose" = name then x.purpose.map .str else .none).or
          ((if "patterns" = name then x.patterns.map fun ps => .arr (ps.map .str) else .none).or
            ((if "architecturalRole" = name then x.role.map .str else .none).or
              ((if "complexity" = name then x.complexity.map .int else .none).or
                (if "embedding" = name then x.embedding.map fun v => .arr (v.map Number.toJson)
                  else .none))))) := by
  simp only [toFields, Fields.get?_append, Fields.get?_optional, Option.or_assoc]

/-- The semantic layer is read from a record that has its fields. -/
theorem ofJson_of_get? {x : Enrichment} {fields : Fields}
    (h : ∀ name ∈ fieldNames, fields.get? name = (x.toFields.get? name).map Json.asRead) :
    ofJson (.obj fields) = .ok x := by
  have hdescription : Json.get? (.obj fields) "semanticDescription" = x.description.map .str := by
    rw [Json.get?, h _ (by decide), get?_toFields]
    cases x.description <;> simp [Json.asRead]
  have hpurpose : Json.get? (.obj fields) "purpose" = x.purpose.map .str := by
    rw [Json.get?, h _ (by decide), get?_toFields]
    cases x.purpose <;> simp [Json.asRead]
  have hpatterns : Json.get? (.obj fields) "patterns" =
      x.patterns.map fun ps => .arr (ps.map .str) := by
    rw [Json.get?, h _ (by decide), get?_toFields]
    cases x.patterns <;> simp [Json.asRead_arr_map fun s => Json.asRead.eq_5 s]
  have hrole : Json.get? (.obj fields) "architecturalRole" = x.role.map .str := by
    rw [Json.get?, h _ (by decide), get?_toFields]
    cases x.role <;> simp [Json.asRead]
  have hcomplexity : Json.get? (.obj fields) "complexity" = x.complexity.map .int := by
    rw [Json.get?, h _ (by decide), get?_toFields]
    cases x.complexity <;> simp [Json.asRead]
  have hembedding : Json.get? (.obj fields) "embedding" =
      x.embedding.map fun v => .arr (v.map Number.toJson) := by
    rw [Json.get?, h _ (by decide), get?_toFields]
    cases x.embedding <;> simp [Json.asRead_arr_map Number.asRead_toJson]
  have htext (s : String) : Record.text (.str s) = .ok s := rfl
  have hnumber (n : Number) : Record.number n.toJson = .ok n := by cases n <;> rfl
  rw [ofJson, Record.optionalText_eq hdescription, Record.optionalText_eq hpurpose,
    Record.optionalList_eq htext hpatterns, Record.optionalText_eq hrole,
    Record.optionalInteger_eq hcomplexity, Record.optionalList_eq hnumber hembedding]
  rfl

end Enrichment

namespace Enriched

/-- An enriched entity as its text is read. -/
def asRead (e : Enriched) : Enriched := ⟨e.entity.asRead, e.enrichment⟩

@[simp]
theorem id_asRead (e : Enriched) : e.asRead.id = e.id := rfl

/-- The text of an enriched entity's record is read as the enriched entity. -/
theorem ofJson_asRead (e : Enriched) : ofJson e.toJson.asRead = .ok e.asRead := by
  have hnames : (Fields.names (e.entity.toFields ++ e.enrichment.toFields)).Nodup := by
    rw [Fields.names_append]
    exact ((Entity.names_toFields _).append (Enrichment.names_toFields _)).nodup (by decide)
  have hobj : e.toJson.asRead =
      .obj (Json.asReadFields [] (e.entity.toFields ++ e.enrichment.toFields)) := by
    rw [toJson, Json.asRead]
  have hget (name : String) : Fields.get?
      (Json.asReadFields [] (e.entity.toFields ++ e.enrichment.toFields)) name =
        ((e.entity.toFields.get? name).or (e.enrichment.toFields.get? name)).map Json.asRead := by
    have := Json.get?_asRead hnames name
    rwa [Json.asRead, Fields.get?_append] at this
  have hdisjoint : ∀ name ∈ Entity.fieldNames, name ∉ Enrichment.fieldNames := by decide
  rw [hobj, ofJson, Entity.ofJson_of_get?, Enrichment.ofJson_of_get?]
  · rfl
  · intro name hname
    have hnone : e.entity.toFields.get? name = none :=
      Fields.get?_eq_none_iff.2 fun hmem =>
        hdisjoint name ((Entity.names_toFields _).subset hmem) hname
    rw [hget, hnone, Option.none_or]
  · intro name hname
    have hnone : e.enrichment.toFields.get? name = none :=
      Fields.get?_eq_none_iff.2 fun hmem =>
        hdisjoint name hname ((Enrichment.names_toFields _).subset hmem)
    rw [hget, hnone, Option.or_none]

end Enriched

/-! ### Relationships and outputs -/

namespace Relationship

/-- A relationship as its text is read. -/
def asRead (r : Relationship) : Relationship :=
  { r with properties := Json.asReadFields [] r.properties }

/-- The text of a relationship's record is read as the relationship. -/
theorem ofJson_asRead (r : Relationship) : ofJson r.toJson.asRead = .ok r.asRead := by
  have hnames : (Fields.names [("id", Json.str r.id), ("type", .str r.type),
      ("source", .str r.source), ("target", .str r.target),
      ("properties", .obj r.properties)]).Nodup :=
    (by decide : ["id", "type", "source", "target", "properties"].Nodup)
  have hget := Json.get?_asRead hnames
  rw [toJson]
  rw [Json.asRead] at hget ⊢
  simp only [Json.get?] at hget
  simp only [ofJson, Record.requiredText, Record.required, Record.fieldsOf, Json.get?, hget]
  simp [Fields.get?, Json.asRead]
  rfl

end Relationship

namespace Output

variable {α : Type}

/-- An output as its text is read, given how an entity is. -/
def asRead (entity : α → α) (o : Output α) : Output α :=
  ⟨o.entities.map entity, o.relationships.map Relationship.asRead, Json.asReadFields [] o.metadata⟩

/-- The text of an output's record is read as the output. -/
theorem ofJson_asRead {toJson : α → Json} {ofJson : Json → Except RecordFault α} {entity : α → α}
    (h : ∀ a, ofJson (toJson a).asRead = .ok (entity a)) (o : Output α) :
    Output.ofJson ofJson (Output.toJson toJson o).asRead = .ok (o.asRead entity) := by
  have hnames : (Fields.names [("entities", Json.arr (o.entities.map toJson)),
      ("relationships", .arr (o.relationships.map Relationship.toJson)),
      ("metadata", .obj o.metadata)]).Nodup :=
    (by decide : ["entities", "relationships", "metadata"].Nodup)
  have hget := Json.get?_asRead hnames
  rw [Output.toJson]
  rw [Json.asRead] at hget ⊢
  generalize Json.asReadFields [] _ = fields at hget
  have hentities : Json.get? (.obj fields) "entities" =
      some (.arr (o.entities.map fun a => (toJson a).asRead)) := by
    rw [hget]
    simp [Fields.get?, Json.asRead, Json.asReadItems_eq_map]
  have hrelationships : Json.get? (.obj fields) "relationships" =
      some (.arr (o.relationships.map fun r => r.toJson.asRead)) := by
    rw [hget]
    simp [Fields.get?, Json.asRead, Json.asReadItems_eq_map]
  have hmetadata : Json.get? (.obj fields) "metadata" =
      some (.obj (Json.asReadFields [] o.metadata)) := by
    rw [hget]
    simp [Fields.get?, Json.asRead]
  simp only [Output.ofJson, Record.recordsOf_eq h hentities,
    Record.recordsOf_eq Relationship.ofJson_asRead hrelationships, Record.fieldsOf, hmetadata]
  rfl

end Output

end RepoGraph
