import RepoGraph.Proofs.Extract
import RepoGraph.Proofs.Json.Kept

/-!
# What is found in a file comes back

Metadata and properties hold values of any kind: the front matter of a document, parts of a
manifest.  Whatever a file holds, all of them come back from their text as they are (`Json.IsKept`),
as long as the file and what is found in it fit into a memory.

Main statement: `Extract.isKept_file`.
-/

namespace RepoGraph

/-- Whether the metadata of an entity and its place in the file come back from their text. -/
structure Entity.IsKept (e : Entity) : Prop where
  metadata : (Json.obj e.metadata).IsKept
  location : ∀ l, e.location = some l → l.toJson.IsKept

/-- Whether the properties of a relationship come back from their text. -/
def Relationship.IsKept (r : Relationship) : Prop := (Json.obj r.properties).IsKept

/-- Whether all that was found comes back from its text. -/
structure Findings.IsKept (found : Findings) : Prop where
  entities : ∀ e ∈ found.entities, e.IsKept
  relationships : ∀ r ∈ found.relationships, r.IsKept

namespace Findings.IsKept

variable {found : Findings} {source type target : String} {properties : Fields}

theorem relate (h : found.IsKept) (hproperties : (Json.obj properties).IsKept) :
    (found.relate source type target properties).IsKept := by
  refine ⟨by rw [entities_relate]; exact h.entities, fun r hr => ?_⟩
  rw [Findings.relate, addRelationship] at hr
  split at hr
  · exact h.relationships r hr
  · rcases List.mem_append.1 hr with hr | hr
    · exact h.relationships r hr
    · rw [List.mem_singleton.1 hr]
      exact hproperties

theorem addEntity (h : found.IsKept) {e : Entity} (he : e.IsKept) : (found.addEntity e).IsKept := by
  refine ⟨fun e' he' => ?_, h.relationships⟩
  rcases List.mem_append.1 he' with he' | he'
  · exact h.entities e' he'
  · rw [List.mem_singleton.1 he']
    exact he

theorem single {e : Entity} (he : e.IsKept) : (Findings.mk [e] []).IsKept :=
  ⟨List.forall_mem_singleton.2 he, fun _ h => nomatch h⟩

end Findings.IsKept

namespace Syntax.File

/-! ### Places in a file -/

variable {cs ds : List Char}

theorem byteCount_cons (c : Char) (cs : List Char) :
    byteCount (c :: cs) = c.utf8Size + byteCount cs := by
  rw [byteCount, List.map_cons, List.sum_cons]
  rfl

theorem byteCount_le_of_sublist (h : cs.Sublist ds) : byteCount cs ≤ byteCount ds := by
  induction h with
  | slnil => exact Nat.le_refl _
  | cons c _ ih => exact ih.trans (byteCount_cons c _ ▸ Nat.le_add_left _ _)
  | cons_cons c _ ih => rw [byteCount_cons, byteCount_cons]; exact Nat.add_le_add_left ih _

theorem length_le_byteCount (cs : List Char) : cs.length ≤ byteCount cs := by
  induction cs with
  | nil => exact Nat.le_refl _
  | cons c cs ih =>
    have hc := c.utf8Size_pos
    rw [byteCount_cons, List.length_cons]
    omega

/-- Rows and columns are not more than the bytes of the file. -/
theorem position_le (f : File) (offset : Nat) :
    (f.position offset).1 ≤ byteCount f.chars.toList ∧
      (f.position offset).2 ≤ byteCount f.chars.toList := by
  have hbefore : (f.slice ⟨0, offset⟩).Sublist f.chars.toList := by
    rw [slice, Array.toList_extract]
    exact (List.take_sublist _ _).trans (List.drop_sublist _ _)
  have hlast (cs : List Char) : (lastLine cs).Sublist cs := by
    have := (List.takeWhile_sublist (fun c => c != '\n') (l := cs.reverse)).reverse
    rwa [List.reverse_reverse] at this
  refine ⟨?_, byteCount_le_of_sublist ((hlast _).trans hbefore)⟩
  calc lineFeeds (f.slice ⟨0, offset⟩) ≤ (f.slice ⟨0, offset⟩).length := List.countP_le_length
    _ ≤ byteCount (f.slice ⟨0, offset⟩) := length_le_byteCount _
    _ ≤ byteCount f.chars.toList := byteCount_le_of_sublist hbefore

end Syntax.File

namespace Extract

open Syntax (File Node)
open Json (IsKept)

/-! ### Code -/

variable {file : File} {found : Findings}

theorem isKept_define (hfile : File.byteCount file.chars.toList < 2 ^ 63)
    (h : found.IsKept) (n : Node)
    (id kind name : String) {metadata : Fields} (hmetadata : (Json.obj metadata).IsKept) :
    (define file n id kind name metadata found).IsKept := by
  refine (h.addEntity ⟨hmetadata, ?_⟩).relate .noFields
  rintro l ⟨⟩
  have hposition := file.position_le n.span.start
  have hrow : (Json.int ((locationOf file n).line)).IsKept :=
    .ofNat (n := (file.position n.span.start).1 + 1) (by omega)
  have hcolumn : (Json.int ((locationOf file n).column)).IsKept :=
    .ofNat (n := (file.position n.span.start).2) (by omega)
  exact .cons rfl (.str _) (.cons rfl hrow (.cons rfl hcolumn .noFields))

theorem isInvariant_isKept (hfile : File.byteCount file.chars.toList < 2 ^ 63) :
    IsInvariant file Findings.IsKept where
  addClass n name methods properties superclass h := by
    have hmetadata : (Json.obj [("methods", nameList methods),
        ("properties", nameList properties)]).IsKept :=
      .cons rfl (.strings methods) (.cons rfl (.strings properties) .noFields)
    have hdefine := isKept_define hfile h n
      (Entity.classId file.path name) Entity.classKind name hmetadata
    unfold addClass
    cases superclass with
    | none => exact hdefine
    | some base =>
      simp only
      split
      · exact hdefine
      · exact hdefine.relate .noFields
  addFunction n name params h := isKept_define hfile h n _ _ _
    (.cons rfl (.strings _) (.cons rfl (.bool _) .noFields))
  addImport module specifiers h := h.relate (.cons rfl (.strings _) .noFields)
  addEvent method arguments h := by
    rw [addEvent]
    split
    · split
      · exact h.relate .noFields
      · exact h
    · exact h

theorem isKept_code {text path : String} {named : Option String}
    (hsize : File.byteCount text.toList < 2 ^ 63) (h : code text path named = .ok found) :
    found.IsKept := by
  obtain ⟨language, rfl⟩ := exists_of_code h
  have hlength := File.length_le_byteCount text.toList
  rw [String.length_toList] at hlength
  have hentity : (fileEntity path text language.name).IsKept :=
    ⟨.cons rfl (.str _) (.cons rfl (.ofNat (by omega))
      (.cons rfl (.str _) .noFields)), fun _ h => nomatch h⟩
  have hbytes : File.byteCount (File.ofText path text).chars.toList < 2 ^ 63 := by
    rwa [File.ofText, List.toList_toArray]
  have hwalk := (isInvariant_isKept hbytes).walkCode language (.single hentity)
  exact Findings.foldl_of_step (fun _ _ _ hfound => hfound.relate .noFields) hwalk

end Extract

/-! ### Values of YAML -/

/-- An integer that has a text is not too long. -/
theorem Numeral.natAbs_lt_of_integerText {n : Int} {text : String} (h : integerText n = .ok text) :
    n.natAbs < 10 ^ Json.maxDigits := by
  rw [integerText, show (4300 : Nat) = Json.maxDigits from rfl] at h
  split at h
  · cases h
  · rename_i hshort
    exact Nat.not_le.1 hshort

namespace Yaml

theorem Scalar.isKept_toJson {s : Scalar} {json : Json} (h : s.toJson = .ok json) :
    json.IsKept := by
  cases s with
  | null =>
    cases h
    exact .null
  | bool b =>
    cases h
    exact .bool b
  | int n =>
    rw [Scalar.toJson] at h
    obtain ⟨text, htext, rfl⟩ := exists_of_map h
    exact .int (Numeral.natAbs_lt_of_integerText (eq_ok_of_mapError htext))
  | float x =>
    cases h
    exact .float x
  | text s =>
    cases h
    exact .str s
  | bytes | date | moment =>
    rw [Scalar.toJson] at h
    · obtain ⟨text, -, rfl⟩ := exists_of_map h
      exact .str text
    all_goals simp

namespace Value

mutual

/-- A value of YAML that can be written comes back. -/
theorem isKept_toJson {v : Value} {json : Json} (h : v.toJson = .ok json) : json.IsKept := by
  match v with
  | scalar s => exact Scalar.isKept_toJson h
  | list items =>
    rw [toJson] at h
    obtain ⟨jsons, hitems, rfl⟩ := exists_of_map h
    exact .arr (isKept_itemsToJson hitems)
  | map entries =>
    rw [toJson] at h
    obtain ⟨fields, hentries, rfl⟩ := exists_of_map h
    exact .ofFields (isKept_entriesToJson hentries)
  | set keys =>
    rw [toJson] at h
    obtain ⟨text, -, rfl⟩ := exists_of_map h
    exact .str text
  | pair key value =>
    rw [toJson] at h
    obtain ⟨first, hfirst, h⟩ := exists_of_bind h
    obtain ⟨second, hsecond, rfl⟩ := exists_of_map h
    exact .arr (List.forall_mem_cons.2 ⟨isKept_toJson hfirst,
      List.forall_mem_singleton.2 (isKept_toJson hsecond)⟩)
  | loop isMap =>
    rw [toJson] at h
    cases h
termination_by sizeOf v

theorem isKept_itemsToJson {items : List Value} {jsons : List Json}
    (h : itemsToJson items = .ok jsons) : ∀ json ∈ jsons, json.IsKept := by
  match items with
  | [] =>
    rw [itemsToJson] at h
    cases h
    exact fun _ h => nomatch h
  | item :: rest =>
    rw [itemsToJson] at h
    obtain ⟨json, hitem, h⟩ := exists_of_bind h
    obtain ⟨more, hrest, rfl⟩ := exists_of_map h
    exact List.forall_mem_cons.2 ⟨isKept_toJson hitem, isKept_itemsToJson hrest⟩
termination_by sizeOf items

theorem isKept_entriesToJson {entries : List (Scalar × Value)} {fields : Fields}
    (h : entriesToJson entries = .ok fields) : ∀ field ∈ fields, field.2.IsKept := by
  match entries with
  | [] =>
    rw [entriesToJson] at h
    cases h
    exact fun _ h => nomatch h
  | (key, value) :: rest =>
    rw [entriesToJson] at h
    obtain ⟨name, -, h⟩ := exists_of_bind h
    obtain ⟨json, hvalue, h⟩ := exists_of_bind h
    obtain ⟨more, hrest, rfl⟩ := exists_of_map h
    exact List.forall_mem_cons.2 ⟨isKept_toJson hvalue, isKept_entriesToJson hrest⟩
termination_by sizeOf entries

end

end Value

end Yaml
/-! ### Front matter and documents -/

namespace FrontMatter

theorem isKept_fields {block : String} {fields : Fields}
    (h : FrontMatter.fields block = .ok fields) :
    (Json.obj fields).IsKept := by
  rw [FrontMatter.fields] at h
  obtain ⟨value, -, h⟩ := exists_of_bind h
  split at h
  · obtain ⟨entries, hentries, h⟩ := exists_of_bind h
    cases h
    exact .ofFields (Yaml.Value.isKept_entriesToJson (eq_ok_of_mapError hentries))
  · cases h
    exact .noFields

theorem sublist_afterBreak? {cs rest : List Char} (h : afterBreak? cs = some rest) :
    rest.Sublist cs := by
  rw [afterBreak?.eq_def] at h
  split at h
  · cases h
    exact List.sublist_cons_self _ _
  · cases h
    exact (List.sublist_cons_self _ _).cons _
  · cases h

theorem sublist_afterHyphens? {cs rest : List Char} (h : afterHyphens? cs = some rest) :
    rest.Sublist cs := by
  rw [afterHyphens?] at h
  split at h
  · cases h
    exact (List.dropWhile_sublist _).trans (List.drop_sublist _ _)
  · cases h

theorem sublist_afterClosing? {cs rest : List Char} (h : afterClosing? cs = some rest) :
    rest.Sublist cs := by
  rw [afterClosing?] at h
  obtain ⟨line, hline, h⟩ := Option.bind_eq_some_iff.1 h
  obtain ⟨behind, hbehind, h⟩ := Option.bind_eq_some_iff.1 h
  split at h
  · cases h
    exact List.nil_sublist _
  · exact (sublist_afterBreak? h).trans
      ((sublist_afterHyphens? hbehind).trans (sublist_afterBreak? hline))

theorem sublist_splitAtClosing? {cs block body : List Char}
    (h : splitAtClosing? cs = some (block, body)) : body.Sublist cs := by
  induction cs generalizing block with
  | nil => cases h
  | cons c rest ih =>
    rw [splitAtClosing?] at h
    split at h
    · rename_i hclosing
      cases h
      exact sublist_afterClosing? hclosing
    · obtain ⟨⟨inner, body⟩, hrest, h⟩ := Option.map_eq_some_iff.1 h
      cases h
      exact (ih hrest).cons c

/-- The fields of a front matter are kept, and the body is not longer than the text. -/
theorem isKept_read {text body : String} {fields : Fields} (h : read text = .ok (fields, body)) :
    (Json.obj fields).IsKept ∧ body.length ≤ text.length := by
  rw [read] at h
  split at h
  · cases h
    exact ⟨.noFields, Nat.le_refl _⟩
  · rename_i block rest hsplit
    obtain ⟨fields, hfields, h⟩ := exists_of_bind h
    cases h
    refine ⟨isKept_fields hfields, ?_⟩
    rw [split?] at hsplit
    obtain ⟨behind, hopening, hclosing⟩ := Option.bind_eq_some_iff.1 hsplit
    obtain ⟨line, hline, hbreak⟩ := Option.bind_eq_some_iff.1 hopening
    have hsublist := (sublist_splitAtClosing? hclosing).trans
      ((sublist_afterBreak? hbreak).trans (sublist_afterHyphens? hline))
    rw [String.length_ofList, ← String.length_toList]
    exact hsublist.length_le

end FrontMatter

/-- A text has not more words than characters. -/
theorem Text.length_words_le (text : String) : (Text.words text).length ≤ text.length := by
  have hruns (cs : List Char) : (runsBetween isBlank cs).length ≤ cs.length := by
    induction cs with
    | nil => exact Nat.le_refl _
    | cons c rest ih =>
      rw [runsBetween.eq_def]
      split
      · simp_all
      · grind
  rw [Text.words, List.length_map, ← String.length_toList]
  exact hruns _

namespace Extract

open Syntax (File)
open Json (IsKept)

variable {text path : String} {found : Findings}

theorem isKept_document (hsize : text.length < 2 ^ 63) (h : document text path = .ok found) :
    found.IsKept := by
  rw [document] at h
  obtain ⟨⟨fields, body⟩, hread, h⟩ := exists_of_bind h
  obtain ⟨hfields, hbody⟩ := FrontMatter.isKept_read hread
  have hwords := Text.length_words_le body
  have hmetadata : (Json.obj [("frontmatter", .obj fields),
      ("wordCount", Json.int (Text.words body).length)]).IsKept :=
    .cons rfl hfields (.cons rfl (.ofNat (by omega)) .noFields)
  cases h
  refine Findings.foldl_of_step (P := Findings.IsKept) (fun found r hr hfound => hfound.relate ?_)
    (.single ⟨hmetadata, fun _ h => by cases h⟩)
  -- only a link says something beside its ends: its text
  obtain ⟨type, target, properties⟩ := r
  simp only [List.mem_append, List.mem_map, Prod.mk.injEq] at hr
  obtain ((⟨_, _, _, _, rfl⟩ | ⟨⟨label, _⟩, _, _, _, rfl⟩) | ⟨_, _, _, _, rfl⟩) |
      ⟨_, _, _, _, rfl⟩ := hr
  · exact .noFields
  · exact .cons rfl (.str label) .noFields
  · exact .noFields
  · exact .noFields

theorem isKept_assetEntity (hsize : text.length < 2 ^ 63) (format : String) (keys : List String)
    {more : Fields} (hmore : more = [] ∨ ∃ package, more = [("package", package)] ∧
      package.IsKept) :
    (assetEntity text path format keys more).IsKept := by
  refine ⟨.cons ?_ (.str format) (.cons ?_ (.strings keys) (.cons ?_ (.ofNat hsize.le) ?_)),
    fun _ h => nomatch h⟩
  all_goals obtain rfl | ⟨package, rfl, hpackage⟩ := hmore
  any_goals rfl
  · exact .noFields
  · exact .cons rfl hpackage .noFields

theorem isKept_section? {fields : Fields} (h : (Json.obj fields).IsKept) (name : String) :
    (Json.obj (section? fields name)).IsKept := by
  rw [section?]
  cases hget : fields.get? name with
  | none => exact .noFields
  | some v =>
    have hv := h.get? hget
    cases v with
    | obj inner => exact hv
    | _ => exact .noFields

theorem isKept_dependencies {fields : Fields} (h : (Json.obj fields).IsKept) :
    (Json.obj (dependencies fields)).IsKept := by
  refine (isKept_section? h _).update ?_
  cases isKept_section? h "devDependencies" with
  | obj _ hnew => exact hnew

theorem isKept_packageJson {fields : Fields} (h : (Json.obj fields).IsKept)
    (hcount : (dependencies fields).length < 2 ^ 63) : (packageJson fields).IsKept := by
  have hnamed (name : String) : ((fields.get? name).getD .null).IsKept := by
    cases hget : fields.get? name with
    | none => exact .null
    | some v => exact h.get? hget
  exact .cons rfl (hnamed _) (.cons rfl (hnamed _) (.cons rfl (.ofNat hcount.le) .noFields))

/-- What an asset yields is kept, as long as the packages of a manifest can be counted. -/
theorem isKept_asset (hsize : text.length < 2 ^ 63) (h : asset text path = .ok found)
    (hcount : found.relationships.length < 2 ^ 63) : found.IsKept := by
  rw [asset] at h
  simp only at h
  split at h
  · obtain ⟨v, hread, h⟩ := exists_of_bind h
    have hv := Json.isKept_of_read (eq_ok_of_mapError hread)
    split at h
    · -- a manifest has an edge to each package, with the version that is written there
      rename_i hmanifest
      cases h
      rw [List.length_map] at hcount
      have hfields : (Json.obj (v.obj?.getD [])).IsKept := by
        cases v with
        | obj fields => exact hv
        | _ => exact .noFields
      have hdependencies := isKept_dependencies hfields
      refine ⟨List.forall_mem_singleton.2 (isKept_assetEntity hsize _ _
        (.inr ⟨_, rfl, isKept_packageJson hfields hcount⟩)), fun r hr => ?_⟩
      obtain ⟨⟨name, version⟩, hmem, rfl⟩ := List.mem_map.1 hr
      cases hdependencies with
      | obj _ hall => exact .cons rfl (hall _ hmem) .noFields
    · cases h
      exact .single (isKept_assetEntity hsize _ _ (.inl rfl))
  · split at h
    · obtain ⟨keys, -, h⟩ := exists_of_bind h
      cases h
      exact .single (isKept_assetEntity hsize _ _ (.inl rfl))
    · cases h

/-- Whatever a file holds, what is found in it is kept. -/
theorem isKept_file (hsize : File.byteCount text.toList < 2 ^ 63)
    (h : Extract.file path text = .ok found)
    (hcount : found.relationships.length < 2 ^ 63) : found.IsKept := by
  have hlength := (File.length_le_byteCount text.toList).trans_lt hsize
  rw [String.length_toList] at hlength
  unfold Extract.file at h
  split at h
  · exact isKept_code hsize (eq_ok_of_mapError h)
  · exact isKept_document hlength (eq_ok_of_mapError h)
  · exact isKept_asset hlength (eq_ok_of_mapError h) hcount
  · cases h

end Extract

end RepoGraph
