import RepoGraph.Proofs.Extract.Kept
import RepoGraph.Proofs.Yaml.Writing

/-!
# Front matter that is a mapping

Where the block of a document is a mapping, the fields of the document are those of the mapping:
each key becomes a name, and each value is written as JSON.  This works for all mappings but those
that cannot be written, and these are told by the faults of `Yaml.JsonFault`: such a document is
refused, although its block is well-formed.

Main statements: `FrontMatter.read_eq`, `FrontMatter.read_of_mapping`.
-/

namespace RepoGraph

namespace FrontMatter

open Yaml (JsonFault Scalar Value)

variable {text path : String} {block body : List Char} {entries : List (Scalar × Value)}

theorem fields_of_mapping {block : String} (h : Yaml.read block = .ok (.map entries)) :
    fields block = ((Value.entriesToJson entries).mapError Fault.json).map (Fields.update []) := by
  rw [fields, h]
  rfl

/-- A mapping is read as its entries, a later one in the place of an earlier one of its name. -/
theorem read_eq (hsplit : split? text.toList = some (block, body))
    (hblock : Yaml.read (String.ofList block) = .ok (.map entries)) :
    read text = ((Value.entriesToJson entries).mapError Fault.json).map
      fun named => (Fields.update [] named, String.ofList body) := by
  rw [read, hsplit]
  simp only [fields_of_mapping hblock]
  cases Value.entriesToJson entries with
  | error fault => rfl
  | ok named => rfl

/-- Whether the findings in a file are those of a document with some fields. -/
def IsDocumentOf (path : String) (fields : Fields) (found : Findings) : Prop :=
  ∃ e, found.entities = [e] ∧ e.kind = Entity.documentKind ∧ e.path = path ∧
    e.metadata.get? "frontmatter" = some (.obj fields)

/-- A document whose front matter is read has an entity. -/
theorem exists_document {fields : Fields} {rest : String} (h : read text = .ok (fields, rest)) :
    ∃ found, Extract.document text path = .ok found ∧ IsDocumentOf path fields found := by
  rw [Extract.document, h]
  refine ⟨_, rfl, Findings.foldl_of_step (P := IsDocumentOf path fields) ?_ ?_⟩
  · intro found relationship _ hfound
    rw [IsDocumentOf, Findings.entities_relate]
    exact hfound
  · exact ⟨_, rfl, rfl, rfl, rfl⟩

/-- A document whose front matter is refused is refused, too. -/
theorem document_of_error {fault : Fault} (h : read text = .error fault) :
    Extract.document text path = .error fault := by
  rw [Extract.document, h]
  rfl

/-- What a document gives whose front matter is a mapping. -/
structure ReadsMapping (text path : String) (entries : List (Scalar × Value)) (body : List Char) :
    Prop where
  /-- A mapping without a fault gives values that come back, under the names of its keys, and the
  entity of the document. -/
  of_no_fault : (∀ fault : JsonFault, ¬ fault.IsIn (.map entries)) → ∃ named fields found,
    List.Forall₂ (fun e field => e.1.fieldName = .ok field.1 ∧
      e.2.toJson = .ok field.2) entries named ∧
      fields = Fields.update [] named ∧ (Json.obj fields).IsKept ∧
      read text = .ok (fields, String.ofList body) ∧
      Extract.document text path = .ok found ∧ IsDocumentOf path fields found
  /-- Any other one gives neither, for a fault in it. -/
  of_fault : (∃ fault : JsonFault, fault.IsIn (.map entries)) → ∃ fault : JsonFault,
    fault.IsIn (.map entries) ∧ read text = .error (.json fault) ∧
      Extract.document text path = .error (.json fault)

theorem read_of_mapping (path : String) (hsplit : split? text.toList = some (block, body))
    (hblock : Yaml.read (String.ofList block) = .ok (.map entries)) :
    ReadsMapping text path entries body := by
  have hread := read_eq hsplit hblock
  have hfails := (Value.failsBy_entriesToJson entries).congr fun _ => JsonFault.isIn_map_iff
  constructor
  · intro hnone
    obtain ⟨named, hnamed⟩ := hfails.exists_ok hnone
    rw [hnamed] at hread
    obtain ⟨found, hdocument, hfound⟩ := exists_document hread
    exact ⟨named, _, found, Value.forall₂_of_entriesToJson hnamed, rfl,
      .ofFields (Value.isKept_entriesToJson hnamed), hread, hdocument, hfound⟩
  · rintro ⟨fault, hfault⟩
    obtain ⟨first, hfirst, herror⟩ := hfails.exists_error hfault
    rw [herror] at hread
    exact ⟨first, hfirst, hread, document_of_error hread⟩

/-- The keys of a mapping. -/
def keys? : Value → Option (List Scalar)
  | .map entries => some (entries.map Prod.fst)
  | _ => none

theorem exists_entries (block : String) (keys : List Scalar)
    (h : (Yaml.read block).toOption.bind keys? = some keys) :
    ∃ entries, Yaml.read block = .ok (.map entries) ∧ entries.map Prod.fst = keys := by
  cases hread : Yaml.read block with
  | error fault =>
    rw [hread] at h
    cases h
  | ok v =>
    rw [hread] at h
    cases v with
    | map entries => exact ⟨entries, rfl, Option.some.inj h⟩
    | _ => cases h

/-- A block with a date among its values, a key that is no text, a set and an alias. -/
def datedText : String :=
  "---\ndate: 2024-01-01\n1: [&a \x7bb: 0x10\x7d, *a]\n~: !!set \x7bc\x7d\n---\nbody\n"

theorem read_of_mapping_datedText :
    ∃ block body entries, split? datedText.toList = some (block, body) ∧
      Yaml.read (String.ofList block) = .ok (.map entries) ∧
      entries.map Prod.fst = [.text "date", .int 1, .null] ∧
      ReadsMapping datedText "a.md" entries body ∧
      (∀ fault : JsonFault, ¬ fault.IsIn (.map entries)) ∧
      (read datedText).toOption.map (fun found => (found.1.names, found.2)) =
        some (["date", "1", "null"], "body\n") := by
  obtain ⟨entries, hblock, hkeys⟩ := exists_entries
    "date: 2024-01-01\n1: [&a \x7bb: 0x10\x7d, *a]\n~: !!set \x7bc\x7d" [.text "date",
      .int 1, .null]
    (by decide +kernel)
  have hmapping : ReadsMapping datedText "a.md" entries "body\n".toList :=
    read_of_mapping "a.md" rfl hblock
  have hfound : (read datedText).toOption.map (fun found => (found.1.names, found.2)) =
      some (["date", "1", "null"], "body\n") := by decide +kernel
  refine ⟨_, _, entries, rfl, hblock, hkeys, hmapping, fun fault hfault => ?_, hfound⟩
  obtain ⟨first, -, herror, -⟩ := hmapping.of_fault ⟨fault, hfault⟩
  rw [herror] at hfound
  cases hfound

/-- A block whose only key is a date. -/
def datedKeyText : String := "---\n2024-01-01: x\n---\n"

/-- The block is a mapping, but the document is refused. -/
theorem read_datedKeyText : ∃ block body entries, split? datedKeyText.toList = some (block, body) ∧
    Yaml.read (String.ofList block) = .ok (.map entries) ∧
    entries.map Prod.fst = [.date 2024 1 1] ∧
    read datedKeyText = .error (.json .noKey) ∧
    Extract.document datedKeyText "a.md" = .error (.json .noKey) := by
  obtain ⟨entries, hblock, hkeys⟩ :=
    exists_entries "2024-01-01: x" [.date 2024 1 1] (by decide +kernel)
  obtain ⟨⟨key, value⟩, rfl, rfl : key = .date 2024 1 1⟩ := List.map_eq_singleton_iff.1 hkeys
  have hread : read datedKeyText = .error (.json .noKey) := read_eq rfl hblock
  exact ⟨_, _, _, rfl, hblock, hkeys, hread, document_of_error hread⟩

end FrontMatter

end RepoGraph
