import RepoGraph.Proofs.Attempts
import RepoGraph.Proofs.Populate.Effect
import RepoGraph.Proofs.Text.Decoding
import RepoGraph.Proofs.Yaml.Faults
import RepoGraph.Settings.File

/-!
# Loading the settings file

A settings file sets what its mapping says, and nothing where it cannot be opened, holds another
value or breaks the rules of the format.  `Settings.IsLoaded` says so for all bytes that a file may
hold, and it says when loading fails all the same: on bytes that are no text, and on a text that
keeps to the rules of the format but holds something that has no value.

Main statements: `Settings.run_dataOf`, `Settings.isLoaded_load`.
-/

namespace RepoGraph

/-! ### The bytes of a file -/

/-- Whether bytes are what a file holds.  The image of a graph is no text from its first byte on. -/
def Content.Holds (bytes : List UInt8) : Content → Prop
  | .text s => s.toByteArray = bytes.toByteArray
  | .bytes bs => bs = bytes
  | .graph _ => bytes.head? = some 0x80

/-- A file is read by its bytes. -/
theorem Content.Holds.read_eq {content : Content} {bytes : List UInt8} (h : content.Holds bytes) :
    content.read = (Content.bytes bytes).read := by
  cases content with
  | text s =>
    rw [Content.read, Content.read, Text.Utf8.decode_eq_ok_iff.2 h]
    rfl
  | bytes bs =>
    cases h
    rfl
  | graph g =>
    obtain ⟨rest, rfl⟩ := List.head?_eq_some_iff.1 h
    have hlead : Text.Utf8.lead? 0x80 = none := rfl
    rw [Content.read, Content.read, Text.Utf8.decode, Text.Utf8.decodeFrom,
      if_neg (by decide), hlead]
    rfl

namespace Settings

open Build (run_bind run_bind_of_ok run_bind_of_error run_outcome run_takeFrom run_attempt)

variable {outside : Outside} {w : World} {path : String} {content : Content} {env : Environment}
  {given : Option String}

/-- The mapping that a file with a content holds. -/
def dataOfContent (content : Content) : Except Failure Yaml.Value :=
  content.read.mapError .encoding >>= fun text => (mappingOf text).mapError .yaml

theorem run_readContent (path : String) (outside : Outside) (w : World) :
    (Build.readContent path).run outside w =
      (match outside.refuses w.events (.disk (.read path)) with
        | none => (w.disk.read w.cwd path).mapError .disk
        | some f => .error f, { w with events := .disk (.read path) :: w.events }) := by
  unfold Build.readContent
  rw [run_bind, run_attempt]
  cases outside.refuses w.events (.disk (.read path)) with
  | none => exact run_takeFrom .disk (w.disk.read w.cwd path) outside _
  | some f => rfl

theorem run_readText (hread : w.disk.read w.cwd path = .ok content)
    (hopen : outside.refuses w.events (.disk (.read path)) = none) :
    (Build.readText path).run outside w =
      (content.read.mapError .encoding, { w with events := .disk (.read path) :: w.events }) := by
  unfold Build.readText
  rw [run_bind, run_readContent, hopen, hread]
  exact run_takeFrom .encoding content.read outside _

/-- What is loaded from a file that can be opened depends on its content alone. -/
theorem run_dataOf (hread : w.disk.read w.cwd path = .ok content)
    (hopen : outside.refuses w.events (.disk (.read path)) = none) :
    (dataOf path).run outside w =
      (dataOfContent content, { w with events := .disk (.read path) :: w.events }) := by
  unfold dataOf
  rw [run_bind, run_outcome, run_readText hread hopen]
  unfold dataOfContent
  cases content.read with
  | error fault => rfl
  | ok text => exact run_takeFrom .yaml (mappingOf text) outside _

/-- A file that cannot be opened sets nothing. -/
theorem run_dataOf_of_unopened {fault : DiskFault}
    (hopen : outside.refuses w.events (.disk (.read path)) = some (.disk fault) ∨
      outside.refuses w.events (.disk (.read path)) = none ∧
        w.disk.read w.cwd path = .error fault) :
    (dataOf path).run outside w =
      (.ok (.map []), { w with events := .disk (.read path) :: w.events }) := by
  have hcontent : (Build.readContent path).run outside w =
      (.error (.disk fault), { w with events := .disk (.read path) :: w.events }) := by
    rw [run_readContent]
    rcases hopen with hrefused | ⟨hopen, hread⟩
    · rw [hrefused]
    · rw [hopen, hread]
      rfl
  unfold dataOf
  rw [run_bind, run_outcome, Build.readText, run_bind_of_error hcontent]
  rfl

theorem run_load (hfile : file? env given w.disk w.cwd = some path)
    (hread : w.disk.read w.cwd path = .ok content)
    (hopen : outside.refuses w.events (.disk (.read path)) = none) :
    (load env given).run outside w =
      (dataOfContent content >>= fun data => (read env data).mapError .record,
        { w with events := .disk (.read path) :: w.events }) := by
  have hask : (Build.askDisk (file? env given)).run outside w = (.ok (some path), w) := by
    rw [← hfile]
    rfl
  unfold load
  rw [run_bind_of_ok hask]
  dsimp only
  rw [run_bind, run_dataOf hread hopen]
  cases dataOfContent content with
  | error f => rfl
  | ok data => exact run_takeFrom .record (read env data) outside _

/-! ### What a content holds -/

theorem dataOfContent_of_holds {bytes : List UInt8} (h : content.Holds bytes) :
    dataOfContent content = dataOfContent (.bytes bytes) := by
  rw [dataOfContent, h.read_eq, dataOfContent]

theorem mappingOf_eq_error_iff {text : String} {f : Yaml.Fault} :
    mappingOf text = .error f ↔ Yaml.read text = .error f ∧ f ≠ .malformed := by
  unfold mappingOf
  split
  · rename_i hread
    simp [hread]
  · rename_i hread
    simp [hread]
  · rename_i hread
    simp [hread, eq_comm]
  · rename_i g hne hread
    rw [hread, Except.error.injEq]
    exact ⟨fun h => ⟨h, h ▸ hne⟩, And.left⟩

section

variable {bytes : List UInt8} {s : String}

theorem dataOfContent_of_read {text : String} (h : content.read = .ok text) :
    dataOfContent content = (mappingOf text).mapError .yaml := by
  rw [dataOfContent, h]
  rfl

theorem dataOfContent_of_text (hs : s.toByteArray = bytes.toByteArray) :
    dataOfContent (.bytes bytes) = (mappingOf (Text.unifyNewlines s)).mapError .yaml := by
  refine dataOfContent_of_read ?_
  rw [Content.read, Text.Utf8.decode_eq_ok_iff.2 hs]
  rfl

/-- Bytes that are no text are refused. -/
theorem exists_dataOfContent_of_not_valid (h : ¬ bytes.toByteArray.IsValidUTF8) :
    ∃ fault, dataOfContent (.bytes bytes) = .error (.encoding fault) := by
  rw [← Text.Utf8.exists_decode_iff] at h
  cases hdecode : Text.Utf8.decode bytes with
  | error fault =>
    refine ⟨fault, ?_⟩
    rw [dataOfContent, Content.read, hdecode]
    rfl
  | ok s => exact absurd ⟨s, hdecode⟩ h

/-- Bytes that are a text are refused for a fault of the text. -/
theorem exists_of_dataOfContent (hvalid : bytes.toByteArray.IsValidUTF8) {f : Failure}
    (h : dataOfContent (.bytes bytes) = .error f) :
    ∃ s : String, s.toByteArray = bytes.toByteArray ∧ ∃ y, f = .yaml y ∧
      Yaml.read (Text.unifyNewlines s) = .error y ∧ y ≠ .malformed := by
  refine ⟨⟨bytes.toByteArray, hvalid⟩, rfl, ?_⟩
  rw [dataOfContent_of_text (s := ⟨bytes.toByteArray, hvalid⟩) rfl] at h
  cases hmapping : mappingOf (Text.unifyNewlines ⟨bytes.toByteArray, hvalid⟩) with
  | error y =>
    rw [hmapping] at h
    exact ⟨y, (Except.error.inj h).symm, mappingOf_eq_error_iff.1 hmapping⟩
  | ok v =>
    rw [hmapping] at h
    cases h

end

/-- How many characters of a file are asked for at a time.  A longer file may be given up for what
is in its first characters, before it is seen that the rest is no text. -/
def blockSize : Nat := 4096

/-- How a settings file is loaded that holds some bytes: the mapping it sets, and the settings. -/
structure IsLoaded (env : Environment) (bytes : List UInt8) (data : Except Failure Yaml.Value)
    (settings : Except Failure Settings) : Prop where
  mapping : ∀ s : String, s.toByteArray = bytes.toByteArray → ∀ entries,
    Yaml.read (Text.unifyNewlines s) = .ok (.map entries) → data = .ok (.map entries)
  /-- Another value sets nothing. -/
  other : ∀ s : String, s.toByteArray = bytes.toByteArray → ∀ v,
    Yaml.read (Text.unifyNewlines s) = .ok v → (∀ entries, v ≠ .map entries) →
    data = .ok (.map [])
  /-- Nor does what breaks the rules of the format. -/
  malformed : ∀ s : String, s.toByteArray = bytes.toByteArray →
    Yaml.read (Text.unifyNewlines s) = .error .malformed → data = .ok (.map [])
  /-- Loading fails on a text with another fault. -/
  unread : ∀ s : String, s.toByteArray = bytes.toByteArray → ∀ y,
    Yaml.read (Text.unifyNewlines s) = .error y → y ≠ .malformed → data = .error (.yaml y)
  /-- It fails on bytes that are no text. -/
  undecodable : ¬ bytes.toByteArray.IsValidUTF8 → bytes.length ≤ blockSize →
    ∃ fault, data = .error (.encoding fault)
  /-- It fails for nothing else. -/
  reason : ∀ f, data = .error f →
    (¬ bytes.toByteArray.IsValidUTF8 ∧ ∃ fault, f = .encoding fault) ∨
      ∃ s : String, s.toByteArray = bytes.toByteArray ∧
        ∃ y, f = .yaml y ∧ y ≠ .malformed ∧ Yaml.Refuses (Text.unifyNewlines s) y
  settings_eq : settings = data >>= fun v => (read env v).mapError .record

/-- Loading fails for bytes that are no text and for values that do not exist, and for nothing
else. -/
theorem isLoaded_load {bytes : List UInt8} (hfile : file? env given w.disk w.cwd = some path)
    (hread : w.disk.read w.cwd path = .ok content) (hbytes : content.Holds bytes)
    (hopen : outside.refuses w.events (.disk (.read path)) = none) :
    IsLoaded env bytes ((dataOf path).run outside w).1 ((load env given).run outside w).1 := by
  rw [run_dataOf hread hopen, run_load hfile hread hopen, dataOfContent_of_holds hbytes]
  refine ⟨fun s hs entries hyaml => ?_, fun s hs v hyaml hv => ?_, fun s hs hyaml => ?_,
    fun s hs y hyaml hne => ?_, fun hvalid _ => exists_dataOfContent_of_not_valid hvalid,
    fun f hf => ?_, rfl⟩
  all_goals dsimp only at *
  · rw [dataOfContent_of_text hs, mappingOf, hyaml]
    rfl
  · rw [dataOfContent_of_text hs, mappingOf, hyaml]
    cases v with
    | map entries => exact absurd rfl (hv entries)
    | _ => rfl
  · rw [dataOfContent_of_text hs, mappingOf, hyaml]
    rfl
  · rw [dataOfContent_of_text hs, mappingOf_eq_error_iff.2 ⟨hyaml, hne⟩]
    rfl
  · -- a text has only the faults that its nodes account for
    by_cases hvalid : bytes.toByteArray.IsValidUTF8
    · obtain ⟨s, hs, y, hyaml, hy, hne⟩ := exists_of_dataOfContent hvalid hf
      exact .inr ⟨s, hs, y, hyaml, hne, (Yaml.refuses_of_read hy).resolve_left hne⟩
    · obtain ⟨fault, hfault⟩ := exists_dataOfContent_of_not_valid hvalid
      exact .inl ⟨hvalid, fault, Except.error.inj (hf.symm.trans hfault)⟩

/-- A disk whose only file is a settings file. -/
def fileDisk (content : Content) : Disk where
  entries := [([".kg-builder.yaml"], .file content)]
  nodup_places := List.nodup_singleton _
  isTree := by simp [Disk.IsInside]

/-- A world with that disk. -/
def fileWorld (content : Content) : World := .ofDisk (fileDisk content) []

theorem locate_fileDisk (content : Content) :
    (fileDisk content).locate [] ".kg-builder.yaml" = .ok [".kg-builder.yaml"] := by
  have hparts : Path.parts ".kg-builder.yaml" = [".kg-builder.yaml"] := by decide +kernel
  have hrelative : ".kg-builder.yaml".startsWith "/" = false := by decide +kernel
  rw [Disk.locate, hparts, hrelative]
  rfl

theorem read_fileWorld (content : Content) :
    (fileWorld content).disk.read (fileWorld content).cwd ".kg-builder.yaml" = .ok content := by
  change (fileDisk content).read [] ".kg-builder.yaml" = .ok content
  rw [Disk.read, Disk.resolve, locate_fileDisk]
  rfl

theorem file?_fileWorld (content : Content) :
    file? [] none (fileWorld content).disk (fileWorld content).cwd = some ".kg-builder.yaml" := by
  have hfile : (fileDisk content).isFile [] ".kg-builder.yaml" = true := by
    rw [Disk.isFile, Disk.entry?, locate_fileDisk]
    rfl
  exact List.find?_cons_of_pos hfile

/-- The bytes of a text. -/
def bytesOf (s : String) : List UInt8 := s.toByteArray.data.toList

theorem holds_bytesOf (s : String) : (Content.text s).Holds (bytesOf s) :=
  ByteArray.ext (by rw [List.data_toByteArray, bytesOf, Array.toArray_toList])

/-- A file with one setting. -/
def levelText : String := "log_level: debug\n"

theorem isLoaded_load_levelText :
    file? [] none (fileWorld (.text levelText)).disk (fileWorld (.text levelText)).cwd =
        some ".kg-builder.yaml" ∧
      (fileWorld (.text levelText)).disk.read (fileWorld (.text levelText)).cwd ".kg-builder.yaml" =
        .ok (.text levelText) ∧
      (Content.text levelText).Holds (bytesOf levelText) ∧
      Populating.quiet.refuses [] (.disk (.read ".kg-builder.yaml")) = none ∧
      IsLoaded [] (bytesOf levelText)
        ((dataOf ".kg-builder.yaml").run Populating.quiet (fileWorld (.text levelText))).1
        ((load [] none).run Populating.quiet (fileWorld (.text levelText))).1 :=
  ⟨file?_fileWorld _, read_fileWorld _, holds_bytesOf _, rfl,
    isLoaded_load (file?_fileWorld _) (read_fileWorld _) (holds_bytesOf _) rfl⟩

/-- A file with a date that does not exist. -/
def datedText : String := "a: 2024-13-45\n"

theorem read_datedText : Yaml.read datedText = .error (.calendar .month) := by
  have hread : (match Yaml.read datedText with
    | .error f => some f
    | .ok _ => none) = some (.calendar .month) := by decide +kernel
  split at hread
  · rename_i hyaml
    rw [hyaml, Option.some.inj hread]
  · cases hread

theorem dataOfContent_datedText :
    dataOfContent (.text datedText) = .error (.yaml (.calendar .month)) := by
  have hlines : Text.unifyNewlines datedText = datedText :=
    Text.unifyNewlines_of_noReturn (by decide +kernel)
  have hread : (Content.text datedText).read = .ok datedText := congrArg Except.ok hlines
  have hmapping : mappingOf datedText = .error (.calendar .month) :=
    mappingOf_eq_error_iff.2 ⟨read_datedText, nofun⟩
  rw [dataOfContent_of_read hread, hmapping]
  rfl

theorem dataOfContent_byte :
    dataOfContent (.bytes [0xFF]) = .error (.encoding ⟨0xFF, 0, 1, .invalidStart⟩) := by
  have hlead : Text.Utf8.lead? 0xFF = none := rfl
  rw [dataOfContent, Content.read, Text.Utf8.decode, Text.Utf8.decodeFrom,
    if_neg (by decide), hlead]
  rfl

/-- Without a file there are settings, but there are none with a file that is no text, nor with one
that has a date that does not exist. -/
theorem load_of_unreadable :
    (∃ s, read [] (.map []) = .ok s) ∧
      ((dataOf ".kg-builder.yaml").run Populating.quiet (fileWorld (.bytes [0xFF]))).1 =
        .error (.encoding ⟨0xFF, 0, 1, .invalidStart⟩) ∧
      ((load [] none).run Populating.quiet (fileWorld (.bytes [0xFF]))).1 =
        .error (.encoding ⟨0xFF, 0, 1, .invalidStart⟩) ∧
      ((dataOf ".kg-builder.yaml").run Populating.quiet (fileWorld (.text datedText))).1 =
        .error (.yaml (.calendar .month)) ∧
      ((load [] none).run Populating.quiet (fileWorld (.text datedText))).1 =
        .error (.yaml (.calendar .month)) := by
  refine ⟨⟨_, rfl⟩, ?_, ?_, ?_, ?_⟩
  · rw [run_dataOf (read_fileWorld _) rfl, dataOfContent_byte]
  · rw [run_load (file?_fileWorld _) (read_fileWorld _) rfl, dataOfContent_byte]
    rfl
  · rw [run_dataOf (read_fileWorld _) rfl, dataOfContent_datedText]
  · rw [run_load (file?_fileWorld _) (read_fileWorld _) rfl, dataOfContent_datedText]
    rfl

end Settings

end RepoGraph
