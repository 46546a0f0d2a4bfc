import RepoGraph.Proofs.Record
import RepoGraph.Settings

/-!
# Where a setting comes from

`Settings.table` lists the settings that an environment variable can set: the variable, the place in
the settings file, how a value is taken, and the built-in value.  `Row.Resolves` is the one rule of
precedence: the variable if it is set, else what the file tells, else the built-in value.  What the
file tells of a setting is nothing where the key is missing or null, and where the section is no
mapping.

The rule holds of all settings but those of the chat model.  These are kept as they are given, and
`Row.Keeps` says how: an empty variable counts as one that is not set, and a null in the file counts
as a value.

Main statements: `Settings.exists_read_iff`, `Settings.Row.Keeps.resolves_iff`,
`Settings.resolvesTable_of_read`.
-/

namespace RepoGraph

/-- Whether a value is null. -/
def Yaml.Value.isNull : Yaml.Value → Bool
  | .scalar .null => true
  | _ => false

namespace Settings

/-! ### The table -/

/-- A row of the table of settings. -/
structure Row where
  /-- The environment variable. -/
  name : String
  /-- The section of the file, unless the key stands outside of all sections. -/
  place : Option String
  key : String
  /-- How a value of the environment or of the file is taken. -/
  cast : Yaml.Value → Except RecordFault Yaml.Value
  /-- The built-in value. -/
  default : Yaml.Value
  /-- The value in some settings. -/
  of : Settings → Yaml.Value

namespace Row

/-- A setting that is taken by a cast and then wrapped as a value. -/
def picked {α : Type} (name : String) (place : Option String) (key : String)
    (take : Yaml.Value → Except RecordFault α) (wrap : α → Yaml.Value) (default : α)
    (of : Settings → Yaml.Value) : Row where
  name
  place
  key
  cast v := (take v).map wrap
  default := wrap default
  of

/-- A setting that is a text in some form. -/
def ofText (name : String) (place : Option String) (key default : String) (form : String → String)
    (of : Settings → String) : Row :=
  picked name place key text (fun t => .scalar (.text (form t))) default
    fun s => .scalar (.text (of s))

/-- A setting that is an integer. -/
def ofInteger (name : String) (place : Option String) (key : String) (default : Int)
    (of : Settings → Int) : Row :=
  picked name place key integer (fun n => .scalar (.int n)) default fun s => .scalar (.int (of s))

/-- A setting that is a number in double precision. -/
def ofFloat (name : String) (place : Option String) (key : String) (default : Binary64)
    (of : Settings → Binary64) : Row :=
  picked name place key float (fun x => .scalar (.float x)) default fun s => .scalar (.float (of s))

/-- A setting of the chat model, which may be any value. -/
def ofChat (name key : String) (default : Yaml.Value) (of : Settings → Yaml.Value) : Row where
  name
  place := some "openai"
  key
  cast := .ok
  default
  of

section

variable (name : String) (place : Option String) (key : String) (s : Settings)

@[simp]
theorem of_ofText (default : String) (form : String → String) (of : Settings → String) :
    (ofText name place key default form of).of s = .scalar (.text (of s)) := rfl

@[simp]
theorem of_ofInteger (default : Int) (of : Settings → Int) :
    (ofInteger name place key default of).of s = .scalar (.int (of s)) := rfl

@[simp]
theorem of_ofFloat (default : Binary64) (of : Settings → Binary64) :
    (ofFloat name place key default of).of s = .scalar (.float (of s)) := rfl

end

end Row

/-- The settings that a variable can set. -/
def table : List Row :=
  [.ofText "REPO_PATH" none "repo_path" "/repo" id repoPath,
    .ofText "STAGING_PATH" none "staging_path" "/staging" id stagingPath,
    .ofText "REPO_URL" (some "repository") "url" "" id repoUrl,
    .ofText "REPO_BRANCH" (some "repository") "branch" "main" id branch,
    .ofText "GRAPH_BACKEND" none "graph_backend" "neo4j" Text.lower graphBackend,
    .ofText "NEO4J_URL" (some "neo4j") "url" "bolt://localhost:7687" id graphUrl,
    .ofText "NEO4J_USER" (some "neo4j") "user" "neo4j" id graphUser,
    .ofText "NEO4J_PASSWORD" (some "neo4j") "password" "password" id graphPassword,
    .ofText "QDRANT_URL" (some "qdrant") "url" "http://localhost:6333" id vectorUrl,
    .ofInteger "VECTOR_SIZE" (some "qdrant") "vector_size" 768 vectorSize,
    .ofText "EMBEDDING_PROVIDER" (some "embedding") "provider" "tei" Text.lower embeddingProvider,
    .ofText "EMBEDDING_URL" (some "embedding") "url" "http://localhost:80" id embeddingUrl,
    .ofText "EMBEDDING_MODEL" (some "embedding") "model" "text-embedding-3-small" id embeddingModel,
    .ofChat "OPENAI_API_KEY" "api_key" (.scalar (.text "")) chatKey,
    .ofChat "OPENAI_MODEL" "model" (.scalar (.text "gpt-5")) chatModel,
    .ofChat "OPENAI_BASE_URL" "base_url" (.scalar .null) chatUrl,
    .ofInteger "ENRICH_BATCH_SIZE" (some "enrich") "batch_size" 5 batchSize,
    .ofFloat "ENRICH_BATCH_DELAY" (some "enrich") "batch_delay" (Binary64.ofInt 1) batchDelay,
    .ofText "LOG_LEVEL" none "log_level" "INFO" Text.upper logLevel,
    .ofText "DEFAULT_PROJECT" none "default_project" "default" defaultOf defaultProject]

/-- The table has all settings but the list of projects, each under its variable. -/
theorem names_listing (s : Settings) : s.listing.names = table.map Row.name ++ ["PROJECTS"] := rfl

namespace Row

variable {r : Row} {env : Environment} {data data' value value' : Yaml.Value}

/-- The value that the file has in the place of a setting. -/
def given (r : Row) (data : Yaml.Value) : Option Yaml.Value :=
  (r.place.elim (some data) data.get?).bind (·.get? r.key)

/-- What the file tells of a setting. -/
def told (r : Row) (data : Yaml.Value) : Option Yaml.Value := (r.given data).filter (!·.isNull)

/-- Whether a setting has a value by the rule of precedence. -/
inductive Resolves (r : Row) (env : Environment) (data : Yaml.Value) : Yaml.Value → Prop
  | environment {text : String} {value : Yaml.Value} (hset : env.get? r.name = some text)
      (hcast : r.cast (.scalar (.text text)) = .ok value) : Resolves r env data value
  | file {v value : Yaml.Value} (hset : env.get? r.name = none) (htold : r.told data = some v)
      (hcast : r.cast v = .ok value) : Resolves r env data value
  | builtIn (hset : env.get? r.name = none) (htold : r.told data = none) :
      Resolves r env data r.default

/-- Whether a setting of the chat model has a value: the variable unless it is empty, else what is
in its place in the file, else the built-in value. -/
inductive Keeps (r : Row) (env : Environment) (data : Yaml.Value) : Yaml.Value → Prop
  | environment {text : String} (hset : env.get? r.name = some text) (hfilled : text ≠ "") :
      Keeps r env data (.scalar (.text text))
  | file {v : Yaml.Value} (hset : (env.get? r.name).getD "" = "") (hgiven : r.given data = some v) :
      Keeps r env data v
  | builtIn (hset : (env.get? r.name).getD "" = "") (hgiven : r.given data = none) :
      Keeps r env data r.default

/-- The rule gives a setting one value. -/
theorem Resolves.unique (h : r.Resolves env data value) (h' : r.Resolves env data value') :
    value = value' := by
  cases h with
  | environment hset hcast =>
    cases h' with
    | environment hset' hcast' =>
      cases hset.symm.trans hset'
      exact Except.ok.inj (hcast.symm.trans hcast')
    | file hset' => cases hset.symm.trans hset'
    | builtIn hset' => cases hset.symm.trans hset'
  | file hset htold hcast =>
    cases h' with
    | environment hset' => cases hset.symm.trans hset'
    | file _ htold' hcast' =>
      cases htold.symm.trans htold'
      exact Except.ok.inj (hcast.symm.trans hcast')
    | builtIn _ htold' => cases htold.symm.trans htold'
  | builtIn hset htold =>
    cases h' with
    | environment hset' => cases hset.symm.trans hset'
    | file _ htold' => cases htold.symm.trans htold'
    | builtIn => rfl

/-- The rule looks at nothing of the file but what it tells of the setting. -/
theorem Resolves.congr (h : r.Resolves env data value) (htold : r.told data' = r.told data) :
    r.Resolves env data' value := by
  cases h with
  | environment hset hcast => exact .environment hset hcast
  | file hset hdata hcast => exact .file hset (htold.trans hdata) hcast
  | builtIn hset hdata => exact .builtIn hset (htold.trans hdata)

/-! ### What is picked and what is kept -/

theorem told_eq_some {v : Yaml.Value} (hgiven : r.given data = some v)
    (hnull : v ≠ .scalar .null) : r.told data = some v := by
  have hfilled : v.isNull = false := by
    unfold Yaml.Value.isNull
    split
    · exact absurd rfl hnull
    · rfl
  rw [told, hgiven, Option.filter_some, hfilled]
  rfl

section

variable {α : Type} {name : String} {place : Option String} {key : String}
  {take : Yaml.Value → Except RecordFault α} {wrap : α → Yaml.Value} {default a : α}
  {of : Settings → Yaml.Value}

/-- What is picked follows the rule. -/
theorem resolves_of_pick
    (h : pick take (env.get? (picked name place key take wrap default of).name)
      ((picked name place key take wrap default of).given data) default = .ok a) :
    (picked name place key take wrap default of).Resolves env data (wrap a) := by
  have hwrap {v : Yaml.Value} (hv : take v = .ok a) : (take v).map wrap = .ok (wrap a) := by
    rw [hv]
    rfl
  unfold pick at h
  split at h
  · rename_i hset
    exact .environment hset (hwrap h)
  · rename_i hset hgiven
    cases h
    exact .builtIn hset (by rw [told, hgiven]; rfl)
  · rename_i v hnull hset hgiven
    exact .file hset (told_eq_some hgiven hnull) (hwrap h)
  · rename_i hset hgiven
    cases h
    exact .builtIn hset (by rw [told, hgiven]; rfl)

/-- What resolves can be picked. -/
theorem exists_pick_of_resolves
    (h : ∃ v, (picked name place key take wrap default of).Resolves env data v) :
    ∃ a, pick take (env.get? (picked name place key take wrap default of).name)
      ((picked name place key take wrap default of).given data) default = .ok a := by
  obtain ⟨value, h⟩ := h
  cases h with
  | environment hset hvalue =>
    obtain ⟨a, htake, -⟩ := exists_of_map hvalue
    rw [hset, pick_of_env]
    exact ⟨a, htake⟩
  | file hset htold hvalue =>
    obtain ⟨a, htake, -⟩ := exists_of_map hvalue
    obtain ⟨hgiven, hfilled⟩ := Option.filter_eq_some_iff.1 htold
    rw [hset, hgiven, pick_of_value]
    · exact ⟨a, htake⟩
    · rintro rfl
      cases hfilled
  | builtIn hset htold =>
    rw [hset]
    cases hgiven : (picked name place key take wrap default of).given data with
    | none => exact ⟨default, (pick_default take default).1⟩
    | some v =>
      have hnull : v = .scalar .null := by
        by_contra hne
        cases (told_eq_some hgiven hne).symm.trans htold
      rw [hnull]
      exact ⟨default, (pick_default take default).2⟩

end

/-- What is kept is kept as it is given. -/
theorem keeps_keep (r : Row) (env : Environment) (data : Yaml.Value) :
    r.Keeps env data (keep (env.get? r.name) (r.given data) r.default) := by
  have hunset (hset : (env.get? r.name).getD "" = "") :
      r.Keeps env data ((r.given data).getD r.default) := by
    cases hgiven : r.given data with
    | none => exact .builtIn hset hgiven
    | some v => exact .file hset hgiven
  rw [keep.eq_def]
  split
  · rename_i hset
    exact hunset (by rw [hset]; rfl)
  · rename_i hset
    exact hunset (by rw [hset]; rfl)
  · rename_i text hfilled hset
    exact .environment hset hfilled

theorem Keeps.eq_default (h : r.Keeps env data value) (hset : env.get? r.name = none)
    (hgiven : r.given data = none) : value = r.default := by
  cases h with
  | environment hset' => cases hset.symm.trans hset'
  | file _ hgiven' => cases hgiven.symm.trans hgiven'
  | builtIn => rfl

/-- A setting that is kept follows the rule but where its variable is empty and it is not, and where
the file has a null in its place and the built-in value is another. -/
theorem Keeps.resolves_iff (h : r.Keeps env data value) (hcast : ∀ v, r.cast v = .ok v) :
    r.Resolves env data value ↔
      (env.get? r.name = some "" → value = .scalar (.text "")) ∧
        (env.get? r.name = none → r.given data = some (.scalar .null) →
          r.default = .scalar .null) := by
  have hunset (h : (env.get? r.name).getD "" = "") :
      env.get? r.name = some "" ∨ env.get? r.name = none := by
    cases hget : env.get? r.name with
    | none => exact .inr rfl
    | some text =>
      rw [hget] at h
      exact .inl (congrArg some h)
  constructor
  · intro hresolves
    refine ⟨fun hset => hresolves.unique (.environment hset (hcast _)), fun hset hgiven => ?_⟩
    have hdefault : value = r.default :=
      hresolves.unique (.builtIn hset (by rw [told, hgiven]; rfl))
    cases h with
    | environment hset' => cases hset.symm.trans hset'
    | file _ hgiven' => exact hdefault.symm.trans (Option.some.inj (hgiven'.symm.trans hgiven))
    | builtIn _ hgiven' => cases hgiven.symm.trans hgiven'
  · rintro ⟨hempty, hnull⟩
    cases h with
    | environment hset => exact .environment hset (hcast _)
    | file hset hgiven =>
      -- the variable is empty, or it is not set and the file may have a null
      rcases hunset hset with hset | hset
      · rw [hempty hset]
        exact .environment hset (hcast _)
      · by_cases hv : value = .scalar .null
        · rw [hv] at hgiven
          rw [hv, ← hnull hset hgiven]
          exact .builtIn hset (by rw [told, hgiven]; rfl)
        · exact .file hset (told_eq_some hgiven hv) (hcast _)
    | builtIn hset hgiven =>
      rcases hunset hset with hset | hset
      · rw [hempty hset]
        exact .environment hset (hcast _)
      · exact .builtIn hset (by rw [told, hgiven]; rfl)

end Row

theorem get?_sectionOf (data : Yaml.Value) (name key : String) :
    (sectionOf data name).get? key = (data.get? name).bind (·.get? key) := by
  rw [sectionOf]
  split
  · rename_i entries h
    rw [h]
    rfl
  · rename_i h
    cases hget : data.get? name with
    | none => rfl
    | some v =>
      cases v with
      | map entries => exact absurd hget (h entries)
      | _ => rfl

variable {env : Environment} {data : Yaml.Value} {entries : List (Yaml.Scalar × Yaml.Value)}
  {s s' : Settings}

theorem chat_of_mem_table {r : Row} (hr : r ∈ table) (hplace : r.place = some "openai") :
    r = .ofChat "OPENAI_API_KEY" "api_key" (.scalar (.text "")) chatKey ∨
      r = .ofChat "OPENAI_MODEL" "model" (.scalar (.text "gpt-5")) chatModel ∨
      r = .ofChat "OPENAI_BASE_URL" "base_url" (.scalar .null) chatUrl := by
  simp only [table, List.mem_cons, List.not_mem_nil, or_false] at hr
  rcases hr with rfl | rfl | rfl | rfl | rfl | rfl | rfl | rfl | rfl | rfl | rfl | rfl | rfl | hr
  all_goals try exact absurd hplace (by decide)
  rcases hr with rfl | rfl | rfl | rfl | rfl | rfl | rfl
  · exact .inl rfl
  · exact .inr (.inl rfl)
  · exact .inr (.inr rfl)
  all_goals exact absurd hplace (by decide)

/-- The settings of the chat model are taken as they are. -/
theorem cast_of_mem_table {r : Row} (hr : r ∈ table) (hplace : r.place = some "openai")
    (v : Yaml.Value) : r.cast v = .ok v := by
  obtain rfl | rfl | rfl := chat_of_mem_table hr hplace
  all_goals rfl

/-- The settings of the chat model are kept. -/
theorem keeps_of_read (h : read env (.map entries) = .ok s) :
    ∀ r ∈ table, r.place = some "openai" → r.Keeps env (.map entries) (r.of s) := by
  rw [read] at h
  obtain ⟨top, htop, h⟩ := exists_of_bind h
  cases htop
  simp only [get?_sectionOf] at h
  iterate 18 obtain ⟨_, -, h⟩ := exists_of_bind h
  cases h
  intro r hr hplace
  obtain rfl | rfl | rfl := chat_of_mem_table hr hplace
  all_goals exact Row.keeps_keep _ _ _

/-- Every other setting is what its row resolves to. -/
theorem resolves_of_read (h : read env (.map entries) = .ok s) :
    ∀ r ∈ table, r.place ≠ some "openai" → r.Resolves env (.map entries) (r.of s) := by
  rw [read] at h
  obtain ⟨top, htop, h⟩ := exists_of_bind h
  cases htop
  simp only [get?_sectionOf] at h
  -- each step of reading picks one setting, in the order of the table
  obtain ⟨repoPath, hrepoPath, h⟩ := exists_of_bind h
  obtain ⟨stagingPath, hstagingPath, h⟩ := exists_of_bind h
  obtain ⟨repoUrl, hrepoUrl, h⟩ := exists_of_bind h
  obtain ⟨branch, hbranch, h⟩ := exists_of_bind h
  obtain ⟨graphBackend, hgraphBackend, h⟩ := exists_of_bind h
  obtain ⟨graphUrl, hgraphUrl, h⟩ := exists_of_bind h
  obtain ⟨graphUser, hgraphUser, h⟩ := exists_of_bind h
  obtain ⟨graphPassword, hgraphPassword, h⟩ := exists_of_bind h
  obtain ⟨vectorUrl, hvectorUrl, h⟩ := exists_of_bind h
  obtain ⟨vectorSize, hvectorSize, h⟩ := exists_of_bind h
  obtain ⟨provider, hprovider, h⟩ := exists_of_bind h
  obtain ⟨embeddingUrl, hembeddingUrl, h⟩ := exists_of_bind h
  obtain ⟨embeddingModel, hembeddingModel, h⟩ := exists_of_bind h
  obtain ⟨batchSize, hbatchSize, h⟩ := exists_of_bind h
  obtain ⟨batchDelay, hbatchDelay, h⟩ := exists_of_bind h
  obtain ⟨logLevel, hlogLevel, h⟩ := exists_of_bind h
  obtain ⟨defaultName, hdefaultName, h⟩ := exists_of_bind h
  obtain ⟨named, -, h⟩ := exists_of_bind h
  cases h
  have hchat {r : Row} (h : r.place = some "openai") {P : Prop}
      (hne : r.place ≠ some "openai") : P := absurd h hne
  simp only [table, List.forall_mem_cons, Row.of_ofText, Row.of_ofInteger, Row.of_ofFloat]
  exact ⟨fun _ => Row.resolves_of_pick hrepoPath, fun _ => Row.resolves_of_pick hstagingPath,
    fun _ => Row.resolves_of_pick hrepoUrl, fun _ => Row.resolves_of_pick hbranch,
    fun _ => Row.resolves_of_pick hgraphBackend, fun _ => Row.resolves_of_pick hgraphUrl,
    fun _ => Row.resolves_of_pick hgraphUser, fun _ => Row.resolves_of_pick hgraphPassword,
    fun _ => Row.resolves_of_pick hvectorUrl, fun _ => Row.resolves_of_pick hvectorSize,
    fun _ => Row.resolves_of_pick hprovider, fun _ => Row.resolves_of_pick hembeddingUrl,
    fun _ => Row.resolves_of_pick hembeddingModel, hchat rfl, hchat rfl, hchat rfl,
    fun _ => Row.resolves_of_pick hbatchSize, fun _ => Row.resolves_of_pick hbatchDelay,
    fun _ => Row.resolves_of_pick hlogLevel, fun _ => Row.resolves_of_pick hdefaultName,
    fun _ hr => absurd hr List.not_mem_nil⟩

theorem exists_bind {ε α β : Type} {first : Except ε α} {next : α → Except ε β} {a : α}
    (hfirst : first = .ok a) (h : ∃ b, next a = .ok b) : ∃ b, first >>= next = .ok b := by
  rw [hfirst]
  exact h

theorem exists_namedProjects_of_read (h : read env (.map entries) = .ok s) :
    ∃ named, namedProjects ((Yaml.Value.map entries).get? "projects") = .ok named := by
  rw [read] at h
  obtain ⟨top, htop, h⟩ := exists_of_bind h
  cases htop
  iterate 17 obtain ⟨_, -, h⟩ := exists_of_bind h
  obtain ⟨named, hnamed, -⟩ := exists_of_bind h
  exact ⟨named, hnamed⟩

/-- Settings can be read exactly if every setting has a value by the rule and the projects have
names. -/
theorem exists_read_iff : (∃ s, read env (.map entries) = .ok s) ↔
    (∀ r ∈ table, r.place ≠ some "openai" → ∃ v, r.Resolves env (.map entries) v) ∧
      ∃ named, namedProjects ((Yaml.Value.map entries).get? "projects") = .ok named := by
  constructor
  · rintro ⟨s, h⟩
    exact ⟨fun r hr hplace => ⟨_, resolves_of_read h r hr hplace⟩, exists_namedProjects_of_read h⟩
  · rintro ⟨h, named, hnamed⟩
    -- every row that the reader takes has a value, in the order in which it takes them
    simp only [table, List.forall_mem_cons] at h
    obtain ⟨hrepoPath, hstagingPath, hrepoUrl, hbranch, hgraphBackend, hgraphUrl, hgraphUser,
      hgraphPassword, hvectorUrl, hvectorSize, hprovider, hembeddingUrl, hembeddingModel, -, -, -,
      hbatchSize, hbatchDelay, hlogLevel, hdefaultName, -⟩ := h
    obtain ⟨repoPath, hrepoPath⟩ := Row.exists_pick_of_resolves (hrepoPath (by decide))
    obtain ⟨stagingPath, hstagingPath⟩ := Row.exists_pick_of_resolves (hstagingPath (by decide))
    obtain ⟨repoUrl, hrepoUrl⟩ := Row.exists_pick_of_resolves (hrepoUrl (by decide))
    obtain ⟨branch, hbranch⟩ := Row.exists_pick_of_resolves (hbranch (by decide))
    obtain ⟨graphBackend, hgraphBackend⟩ := Row.exists_pick_of_resolves (hgraphBackend (by decide))
    obtain ⟨graphUrl, hgraphUrl⟩ := Row.exists_pick_of_resolves (hgraphUrl (by decide))
    obtain ⟨graphUser, hgraphUser⟩ := Row.exists_pick_of_resolves (hgraphUser (by decide))
    obtain ⟨graphPassword, hgraphPassword⟩ :=
      Row.exists_pick_of_resolves (hgraphPassword (by decide))
    obtain ⟨vectorUrl, hvectorUrl⟩ := Row.exists_pick_of_resolves (hvectorUrl (by decide))
    obtain ⟨vectorSize, hvectorSize⟩ := Row.exists_pick_of_resolves (hvectorSize (by decide))
    obtain ⟨provider, hprovider⟩ := Row.exists_pick_of_resolves (hprovider (by decide))
    obtain ⟨embeddingUrl, hembeddingUrl⟩ := Row.exists_pick_of_resolves (hembeddingUrl (by decide))
    obtain ⟨embeddingModel, hembeddingModel⟩ :=
      Row.exists_pick_of_resolves (hembeddingModel (by decide))
    obtain ⟨batchSize, hbatchSize⟩ := Row.exists_pick_of_resolves (hbatchSize (by decide))
    obtain ⟨batchDelay, hbatchDelay⟩ := Row.exists_pick_of_resolves (hbatchDelay (by decide))
    obtain ⟨logLevel, hlogLevel⟩ := Row.exists_pick_of_resolves (hlogLevel (by decide))
    obtain ⟨defaultName, hdefaultName⟩ := Row.exists_pick_of_resolves (hdefaultName (by decide))
    rw [read]
    simp only [get?_sectionOf]
    exact exists_bind rfl <| exists_bind hrepoPath <| exists_bind hstagingPath <|
      exists_bind hrepoUrl <| exists_bind hbranch <| exists_bind hgraphBackend <|
      exists_bind hgraphUrl <| exists_bind hgraphUser <| exists_bind hgraphPassword <|
      exists_bind hvectorUrl <| exists_bind hvectorSize <| exists_bind hprovider <|
      exists_bind hembeddingUrl <| exists_bind hembeddingModel <| exists_bind hbatchSize <|
      exists_bind hbatchDelay <| exists_bind hlogLevel <| exists_bind hdefaultName <|
      exists_bind hnamed ⟨_, rfl⟩

theorem given_eq_none_of_section {r : Row} {name : String} (hplace : r.place = some name)
    (hsection : ∀ inner, data.get? name ≠ some (.map inner)) : r.given data = none := by
  rw [Row.given, hplace, Option.elim_some]
  cases hget : data.get? name with
  | none => rfl
  | some v =>
    cases v with
    | map inner => exact absurd hget (hsection inner)
    | _ => rfl

/-- Settings of which every one comes from its variable, from the file or is built in. -/
structure ResolvesTable (env : Environment) (entries : List (Yaml.Scalar × Yaml.Value))
    (s : Settings) : Prop where
  /-- The rule of precedence, but for the chat model. -/
  resolves : ∀ r ∈ table, r.place ≠ some "openai" → r.Resolves env (.map entries) (r.of s)
  /-- A null is as good as nothing, but for the chat model. -/
  null : ∀ r ∈ table, r.place ≠ some "openai" → env.get? r.name = none →
    r.given (.map entries) = some (.scalar .null) → r.of s = r.default
  /-- What is no mapping is as good as no section. -/
  noSection : ∀ r ∈ table, ∀ name, r.place = some name → env.get? r.name = none →
    (∀ inner, (Yaml.Value.map entries).get? name ≠ some (.map inner)) → r.of s = r.default
  /-- The settings of the chat model are kept as they are given. -/
  keeps : ∀ r ∈ table, r.place = some "openai" → r.Keeps env (.map entries) (r.of s)
  /-- When they follow the rule all the same. -/
  follows : ∀ r ∈ table, r.place = some "openai" → (r.Resolves env (.map entries) (r.of s) ↔
    (env.get? r.name = some "" → r.of s = .scalar (.text "")) ∧
      (env.get? r.name = none → r.given (.map entries) = some (.scalar .null) →
        r.default = .scalar .null))
  /-- Another file that tells the same can be read as well, to the same settings. -/
  told : ∀ entries', (∀ r ∈ table, r.place ≠ some "openai" →
      r.told (.map entries') = r.told (.map entries)) →
    (∃ named, namedProjects ((Yaml.Value.map entries').get? "projects") = .ok named) →
    ∃ s', read env (.map entries') = .ok s' ∧
      ∀ r ∈ table, r.place ≠ some "openai" → r.of s' = r.of s

/-- One rule for all settings but those of the chat model. -/
theorem resolvesTable_of_read (h : read env (.map entries) = .ok s) :
    ResolvesTable env entries s where
  resolves := resolves_of_read h
  null r hr hplace hset hgiven :=
    (resolves_of_read h r hr hplace).unique (.builtIn hset (by rw [Row.told, hgiven]; rfl))
  noSection r hr name hplace hset hsection := by
    have hgiven := given_eq_none_of_section hplace hsection
    by_cases hchat : r.place = some "openai"
    · exact (keeps_of_read h r hr hchat).eq_default hset hgiven
    · exact (resolves_of_read h r hr hchat).unique (.builtIn hset (by rw [Row.told, hgiven]; rfl))
  keeps := keeps_of_read h
  follows r hr hplace := (keeps_of_read h r hr hplace).resolves_iff (cast_of_mem_table hr hplace)
  told entries' htold hnamed := by
    have hresolves {r : Row} (hr : r ∈ table) (hplace : r.place ≠ some "openai") :
        r.Resolves env (.map entries') (r.of s) :=
      (resolves_of_read h r hr hplace).congr (htold r hr hplace)
    obtain ⟨s', hread⟩ := exists_read_iff.2 ⟨fun r hr hplace => ⟨_, hresolves hr hplace⟩, hnamed⟩
    exact ⟨s', hread, fun r hr hplace =>
      (resolves_of_read hread r hr hplace).unique (hresolves hr hplace)⟩

/-- Settings from a variable, from a file with a null and a section that is a text, and for the rest
built in. -/
theorem resolvesTable_of_read_mixed : ∃ s,
    read [("VECTOR_SIZE", "12")] (.map [(.text "neo4j", .scalar (.text "x")),
      (.text "log_level", .scalar .null),
      (.text "qdrant", .map [(.text "vector_size", .scalar (.int 7))])]) = .ok s ∧
    ResolvesTable [("VECTOR_SIZE", "12")] [(.text "neo4j", .scalar (.text "x")),
      (.text "log_level", .scalar .null),
      (.text "qdrant", .map [(.text "vector_size", .scalar (.int 7))])] s :=
  ⟨_, rfl, resolvesTable_of_read rfl⟩

/-- An empty variable does not set the key of the chat model, and a null in the file is taken for
its name: neither setting follows the rule. -/
theorem exists_not_resolves_of_chat : ∃ s,
    read [("OPENAI_API_KEY", "")] (.map [(.text "openai",
      .map [(.text "api_key", .scalar (.text "k")), (.text "model", .scalar .null)])]) = .ok s ∧
    (∃ r ∈ table, r.name = "OPENAI_API_KEY" ∧ r.of s = .scalar (.text "k") ∧
      ¬ r.Resolves [("OPENAI_API_KEY", "")] (.map [(.text "openai",
        .map [(.text "api_key", .scalar (.text "k")), (.text "model", .scalar .null)])]) (r.of s)) ∧
    ∃ r ∈ table, r.name = "OPENAI_MODEL" ∧ r.of s = .scalar .null ∧
      ¬ r.Resolves [("OPENAI_API_KEY", "")] (.map [(.text "openai",
        .map [(.text "api_key", .scalar (.text "k")), (.text "model", .scalar .null)])]) (r.of s) :=
          by
  refine ⟨_, rfl, ⟨_, List.mem_of_getElem? (i := 13) rfl, rfl, rfl, fun h => ?_⟩,
    ⟨_, List.mem_of_getElem? (i := 14) rfl, rfl, rfl, fun h => ?_⟩⟩
  · have hkey : Yaml.Value.scalar (.text "k") = .scalar (.text "") :=
      h.unique (.environment rfl rfl)
    simp at hkey
  · cases h.unique (.builtIn rfl rfl)

end Settings

end RepoGraph
