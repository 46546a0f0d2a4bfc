import RepoGraph.Extract.Findings
import RepoGraph.Json.Reader
import RepoGraph.Path
import RepoGraph.Yaml.Reader

/-!
# Assets

A JSON or YAML file becomes one entity that lists the file's first top-level keys.  A package
manifest also depends on the packages it names.
-/

namespace RepoGraph

/-- Why a file is not read as an asset. -/
inductive AssetFault where
  /-- The extension is not that of an asset. -/
  | unsupported (path : String)
  | json (text : String) (fault : Json.Fault)
  | yaml (fault : Yaml.Fault)
  /-- A key cannot be shown. -/
  | key (fault : NumeralFault)

namespace Extract

/-- How much of an asset's text goes into its entity, in characters. -/
def assetLimit : Nat := 1500

/-- How many top-level keys go into an asset's entity. -/
def topLevelLimit : Nat := 25

/-- The name of package manifests. -/
def manifestName : String := "package.json"

/-- The top-level keys of a YAML text, as text; none if it is no mapping. -/
def yamlKeys (text : String) : Except AssetFault (List String) := do
  match ← (Yaml.read text).mapError .yaml with
  | .map entries =>
    ((entries.map Prod.fst).take topLevelLimit).mapM fun k => k.display.mapError .key
  | _ => return []

/-- The fields under a name, if they are fields. -/
def section? (fields : Fields) (name : String) : Fields :=
  ((fields.get? name).bind Json.obj?).getD []

/-- The packages that a manifest depends on, with their versions. -/
def dependencies (fields : Fields) : Fields :=
  (section? fields "dependencies").update (section? fields "devDependencies")

/-- What a manifest says about its package. -/
def packageJson (fields : Fields) : Json :=
  .obj [("name", (fields.get? "name").getD .null), ("version", (fields.get? "version").getD .null),
    ("dependenciesCount", .int (dependencies fields).length)]

/-- The entity of an asset. -/
def assetEntity (text path format : String) (keys : List String) (more : Fields) : Entity :=
  ⟨Entity.assetId path, Entity.assetKind, Path.fileName path, path,
    some (Text.take assetLimit text),
    [("format", .str format), ("topLevelKeys", .arr (keys.map .str)), ("size", .int text.length)] ++
      more,
    none⟩

/-- What an asset yields. -/
def asset (text path : String) : Except AssetFault Findings := do
  let extension := Path.kindExtension path
  let format := String.ofList (extension.toList.dropWhile (· == '.'))
  if extension == ".json" then
    let v ← (Json.read text).mapError (AssetFault.json text)
    let fields := (v.obj?).getD []
    let keys := (fields.names).take topLevelLimit
    if Path.fileName path == manifestName && v.obj?.isSome then
      let packages := (dependencies fields).map fun (name, version) =>
        Relationship.create (Entity.assetId path) Relationship.dependsOnPackage
          ("package:" ++ name) [("version", version)]
      return ⟨[assetEntity text path format keys [("package", packageJson fields)]], packages⟩
    else return ⟨[assetEntity text path format keys []], []⟩
  else if extension == ".yml" || extension == ".yaml" then
    return ⟨[assetEntity text path format (← yamlKeys text) []], []⟩
  else throw (.unsupported path)

end Extract

end RepoGraph
