import RepoGraph.Path

/-!
# Which files are read

The extension of a file, letter case aside, says what it is read as: code in one of four languages,
a markdown document, or a data asset.  Test files and everything below the directories that hold
dependencies, build results or caches are left out.
-/

namespace RepoGraph

/-- The languages that are understood. -/
inductive Language where
  | javascript
  | typescript
  | tsx
  | python
deriving DecidableEq, Repr

namespace Language

/-- All languages. -/
def all : List Language := [javascript, typescript, tsx, python]

/-- The name of a language. -/
def name : Language → String
  | javascript => "javascript"
  | typescript => "typescript"
  | tsx => "tsx"
  | python => "python"

/-- The language of a name. -/
def ofName? (s : String) : Option Language := all.find? fun l => l.name == s

/-- The language of an extension in lower case. -/
def ofExtension? (ext : String) : Option Language :=
  if [".js", ".mjs", ".cjs", ".jsx"].contains ext then some javascript
  else if ext == ".ts" then some typescript
  else if ext == ".tsx" then some tsx
  else if ext == ".py" then some python
  else none

/-- The language of a file. -/
def ofPath? (path : String) : Option Language := ofExtension? (Path.kindExtension path)

end Language

/-- What a file is read as. -/
inductive FileKind where
  | code
  | document
  | asset
deriving DecidableEq, Repr

namespace FileKind

/-- The extensions of assets. -/
def assetExtensions : List String := [".json", ".yml", ".yaml"]

/-- What a file is read as, if it is read. -/
def ofPath? (path : String) : Option FileKind :=
  let ext := Path.kindExtension path
  if (Language.ofExtension? ext).isSome then some code
  else if ext == ".md" then some document
  else if assetExtensions.contains ext then some asset
  else none

end FileKind

namespace Source

/-- Whether a file is read at all. -/
def isSupported (path : String) : Bool := (FileKind.ofPath? path).isSome

/-- The directories nothing is read below. -/
def skippedDirectories : List String :=
  ["node_modules", "dist", "build", "__pycache__", ".git", "vendor", ".venv", "venv", ".tox",
    ".mypy_cache", ".pytest_cache", "coverage", ".next", ".nuxt", "eggs", ".eggs", ".cache"]

/-- The names of test files. -/
def testPatterns : List String := ["*.test.*", "*.spec.*", "test_*.py", "*_test.py"]

/-- Whether a directory is left out. -/
def isSkipped (directory : String) : Bool := skippedDirectories.contains directory

/-- Whether a path lies below a directory that is left out, or names a test file. -/
def isExcluded (path : String) : Bool :=
  (Path.directories path).any isSkipped ||
    testPatterns.any fun pattern => Path.matchesGlob pattern (Path.fileName path)

/-- Whether a file takes part in a build. -/
def isIncluded (path : String) : Bool := isSupported path && !isExcluded path

end Source

end RepoGraph
