import RepoGraph.World

/-!
# Where the log goes

Log entries go to the console from a threshold on, and, where a directory is given, all of them go
to a file in it that is named for the time.
-/

namespace RepoGraph

/-- From what level on entries are let through. -/
inductive LogThreshold where
  | everything
  | debug
  | info
  | warning
  | error
  | critical
deriving DecidableEq, Repr

namespace LogThreshold

/-- The word for a threshold. -/
def word : LogThreshold → String
  | everything => "NOTSET"
  | debug => "DEBUG"
  | info => "INFO"
  | warning => "WARNING"
  | error => "ERROR"
  | critical => "CRITICAL"

/-- The words that stand for thresholds. -/
def words : List (String × LogThreshold) :=
  [("NOTSET", everything), ("DEBUG", debug), ("INFO", info), ("WARN", warning),
    ("WARNING", warning), ("ERROR", error), ("FATAL", critical), ("CRITICAL", critical)]

/-- The threshold of a name in any case; an unknown name stands for `info`. -/
def ofName (name : String) : LogThreshold :=
  ((words.find? fun w => w.1 == Text.upper name).map Prod.snd).getD info

end LogThreshold

/-- Where entries go. -/
inductive LogTarget where
  | console
  | file
deriving DecidableEq, Repr

/-- The word for a target. -/
def LogTarget.word : LogTarget → String
  | console => "console"
  | file => "file"

/-- Where entries go and from what level on. -/
structure LogHandler where
  target : LogTarget
  threshold : LogThreshold
deriving DecidableEq, Repr

namespace Logging

/-- From what level on entries are made at all. -/
def threshold : LogThreshold := .debug

/-- The handlers: the console from the named level on, and a file, if there is one, for all entries
that are made. -/
def handlers (level : String) (hasFile : Bool) : List LogHandler :=
  ⟨.console, .ofName level⟩ :: (if hasFile then [⟨.file, .debug⟩] else [])

open Binary64 (padded)

/-- The name of the log file of a time. -/
def fileName (t : Instant) : String :=
  "build_" ++ padded 4 t.year ++ padded 2 t.month ++ padded 2 t.day ++ "_" ++
    padded 2 t.hour ++ padded 2 t.minute ++ padded 2 t.second ++ ".log"

/-- Opens a log file in a directory; one that is there stays as it is. -/
def openFile (directory : String) : Build Unit := do
  Build.makeDirectories directory
  let path := Path.join directory (fileName (← Build.now))
  if !(← Build.askDisk fun d cwd => d.isFile cwd path) then
    Build.changeDisk (.create path) fun d cwd => d.write cwd path (.text "")

end Logging

end RepoGraph
