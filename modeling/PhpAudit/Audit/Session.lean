import PhpAudit.Audit.Paths
import PhpAudit.Files.Text
import PhpAudit.Number.Binary64
import PhpAudit.Pattern.Wildcard
import PhpAudit.Settings.Basic

/-!
# Sessions

What an analyzer works with: the settings, the files, where among them it looks, and the time. The
clock moves on its own; a session only remembers what it showed when the last run started.
-/

namespace PhpAudit.Audit

open Data Files Number

/-- Where an analyzer of files looks. -/
structure Scope where
  /-- The directory that it looks through. Empty, it stands for the one of the settings. -/
  basePath : String
  /-- The files and directories in it that are looked at; if there are none, all of it is. -/
  paths : List String := []
  /-- Wildcards for the files that are passed over. -/
  excludePatterns : List String := []
deriving DecidableEq, Repr, Inhabited

/-- The scope that settings describe. -/
def Scope.ofSettings (settings : Settings) : Scope where
  basePath := withoutTrailingSlashes (settings.basePath.getD "")
  excludePatterns := settings.excludePatterns

/-- Everything that an analyzer works with. -/
structure Session where
  settings : Settings
  files : Tree := {}
  /-- Where the analyzer looks, if it is one of files. -/
  scope : Option Scope := none
  /-- The time now. -/
  clock : Binary64 := Binary64.zero false
  /-- The time at which the last run started, unless it was skipped. -/
  startTime : Option Binary64 := none
deriving Repr

namespace Session

/-! ## Time -/

/-- The session some time later. -/
def later (session : Session) (time : Binary64) : Session :=
  { session with clock := session.clock.add time }

/-- The session with a run that starts now. -/
def started (session : Session) : Session := { session with startTime := some session.clock }

/-- The session without a run. -/
def stopped (session : Session) : Session := { session with startTime := none }

/-- The time since the last run started, to four decimal places. -/
def executionTime (session : Session) : Binary64 :=
  match session.startTime with
  | some start => (session.clock.sub start).roundTo 4
  | none => Binary64.zero false

/-! ## Directories -/

/-- The directory that the settings name; without one, the working directory. -/
def settingsBase (settings : Settings) : String :=
  match settings.basePath with
  | some path => if path.isEmpty then workingDirectory else path
  | none => workingDirectory

/-- The directory that holds the files. -/
def basePath (session : Session) : String :=
  match session.scope with
  | some scope => if scope.basePath.isEmpty then settingsBase session.settings else scope.basePath
  | none => settingsBase session.settings

/-- The directory that holds the files, and segments behind it. -/
def buildPath (session : Session) (segments : List String) : String :=
  segments.foldl withSegment session.basePath

/-- A file as seen from the directory that holds the files. -/
def relativePath (session : Session) (file : String) : String :=
  relativeTo session.basePath file

/-! ## Snippets -/

/-- The lines of a file around one line, if issues show them. -/
def snippet? (session : Session) (file : String) (line radius : Option Int) : Option Snippet :=
  match line with
  | some line =>
    if session.settings.showsSnippets then
      Snippet.ofFile? session.files file line (radius.getD session.settings.snippetRadius)
    else none
  | none => none

end Session

/-! ## Files -/

namespace Scope

/-- The path that a configured one stands for: the directory itself as it is, all else from it. -/
def resolve (scope : Scope) (path : String) : Path :=
  if !scope.basePath.isEmpty && path != scope.basePath then
    Path.join (Path.ofString scope.basePath) (Path.ofString path)
  else Path.ofString path

/-- The configured paths; if there are none, the directory itself. -/
def roots (scope : Scope) : List String :=
  if scope.paths.isEmpty then [scope.basePath] else scope.paths

/-- The files at a path: itself, or all below it. -/
def filesAt (files : Tree) (path : Path) : List Path :=
  if files.isFile path then [path]
  else if files.isDirectory path then files.filesBelow path
  else []

/-- The files that the configured paths lead to, one path after the other. -/
def allFiles (scope : Scope) (files : Tree) : List Path :=
  scope.roots.flatMap fun path => filesAt files (scope.resolve path)

/-- Whether a path is passed over. -/
def excludes (scope : Scope) (path : Path) : Bool :=
  scope.excludePatterns.any fun wildcard => Wildcard.matchesName wildcard path.text

/-- The suffix of the files that are analysed. -/
def sourceSuffix : String := ".php"

/-- Whether a file is to be analysed. -/
def admits (scope : Scope) (path : Path) : Bool :=
  path.suffix == sourceSuffix && !scope.excludes path

/-- The paths of the files to be analysed. -/
def sources (scope : Scope) (files : Tree) : List String :=
  ((scope.allFiles files).filter scope.admits).map Path.text

end Scope

/-- The paths of the files to be analysed; an analyzer that is not one of files has none. -/
def Session.sources (session : Session) : List String :=
  match session.scope with
  | some scope => scope.sources session.files
  | none => []

end PhpAudit.Audit
