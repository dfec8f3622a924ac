import PhpAudit.Data.Reading

/-!
# Settings

What can be set for an audit: which environment it runs in, what issues show of the code, and where
the files are.
-/

namespace PhpAudit

open Data

/-- The settings of an audit. -/
structure Settings where
  /-- The environment, under the name that the deployment uses. -/
  environment : String := "production"
  /-- The standard names of environments that the deployment names otherwise. -/
  environmentNames : List (String × String) := []
  /-- Whether issues show the code around them. -/
  showsSnippets : Bool := true
  /-- How many lines a snippet shows on either side. -/
  snippetRadius : Int := 8
  /-- The directory that holds the files. -/
  basePath : Option String := none
  /-- Wildcards for the files that are passed over. -/
  excludePatterns : List String := []
deriving DecidableEq, Repr, Inhabited

namespace Settings

/-- The standard name of the environment. It is looked up once, exactly as it is written. -/
def resolvedEnvironment (settings : Settings) : String :=
  match settings.environmentNames.find? fun entry => entry.1 == settings.environment with
  | some entry => entry.2
  | none => settings.environment

def namesValue (names : List (String × String)) : Value :=
  .record (names.map fun (name, standard) => (name, .text standard))

/-- Settings as a record, with the environment that they resolve to. -/
def toValue (settings : Settings) : Value :=
  .record [
    ("app_env", .text settings.environment),
    ("base_path", .ofText? settings.basePath),
    ("environment_mapping", namesValue settings.environmentNames),
    ("exclude_patterns", .list (settings.excludePatterns.map Value.text)),
    ("show_code_snippets", .bool settings.showsSnippets),
    ("snippet_context_lines", .int settings.snippetRadius),
    ("resolved_environment", .text settings.resolvedEnvironment)]

def textsOf : Value → Except Fault (List String)
  | .list items => items.mapM fun item =>
    match item with
    | .text s => .ok s
    | _ => .error .wrongShape
  | _ => .error .wrongShape

/-- The texts of a dictionary from texts to texts. -/
def namesOf : Value → Except Fault (List (String × String))
  | .dict entries => entries.mapM fun entry =>
    match entry with
    | (.text name, .text standard) => .ok (name, standard)
    | _ => .error .wrongShape
  | _ => .error .wrongShape

/-- Settings with one field changed. What is assigned is not checked against any bound. -/
def assign (settings : Settings) (field : String) (value : Value) : Except Fault Settings :=
  match field, value with
  | "app_env", .text s => .ok { settings with environment := s }
  | "environment_mapping", value => do
    return { settings with environmentNames := ← namesOf value }
  | "show_code_snippets", value => .ok { settings with showsSnippets := value.isPresent }
  | "snippet_context_lines", .int n => .ok { settings with snippetRadius := n }
  | "base_path", .text s => .ok { settings with basePath := some s }
  | "base_path", .null => .ok { settings with basePath := none }
  | "exclude_patterns", value => do
    return { settings with excludePatterns := ← textsOf value }
  | _, _ => .error .wrongShape

end Settings

end PhpAudit
