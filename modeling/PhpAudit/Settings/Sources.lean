import PhpAudit.Files.Tree
import PhpAudit.Json.Reader
import PhpAudit.Settings.Check
import PhpAudit.Settings.EnvFile
import PhpAudit.Text.Lowercase
import PhpAudit.Text.Malformed

/-!
# Where settings come from

Settings are given directly, by environment variables and by the file `.env`, in this order of
precedence. Names of variables do not depend on the case of their letters. Lists and dictionaries
come from variables as JSON; dictionaries from several sources are joined, all else from a source
of higher precedence replaces what others say.
-/

namespace PhpAudit.Settings

open Data Number

/-! ## Faults -/

/-- A source that is read variable by variable. -/
inductive Source where
  | environment
  | file
deriving DecidableEq, Repr

/-- The name of a source in messages. -/
def Source.text : Source → String
  | .environment => "EnvSettingsSource"
  | .file => "DotEnvSettingsSource"

/-- Why there are no settings. -/
inductive LoadFault where
  /-- The file of variables exists and cannot be read. -/
  | unreadableFile
  /-- The file of variables is not UTF-8. -/
  | malformedFile (part : Text.Utf8.Malformed)
  /-- A variable for a list or dictionary does not hold JSON. -/
  | notJson (field : String) (source : Source)
  /-- Values were found that cannot be settings. -/
  | invalid (complaints : List Complaint)
deriving Repr

def LoadFault.message? : LoadFault → Option String
  | .unreadableFile => none
  | .malformedFile part => some part.message
  | .notJson field source =>
    some ("error parsing value for field \"" ++ field ++ "\" from source \"" ++ source.text ++ "\"")
  | .invalid _ => none

/-! ## JSON in variables -/

/-- The words that stand for numbers that are not finite. -/
def numberWords : List (List Char) := ["NaN".toList, "Infinity".toList, "-Infinity".toList]

/-- The number that a token writes. An integer of too many digits is refused. -/
def valueOfToken? (token : List Char) : Option Value :=
  if token == "NaN".toList then some (.number .nan)
  else if token == "Infinity".toList then some (.number (.infinite false))
  else if token == "-Infinity".toList then some (.number (.infinite true))
  else
    let (negative, digits) := takeSign token
    if digits.all Char.isDigit then
      if digitLimit < digits.length then none
      else
        let n : Int := natOfDigits digits
        some (.int (if negative then -n else n))
    else (Binary64.ofChars? token).map .number

mutual

/-- The value of a document. Of fields with one name the last counts, in the place of the first. -/
def valueOf? : Json.Document → Option Value
  | .null => some .null
  | .bool b => some (.bool b)
  | .num token => valueOfToken? token
  | .str chars => some (.text (String.ofList chars))
  | .list items => (valuesOf? items).map .list
  | .object fields => (entriesOf? [] fields).map .dict

def valuesOf? : List Json.Document → Option (List Value)
  | [] => some []
  | item :: rest => do return (← valueOf? item) :: (← valuesOf? rest)

/-- Entries and the fields that are put into them. -/
def entriesOf? (entries : Entries) : List (List Char × Json.Document) → Option Entries
  | [] => some entries
  | (name, document) :: rest => do
    entriesOf? (entries.put (.text (String.ofList name)) (← valueOf? document)) rest

end

/-- The value that a text holds as JSON. -/
def valueOfJson? (text : String) : Option Value :=
  (Json.readWith? numberWords text.toList).bind valueOf?

/-! ## Variables -/

/-- The fields whose variables hold JSON. -/
def jsonFields : List String := ["environment_mapping", "exclude_patterns"]

/-- Variables under the small form of their names. -/
def smallNames (bindings : EnvFile.Bindings) : EnvFile.Bindings :=
  bindings.foldl (fun small entry => small.put (Text.lower entry.1) entry.2) []

/-- The value that a variable gives to a field. -/
def fieldValue (source : Source) (field text : String) : Except LoadFault Value :=
  if jsonFields.contains field then
    match valueOfJson? text with
    | some value => .ok value
    | none => .error (.notJson field source)
  else .ok (.text text)

/-- The fields that variables give. JSON may say that there is no value. -/
def fieldsFrom (source : Source) (bindings : EnvFile.Bindings) :
    List String → Except LoadFault Entries
  | [] => .ok []
  | field :: rest =>
    match bindings.get? field with
    | none => fieldsFrom source bindings rest
    | some text => do
      let value ← fieldValue source field text
      let entries ← fieldsFrom source bindings rest
      return if value.isNull then entries else (.text field, value) :: entries

/-- Whether a variable of the file belongs to a field. What starts with the name of a JSON field
does. -/
def belongsToField (name : String) : Bool :=
  fieldNames.contains name || jsonFields.any fun field => field.toList.isPrefixOf name.toList

/-- The variables of the file that belong to no field, which is an error if they say anything. -/
def unknownVariables (bindings : EnvFile.Bindings) : Entries :=
  bindings.filterMap fun (name, value) =>
    match value with
    | some text =>
      if text.isEmpty || belongsToField name then none else some (.text name, .text text)
    | none => none

def fileVariables (environment : List (String × String)) (files : Files.Tree) :
    Except LoadFault EnvFile.Bindings :=
  let path := Files.Path.ofString ".env"
  if !files.isFile path then .ok []
  else
    match files.read? path with
    | none => .error .unreadableFile
    | some content =>
      match Text.Utf8.malformed? content with
      | some part => .error (.malformedFile part)
      | none =>
        .ok (EnvFile.bindings environment (Text.withLineFeeds (Text.Utf8.decode content)))

/-! ## Precedence -/

mutual

/-- A value laid over another one: dictionaries are joined. -/
def laidOver (lower : Value) : Value → Value
  | .dict entries =>
    match lower with
    | .dict old => .dict (entriesLaidOver old entries)
    | _ => .dict entries
  | .null => .null
  | .bool b => .bool b
  | .int n => .int n
  | .number x => .number x
  | .text s => .text s
  | .list items => .list items

/-- Entries laid over others, which keep their places. -/
def entriesLaidOver (lower : Entries) : List (Key × Value) → Entries
  | [] => lower
  | (key, value) :: rest =>
    let value := match lower.under? key with
      | some old => laidOver old value
      | none => value
    entriesLaidOver (lower.put key value) rest

end

/-- The settings that are given directly, by the environment and by the file `.env`. -/
def load (environment : List (String × String)) (files : Files.Tree) (given : Entries) :
    Except LoadFault Settings := do
  let bindings := smallNames (← fileVariables environment files)
  let above ← fieldsFrom .environment
    (smallNames (environment.map fun (name, text) => (name, some text))) fieldNames
  let below ← fieldsFrom .file bindings fieldNames
  let entries := entriesLaidOver (below ++ unknownVariables bindings) (entriesLaidOver above given)
  match check entries with
  | .valid settings => .ok settings
  | .faulty complaints => .error (.invalid complaints)

/-- The settings that are given directly and by nothing else. -/
def ofEntries (given : Entries) : Except LoadFault Settings := load [] {} given

/-! ## Keeping settings -/

/-- Settings that are loaded when they are first asked for and then kept. -/
abbrev Kept : Type := Option Settings

/-- The settings that are kept, loaded if there are none. A failure is not kept. -/
def Kept.get (kept : Kept) (load : Except LoadFault Settings) :
    Except LoadFault (Settings × Kept) := do
  let settings ← match kept with
    | some settings => pure settings
    | none => load
  return (settings, some settings)

end PhpAudit.Settings
