import AccessControl.Settings.Dotenv
import AccessControl.Options.Field
import AccessControl.Json.Reader
import AccessControl.Run
import AccessControl.Text.Case

/-!
# Settings

Every setting has a default.  A value is taken from the first source that has one: the arguments
of the caller, the environment, the settings file.  The name of a setting is compared without
regard to case.  From the environment and from the settings file a list is read as JSON; the
JSON value `null` counts as no value.

Three rules are checked once every setting has its value: the level of the log has to be a known
one, the identity header must not be empty, and debugging at the usual level of the log is
pointed out in the log.
-/

namespace AccessControl

/-- The settings of the server. -/
structure Settings where
  debug : Bool
  logLevel : String
  /-- Whether decisions are recorded. -/
  authzLogging : Bool
  /-- The header in which the authenticated user id is forwarded. -/
  identityHeader : String
  /-- The seed of the directory; empty if there is none. -/
  usersFile : String
  allowedHosts : List String
  corsOrigins : List String
  deriving DecidableEq, Repr

/-- Why there are no settings. -/
inductive SettingsFault
  /-- A list in a source is not JSON; with the short name of the error behind it. -/
  | unreadable (field source cause : String)
  /-- Values do not have the right shape. -/
  | issues (found : List Issue)
  deriving DecidableEq, Repr

namespace SettingsFault

/-- The text of an error about a source. -/
def message (field source : String) : String :=
  "error parsing value for field \"" ++ field ++ "\" from source \"" ++ source ++ "\""

/-- The error on one line: what it is called, and its text. -/
def line : SettingsFault → String
  | unreadable field source _ => "SettingsError: " ++ message field source
  | issues found => "ValidationError: " ++ "; ".intercalate (found.map Issue.line)

end SettingsFault

namespace Settings

/-- The settings when no source has a value. -/
def default : Settings where
  debug := false
  logLevel := "INFO"
  authzLogging := true
  identityHeader := "X-Authenticated-User"
  usersFile := ""
  allowedHosts := ["localhost", "127.0.0.1", "*.localhost", "testserver"]
  corsOrigins := ["http://localhost", "http://localhost:3000"]

/-- The names of the settings, in their order. -/
def fieldNames : List String :=
  ["debug", "log_level", "authz_logging", "identity_header", "users_file", "allowed_hosts",
    "cors_origins"]

/-- The settings that are lists. -/
def listFields : List String :=
  ["allowed_hosts", "cors_origins"]

/-! ## 1. Sources -/

/-- The last value under a name, without regard to case. -/
def lookupSmall (field : String) (entries : List (String × α)) : Option α :=
  (entries.reverse.find? fun e => Text.small e.1 == field).map Prod.snd

/-- The value of a setting in a source of texts. -/
def sourceValue (source field : String) (entries : List (String × Option String)) :
    Except SettingsFault (Option Value) :=
  match (lookupSmall field entries).join with
  | none => .ok none
  | some s =>
    if listFields.contains field then
      match Json.read s with
      | .ok .null => .ok none
      | .ok v => .ok (some v)
      | .error flaw =>
        let cause := match flaw.complaint with
          | .tooManyDigits _ => "ValueError"
          | _ => "JSONDecodeError"
        .error (.unreadable field source cause)
    else .ok (some (.text s))

/-- The values of all settings in a source of texts. -/
def sourceValues (source : String) (entries : List (String × Option String)) :
    Except SettingsFault (List (String × Option Value)) :=
  fieldNames.mapM fun field => do
    return (field, ← sourceValue source field entries)

/-! ## 2. Values -/

/-- The words for yes and for no. -/
def boolWord? (s : String) : Option Bool :=
  let word := Text.small s
  if ["1", "on", "t", "true", "y", "yes"].contains word then some true
  else if ["0", "off", "f", "false", "n", "no"].contains word then some false
  else none

/-- Reads a truth value: given as such, as a word, or as one or zero.  A number that does not fit
64 bits is not taken for an attempt at one. -/
def readBool (place : List Place) (v : Value) : Checked Bool :=
  let number (n : Int) : Checked Bool :=
    if n = 1 then .ok true
    else if n = 0 then .ok false
    else if n.natAbs ≤ Nat.pow 2 63 then Checked.issue place .unreadableBool
    else Checked.issue place .notBool
  match v with
  | .bool b => .ok b
  | .int n => number n
  | .float x =>
    match FloatValue.ofFloat x with
    | .finite b =>
      if b.compareInt b.truncate == .eq then number b.truncate
      else Checked.issue place .notBool
    | _ => Checked.issue place .notBool
  | v =>
    match v.text? with
    | some s =>
      match boolWord? s with
      | some b => .ok b
      | none => Checked.issue place .unreadableBool
    | none => Checked.issue place .notBool

/-- Reads a list of texts. -/
def readTexts (field : String) (v : Value) : Checked (List String) :=
  match v with
  | .list items => Checked.each (fun n => Field.text [.key field, .index n]) 0 items
  | _ => Checked.issue [.key field] .notList

/-- Reads a setting, or takes the default. -/
def readField (values : String → Option Value) (field : String)
    (read : List Place → Value → Checked α) (default : α) : Checked α :=
  match values field with
  | some v => read [.key field] v
  | none => .ok default

/-- Reads all settings. -/
def readAll (values : String → Option Value) : Checked Settings :=
  let d := default
  let texts (field : String) (fallback : List String) : Checked (List String) :=
    readField values field (fun _ v => readTexts field v) fallback
  let settings := (readField values "debug" readBool d.debug).map Settings.mk
  let settings := Checked.also settings (readField values "log_level" Field.text d.logLevel)
  let settings := Checked.also settings (readField values "authz_logging" readBool d.authzLogging)
  let settings := Checked.also settings
    (readField values "identity_header" Field.text d.identityHeader)
  let settings := Checked.also settings (readField values "users_file" Field.text d.usersFile)
  let settings := Checked.also settings (texts "allowed_hosts" d.allowedHosts)
  Checked.also settings (texts "cors_origins" d.corsOrigins)

/-! ## 3. Rules -/

/-- The levels of the log. -/
def logLevels : List String :=
  ["DEBUG", "INFO", "WARNING", "ERROR", "CRITICAL"]

/-- The settings with the level of the log in capitals, if they obey the rules. -/
def check (s : Settings) : Checked Settings :=
  let level := Text.capitals s.logLevel
  if !logLevels.contains level then
    Checked.issue []
      (.refused ("LOG_LEVEL must be one of " ++ ", ".intercalate logLevels ++ "."))
  else if Text.blank s.identityHeader then
    Checked.issue [] (.refused "IDENTITY_HEADER must not be empty.")
  else .ok { s with logLevel := level }

/-- What is logged about settings that obey the rules. -/
def warnings (s : Settings) : List Event :=
  if s.debug && s.logLevel == "INFO" then
    [.logged { logger := "gatekeeper.config", level := .warning,
               message := "DEBUG is enabled -- do not run this configuration in production." }]
  else []

/-- The settings from all sources, with what is logged about them. -/
def load (arguments : List (String × Value)) (env : List (String × String))
    (file : Option String) : List Event × Except SettingsFault Settings :=
  let envSource := env.map fun e => (e.1, some e.2)
  let fileSource := (file.map (Dotenv.read env)).getD []
  let values := do
    let fromEnv ← sourceValues "EnvSettingsSource" envSource
    let fromFile ← sourceValues "DotEnvSettingsSource" fileSource
    return fun (field : String) =>
      ((arguments.lookup field).or (lookupSmall field arguments)).or
        (((fromEnv.lookup field).join).or (fromFile.lookup field).join)
  match values with
  | .error e => ([], .error e)
  | .ok values =>
    match (readAll values).bind check with
    | .ok s => (warnings s, .ok s)
    | .error found => ([], .error (.issues found))

end Settings

end AccessControl
