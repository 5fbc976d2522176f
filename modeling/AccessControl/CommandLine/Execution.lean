import AccessControl.CommandLine.Inquiry
import AccessControl.RoleReport
import AccessControl.Registry.Boot
import AccessControl.Decision
import AccessControl.Json.Printer

/-!
# Answering requests

The tool builds the registry of the application, but its decisions are recorded for itself, and
its denials carry no status for a client.  It writes JSON and ends with one of three codes: 0 if
the request was answered, and for a decision if it was allowed; 1 if it was denied; 2 if the
registry cannot be built or the role is unknown.

A request that does not even make sense to the engine, such as a blank name, breaks the tool off.
-/

namespace AccessControl

open CommandLine

/-- What breaks the tool off. -/
inductive Breakdown
  | fault (f : Fault)
  /-- A role cannot be reported. -/
  | report (flaw : RoleReport.Flaw)
  /-- A key of this kind cannot be written. -/
  | unwritable (kind : String)

namespace Breakdown

/-- The text of the error about a key. -/
def keyMessage (kind : String) : String :=
  "keys must be str, int, float, bool or None, not " ++ kind

/-- The error on one line: what it is called, and its text. -/
def line : Breakdown → String
  | fault f => f.kind ++ ": " ++ f.message
  | report (.issues found) => "ValidationError: " ++ "; ".intercalate (found.map Issue.line)
  | report (.misuse m) => m.kind ++ ": " ++ m.message
  | unwritable kind => "TypeError: " ++ keyMessage kind

end Breakdown

namespace Inquiry

/-- What a tool leaves behind, if nothing breaks it off. -/
abbrev Outcome := Except Breakdown Report

/-! ## 1. The registry -/

/-- The options of the registry on which decisions are tried out. -/
def trialOptions (options : List (Value × Value)) : List (Value × Value) :=
  Rulebook.override options
    [(.text "log", .bool true), (.text "logger", .callable (.sink .capture)),
      (.text "authn_exception", .callable (.refusal .unauthenticated)),
      (.text "authz_exception", .callable (.refusal .unauthorized))]

/-- The registry on which decisions are tried out. -/
def trialRegistry (options : List (Value × Value)) : Run Registry :=
  (Registry.fromOptions (.map (trialOptions options))).bind fun r =>
    let done := r.initResources Rulebook.userFeature
    ⟨done.2.events, done.2.outcome.map fun _ => done.1⟩

/-! ## 2. Answers -/

/-- Writes a value, and ends with an exit code. -/
def print (exit : Nat) (v : Value) : Outcome :=
  match Json.indented v with
  | .ok text => .ok ⟨exit, text ++ "\n", ""⟩
  | .error kind => .error (.unwritable kind)

/-- Complains about something, and ends. -/
def complain (what : String) : Outcome :=
  .ok ⟨2, "", "  [!] " ++ what ++ "\n"⟩

/-- The list of all roles. -/
def showRoles (r : Registry) : Outcome :=
  print 0 (.list (r.roles.map fun role =>
    .map [(.text "role", .text role.1),
      (.text "definition", .map (RoleReport.definitionEntries role.2)),
      (.text "default", .bool (r.defaultRole == some role.1))]))

/-- What a role is granted. -/
def showRole (r : Registry) (role : Value) : Outcome :=
  match r.roleInfo role with
  | .error f => .error (.fault f)
  | .ok none => complain ("Role '" ++ role.plain ++ "' is not defined.")
  | .ok (some info) =>
    match RoleReport.ofRoleInfo info with
    | .error flaw => .error (.report flaw)
    | .ok v => print 0 v

/-- A decision with its record. -/
def verdict (allowed : Bool) (record : Option Audit) : Value :=
  .map [(.text "allowed", .bool allowed),
    (.text "audit", (record.map fun a => .map a.toMap).getD .null)]

/-- The last record that the sink has received. -/
def lastRecord (events : List Event) : Option Audit :=
  (events.filterMap fun e => match e with
    | .audited a => some a
    | _ => none).getLast?

/-- Writes how a decision came out. -/
def conclude (decision : Run Answer) : Outcome :=
  match decision.outcome with
  | .ok _ => print 0 (verdict true (lastRecord decision.events))
  | .error f =>
    match f.audit? with
    | some a => print 1 (verdict false (some a))
    | none => .error (.fault f)

/-- The decision that a request asks for. -/
def decision? (i : Interpretation) (r : Registry) : Inquiry → Option (Run Answer)
  | check p resource action levels =>
    let filter := (levels.map Value.list).getD .null
    some (hasPermission i r p.context resource action filter)
  | can p resource action target =>
    some ((Query.instanceOf resource action target.user.toValue).decide i r p.context)
  | _ => none

/-- Answers a request from a registry. -/
def answer (i : Interpretation) (r : Registry) (q : Inquiry) : List Event × Outcome :=
  match q with
  | roles => ([], showRoles r)
  | resources => ([], print 0 (.list (r.resourceNames.map .text)))
  | roleInfo role => ([], showRole r role)
  | q =>
    match q.decision? i r with
    | some decision => (decision.events, conclude decision)
    | none => ([], .ok ⟨0, "", ""⟩)

/-- Answers a request; `options` are those of the application. -/
def execute (i : Interpretation) (options : List (Value × Value)) (q : Inquiry) :
    List Event × Outcome :=
  let built := trialRegistry options
  match built.outcome with
  | .error f => (built.events, if f.isConfiguration then complain f.message else .error (.fault f))
  | .ok r =>
    let answered := q.answer i r
    (built.events ++ answered.1, answered.2)

/-- What the tool does with a command line. -/
def run (i : Interpretation) (options : List (Value × Value)) (arguments : List String) :
    List Event × Outcome :=
  match read arguments with
  | .error report => ([], .ok report)
  | .ok q => q.execute i options

end Inquiry

end AccessControl
