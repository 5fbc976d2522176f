/-!
# The grammar of a command line

A command is followed by *words*, which are known by their place, and by *switches*, which are
known by their name and may be followed by a value.  A grammar lists both, in the order in which
they are documented.  A tool has several commands, each with a grammar of its own.
-/

namespace AccessControl.CommandLine

/-- What a switch takes. -/
inductive Taking
  /-- Nothing: the switch asks for help. -/
  | help
  /-- Nothing: that the switch is there is what it says. -/
  | nothing
  | text
  /-- A text; every occurrence of the switch adds one. -/
  | texts
  /-- A whole number. -/
  | number
  /-- One of these texts. -/
  | choice (among : List String)
  deriving DecidableEq, Repr

namespace Taking

/-- The switch is followed by a value. -/
def hasValue : Taking → Bool
  | help | nothing => false
  | _ => true

end Taking

/-- A part of a command line that is known by its name. -/
structure Switch where
  /-- The names, each with its hyphens; the first is used in the usage line. -/
  names : List String
  takes : Taking
  /-- What stands for the value in the usage line. -/
  placeholder : String := ""
  required : Bool := false
  help : String := ""
  deriving DecidableEq, Repr

/-- A part of a command line that is known by its place. -/
structure Word where
  name : String
  help : String := ""
  deriving DecidableEq, Repr

/-- A part of a command line. -/
inductive Part
  | switch (s : Switch)
  | word (w : Word)
  deriving DecidableEq, Repr

namespace Switch

/-- All names in one. -/
def title (s : Switch) : String :=
  "/".intercalate s.names

/-- The first name. -/
def name (s : Switch) : String :=
  s.names.headD ""

/-- The name by which the value is found. -/
def key (s : Switch) : String :=
  s.names.getLastD ""

/-- What stands for the value: the placeholder, or the choices between braces. -/
def valueText (s : Switch) : String :=
  match s.takes with
  | .choice among => "\x7b" ++ ",".intercalate among ++ "\x7d"
  | _ => s.placeholder

/-- The switch by which one asks for help. -/
def askHelp : Switch where
  names := ["-h", "--help"]
  takes := .help
  help := "show this help message and exit"

end Switch

namespace Part

/-- The part must be there. -/
def required : Part → Bool
  | switch s => s.required
  | word _ => true

/-- What the part is called in an error. -/
def title : Part → String
  | switch s => s.title
  | word w => w.name

/-- The name by which its value is found. -/
def key : Part → String
  | switch s => s.key
  | word w => w.name

end Part

/-- What may follow the name of a program or of a command. -/
structure Grammar where
  /-- The program, with the command. -/
  program : String
  parts : List Part
  deriving DecidableEq, Repr

namespace Grammar

/-- The parts that are known by their name. -/
def switches (g : Grammar) : List Switch :=
  g.parts.filterMap fun p => match p with
    | .switch s => some s
    | .word _ => none

/-- The parts that are known by their place. -/
def words (g : Grammar) : List Word :=
  g.parts.filterMap fun p => match p with
    | .switch _ => none
    | .word w => some w

end Grammar

/-- A command of a tool. -/
structure Entry where
  name : String
  help : String
  parts : List Part
  deriving DecidableEq, Repr

/-- A program with commands. -/
structure Tool where
  program : String
  description : String
  entries : List Entry
  deriving DecidableEq, Repr

namespace Tool

/-- What may follow a command of the tool; every command knows the switch for help. -/
def grammar (t : Tool) (e : Entry) : Grammar where
  program := t.program ++ " " ++ e.name
  parts := .switch .askHelp :: e.parts

/-- The names of the commands. -/
def names (t : Tool) : List String :=
  t.entries.map Entry.name

/-- The names of the commands between braces. -/
def choices (t : Tool) : String :=
  "\x7b" ++ ",".intercalate t.names ++ "\x7d"

end Tool

end AccessControl.CommandLine
