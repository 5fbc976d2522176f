import AccessControl.CommandLine.Grammar

/-!
# Usage and help

The usage of a command names its parts on one line if there is room.  Otherwise the switches are
spread over several lines and the words begin another one, all indented to the end of the name of
the program.  A switch that may be missing stands between brackets.

The help repeats the usage and describes the parts, in two columns: what a part looks like, and
what it is for.  The second column begins at the same place on all lines, but no later than at
column 24; a part that is too long for the first column has its description on the next line.
-/

namespace AccessControl.CommandLine

/-- The characters that fit on a line. -/
def lineWidth : Nat := 78

/-- The column where descriptions begin at the latest. -/
def latestColumn : Nat := 24

/-- A number of blanks. -/
def blanks (n : Nat) : String :=
  String.ofList (List.replicate n ' ')

/-! ## 1. Usage -/

/-- The pieces by which a switch is shown; a line may end between two of them. -/
def Switch.pieces (s : Switch) : List String :=
  let pieces := if s.takes.hasValue then [s.name, s.valueText] else [s.name]
  if s.required then pieces else ["[" ++ " ".intercalate pieces ++ "]"]

/-- Spreads pieces over lines.  `used` is the room that the line has used up, `line` its pieces
in reverse; every new line begins with `indent` blanks. -/
def fill (indent : Nat) (used : Nat) (line : List String) : List String → List (List String)
  | [] => if line.isEmpty then [] else [line.reverse]
  | piece :: rest =>
    if lineWidth < used + piece.length && !line.isEmpty then
      line.reverse :: fill indent (indent + piece.length + 1) [piece] rest
    else fill indent (used + piece.length + 1) (piece :: line) rest

/-- The usage of a program with these switches and these words. -/
def usageText (program : String) (switches words : List String) : String :=
  let start := "usage: "
  let whole := start ++ " ".intercalate (program :: switches ++ words)
  if whole.length ≤ lineWidth then whole ++ "\n"
  else
    let indent := start.length + program.length + 1
    let join (lines : List (List String)) : List String :=
      lines.map fun line => " ".intercalate line
    let first := join (fill indent start.length [] (program :: switches))
    let last := join (fill indent indent [] words)
    start ++ ("\n" ++ blanks indent).intercalate (first ++ last) ++ "\n"

/-- How the command is used. -/
def Grammar.usage (g : Grammar) : String :=
  usageText g.program (g.switches.flatMap Switch.pieces) (g.words.map Word.name)

/-- How the tool is used. -/
def Tool.usage (t : Tool) : String :=
  usageText t.program Switch.askHelp.pieces [t.choices, "..."]

/-! ## 2. Help -/

/-- A line of the help: its indent, what a part looks like, and what it is for. -/
structure HelpLine where
  indent : Nat
  look : String
  purpose : String

/-- What a switch looks like. -/
def Switch.look (s : Switch) : String :=
  ", ".intercalate (s.names.map fun name =>
    if s.takes.hasValue then name ++ " " ++ s.valueText else name)

/-- The line about a switch. -/
def Switch.helpLine (s : Switch) : HelpLine := ⟨2, s.look, s.help⟩

/-- The line about a word. -/
def Word.helpLine (w : Word) : HelpLine := ⟨2, w.name, w.help⟩

/-- The column where the descriptions of all lines begin. -/
def column (lines : List HelpLine) : Nat :=
  min latestColumn (lines.foldl (fun widest l => max widest (l.indent + l.look.length)) 0 + 2)

/-- The line in two columns. -/
def HelpLine.text (column : Nat) (l : HelpLine) : String :=
  let look := blanks l.indent ++ l.look
  if l.purpose.isEmpty then look ++ "\n"
  else if look.length + 2 ≤ column then
    look ++ blanks (column - look.length) ++ l.purpose ++ "\n"
  else look ++ "\n" ++ blanks column ++ l.purpose ++ "\n"

/-- The help with this usage, these words and these switches. -/
def helpText (usage description : String) (words switches : List HelpLine) : String :=
  let column := column (words ++ switches)
  let section_ (title : String) (lines : List HelpLine) : List String :=
    if lines.isEmpty then []
    else [title ++ ":\n" ++ String.join (lines.map (HelpLine.text column))]
  let described := if description.isEmpty then [] else [description ++ "\n"]
  "\n".intercalate
    (usage :: described ++ section_ "positional arguments" words ++ section_ "options" switches)

/-- The help about the command. -/
def Grammar.help (g : Grammar) : String :=
  helpText g.usage "" (g.words.map Word.helpLine) (g.switches.map Switch.helpLine)

/-- The help about the tool. -/
def Tool.help (t : Tool) : String :=
  let commands := t.entries.map fun e => HelpLine.mk 4 e.name e.help
  helpText t.usage t.description (⟨2, t.choices, ""⟩ :: commands) [Switch.askHelp.helpLine]

end AccessControl.CommandLine
