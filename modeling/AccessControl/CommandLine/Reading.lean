import AccessControl.CommandLine.Usage
import AccessControl.Value.Basic
import AccessControl.Decimal.Read
import AccessControl.Json.Reader
import AccessControl.Text.Quoted

/-!
# Reading a command line

Every argument is first classified without regard to its neighbours.

* `--` is a separator: whatever follows it is a plain word.
* An argument without a hyphen in front, a single hyphen, a negative number, and an argument
  with a blank in it are plain words.
* A name of a switch stands for the switch, and so does the beginning of a long name that fits
  no other one.  After `=` the value may follow in the same argument.
* Any other argument with a hyphen in front is unknown.

Then the words of the grammar and the switches take their arguments from left to right.  What
nobody takes is left over.  The first error ends the reading, and so does the switch for help.
-/

namespace AccessControl.CommandLine

/-- Why a command line cannot be read. -/
inductive Complaint
  /-- The beginning of a name fits several. -/
  | ambiguous (argument : String) (names : List String)
  /-- The switch takes nothing. -/
  | unwantedValue (title value : String)
  /-- The switch lacks its value. -/
  | noValue (title : String)
  | notNumber (title value : String)
  | notChoice (title value : String) (choices : List String)
  /-- Parts that must be there are not. -/
  | missing (titles : List String)
  /-- Nobody takes these arguments. -/
  | leftOver (arguments : List String)
  deriving DecidableEq, Repr

namespace Complaint

/-- The complaint in words. -/
def message : Complaint → String
  | ambiguous argument names =>
    "ambiguous option: " ++ argument ++ " could match " ++ ", ".intercalate names
  | unwantedValue title value =>
    "argument " ++ title ++ ": ignored explicit argument " ++ Text.quoted value
  | noValue title => "argument " ++ title ++ ": expected one argument"
  | notNumber title value =>
    "argument " ++ title ++ ": invalid int value: " ++ Text.quoted value
  | notChoice title value choices =>
    "argument " ++ title ++ ": invalid choice: " ++ Text.quoted value ++ " (choose from "
      ++ ", ".intercalate (choices.map Text.quoted) ++ ")"
  | missing titles => "the following arguments are required: " ++ ", ".intercalate titles
  | leftOver arguments => "unrecognized arguments: " ++ " ".intercalate arguments

end Complaint

/-- Why reading ends early. -/
inductive Stop
  /-- Help is asked for. -/
  | help
  | complaint (c : Complaint)
  deriving DecidableEq, Repr

/-! ## 1. Arguments by themselves -/

/-- An argument by itself. -/
inductive Token
  /-- The first `--`. -/
  | separator
  | word (s : String)
  /-- A switch, perhaps with its value; `joined` if the value follows without `=`. -/
  | switch (s : Switch) (short joined : Bool) (value : Option String)
  | unknown (s : String)

/-- A text of the form of a negative number. -/
def looksNegative (s : String) : Bool :=
  let digit (c : Char) : Bool := (Text.digitValue? c).isSome
  let cs := s.toList
  let cs := if cs.getLast? == some '\n' then cs.dropLast else cs
  match cs with
  | '-' :: rest =>
    match rest.dropWhile digit with
    | [] => !rest.isEmpty
    | '.' :: places => !places.isEmpty && places.all digit
    | _ => false
  | _ => false

/-- What stands before the first `=`, and what after it. -/
def splitAssigned (cs : List Char) : List Char × Option (List Char) :=
  let name := cs.takeWhile (· != '=')
  match cs.drop name.length with
  | _ :: value => (name, some value)
  | [] => (name, none)

/-- A name with a single hyphen. -/
def isShort (name : String) : Bool :=
  match name.toList with
  | '-' :: '-' :: _ => false
  | _ => true

/-- The names that an argument may be the beginning of, or, for a short name, may begin with. -/
def candidates (switches : List Switch) (cs : List Char) : List (String × Token) :=
  let named := switches.flatMap fun s => s.names.map fun name => (name, s)
  match cs with
  | '-' :: '-' :: _ =>
    let parts := splitAssigned cs
    named.filterMap fun e =>
      if parts.1.isPrefixOf e.1.toList then
        some (e.1, .switch e.2 (isShort e.1) false (parts.2.map String.ofList))
      else none
  | _ =>
    named.filterMap fun e =>
      if e.1.toList == cs.take 2 then
        some (e.1, .switch e.2 true true (some (String.ofList (cs.drop 2))))
      else if cs.isPrefixOf e.1.toList then some (e.1, .switch e.2 (isShort e.1) false none)
      else none

/-- What an argument before the separator is. -/
def classify (switches : List Switch) (s : String) : Except Stop Token :=
  let cs := s.toList
  let named (name : String) : Option Switch := switches.find? fun w => w.names.contains name
  if cs.head? != some '-' then .ok (.word s)
  else match named s with
    | some w => .ok (.switch w (isShort s) false none)
    | none =>
      if cs.length = 1 then .ok (.word s)
      else
        let parts := splitAssigned cs
        let name := String.ofList parts.1
        match parts.2, named name with
        | some value, some w => .ok (.switch w (isShort name) false (some (String.ofList value)))
        | _, _ =>
          match candidates switches cs with
          | [(_, token)] => .ok token
          | [] =>
            if looksNegative s || cs.contains ' ' then .ok (.word s) else .ok (.unknown s)
          | several => .error (.complaint (.ambiguous s (several.map Prod.fst)))

/-- All arguments, each by itself. -/
def tokens (switches : List Switch) : List String → Except Stop (List Token)
  | [] => .ok []
  | s :: rest =>
    if s = "--" then .ok (.separator :: rest.map .word)
    else do
      let first ← classify switches s
      let later ← tokens switches rest
      return first :: later

/-! ## 2. Values -/

/-- The values of the parts of a grammar, by their keys. -/
abbrev Given := List (String × Value)

/-- Sets the value of a key. -/
def Given.set (g : Given) (key : String) (v : Value) : Given :=
  (key, v) :: g.filter (·.1 != key)

/-- The texts given so far under a key. -/
def Given.texts (g : Given) (key : String) : List Value :=
  match g.lookup key with
  | some (.list vs) => vs
  | _ => []

/-- A switch takes a value. -/
def Given.take (g : Given) (s : Switch) (value : String) : Except Stop Given :=
  match s.takes with
  | .help | .nothing => .ok (g.set s.key (.bool true))
  | .text => .ok (g.set s.key (.text value))
  | .texts => .ok (g.set s.key (.list (g.texts s.key ++ [.text value])))
  | .number =>
    let digits := (value.toList.filter fun c => (Text.digitValue? c).isSome).length
    match Decimal.readInt? value with
    | some n =>
      if Json.mostDigits < digits then .error (.complaint (.notNumber s.title value))
      else .ok (g.set s.key (.int n))
    | none => .error (.complaint (.notNumber s.title value))
  | .choice among =>
    if among.contains value then .ok (g.set s.key (.text value))
    else .error (.complaint (.notChoice s.title value among))

/-- A switch is there without a value. -/
def Given.mark (g : Given) (s : Switch) : Except Stop Given :=
  if s.takes = .help then .error .help else .ok (g.set s.key (.bool true))

/-- A switch that takes nothing has a value all the same.  After a short name its characters may
be further short names; `assigned` if an `=` stands before them.  The only short name is the one
for help, so that reading ends in any case. -/
def cluster (s : Switch) (assigned : Bool) : List Char → Stop
  | [] => .complaint (.unwantedValue s.title "")
  | c :: rest =>
    if assigned || c = '-' then .complaint (.unwantedValue s.title (String.ofList (c :: rest)))
    else if s.names.contains (String.ofList ['-', c]) then
      match rest with
      | [] => .help
      | '=' :: value => cluster s true value
      | rest => cluster s false rest
    else .help

/-- A switch that takes nothing has the given value behind its name. -/
def refuseValue (s : Switch) (short joined : Bool) (value : String) : Stop :=
  if short then cluster s (!joined) value.toList else .complaint (.unwantedValue s.title value)

/-! ## 3. Arguments in their order -/

/-- What the argument before was. -/
inductive Before
  /-- A word that a part of the grammar has taken. -/
  | word
  /-- A separator that belongs to the next word. -/
  | separator
  | other
  deriving DecidableEq, Repr

/-- How far the reading has come. -/
structure Progress where
  given : Given := []
  /-- The keys of the parts that have been there. -/
  seen : List String := []
  /-- The words that have not been there yet. -/
  words : List Word
  leftOver : List String := []

namespace Progress

/-- Nobody takes the argument. -/
def leave (p : Progress) (argument : String) : Progress :=
  { p with leftOver := p.leftOver ++ [argument] }

/-- The next word of the grammar, if there is one, takes the value. -/
def takeWord (p : Progress) (v : Value) : Progress :=
  match p.words with
  | w :: rest => { p with given := p.given.set w.name v, seen := w.name :: p.seen, words := rest }
  | [] => p

/-- A switch has been there. -/
def saw (p : Progress) (s : Switch) (given : Given) : Progress :=
  { p with given, seen := s.key :: p.seen }

/-- Reads the arguments from left to right.  A separator belongs to the word before it, or else
to the word after it.  A word that looks like a separator is taken for one if it has none, and
its value is empty then. -/
def read (p : Progress) (before : Before) : List Token → Except Stop Progress
  | [] => .ok p
  | .separator :: rest =>
    if before = .word then read p .other rest
    else if p.words.isEmpty || rest.isEmpty then read (p.leave "--") .other rest
    else read p .separator rest
  | .word s :: rest =>
    if p.words.isEmpty then read (p.leave s) .other rest
    else
      let value := if before ≠ .separator && s = "--" then Value.list [] else .text s
      read (p.takeWord value) .word rest
  | .unknown s :: rest => read (p.leave s) .other rest
  | .switch s short joined (some value) :: rest =>
    if s.takes.hasValue then
      match p.given.take s value with
      | .ok given => read (p.saw s given) .other rest
      | .error stop => .error stop
    else .error (refuseValue s short joined value)
  | .switch s _ _ none :: rest =>
    if s.takes.hasValue then
      match rest with
      | .word value :: after =>
        match p.given.take s value with
        | .ok given => read (p.saw s given) .other after
        | .error stop => .error stop
      | _ => .error (.complaint (.noValue s.title))
    else
      match p.given.mark s with
      | .ok given => read (p.saw s given) .other rest
      | .error stop => .error stop

end Progress

/-- The values of the parts of a grammar, and the arguments that are left over. -/
def Grammar.read (g : Grammar) (arguments : List String) :
    Except Stop (Given × List String) := do
  let ts ← tokens g.switches arguments
  let p ← Progress.read { words := g.words } .other ts
  let missing := g.parts.filter fun part => part.required && !p.seen.contains part.key
  if missing.isEmpty then return (p.given, p.leftOver)
  else throw (.complaint (.missing (missing.map Part.title)))

/-! ## 4. Tools -/

/-- What a program leaves behind: its exit code, and what it has written. -/
structure Report where
  exit : Nat
  out : String := ""
  err : String := ""
  deriving DecidableEq, Repr

namespace Report

/-- Help that was asked for. -/
def help (text : String) : Report := ⟨0, text, ""⟩

/-- A complaint about the command line. -/
def refusal (usage program : String) (c : Complaint) : Report :=
  ⟨2, "", usage ++ program ++ ": error: " ++ c.message ++ "\n"⟩

end Report

/-- How a program ends whose command line cannot be read. -/
def Stop.report (usage help program : String) : Stop → Report
  | .help => .help help
  | .complaint c => .refusal usage program c

namespace Tool

/-- How the tool ends when reading the arguments before the command stops. -/
def stop (t : Tool) (s : Stop) : Report :=
  s.report t.usage t.help t.program

/-- The command with its values, if there is one, and the arguments that are left over. -/
def scan (t : Tool) (leftOver : List String) :
    List String → Except Report (Option (Entry × Given) × List String)
  | [] => .ok (none, leftOver)
  | s :: rest =>
    let unknown := t.stop (.complaint (.notChoice "command" s t.names))
    if s = "--" then
      if rest.isEmpty then .ok (none, leftOver ++ [s]) else .error unknown
    else
      match classify [.askHelp] s with
      | .error e => .error (t.stop e)
      | .ok (.switch _ _ _ none) => .error (t.stop .help)
      | .ok (.switch w short joined (some value)) =>
        .error (t.stop (refuseValue w short joined value))
      | .ok (.unknown s) => scan t (leftOver ++ [s]) rest
      | .ok _ =>
        match t.entries.find? fun e => e.name == s with
        | none => .error unknown
        | some e =>
          let g := t.grammar e
          match g.read rest with
          | .error stop => .error (stop.report g.usage g.help g.program)
          | .ok (given, more) => .ok (some (e, given), leftOver ++ more)

/-- The command that is asked for, with its values, or how the tool ends without one. -/
def read (t : Tool) (arguments : List String) : Except Report (Entry × Given) :=
  match t.scan [] arguments with
  | .error r => .error r
  | .ok (asked, leftOver) =>
    if !leftOver.isEmpty then .error (t.stop (.complaint (.leftOver leftOver)))
    else match asked with
      | none => .error (.help t.help)
      | some command => .ok command

end Tool

end AccessControl.CommandLine
