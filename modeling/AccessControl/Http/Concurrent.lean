import AccessControl.Http.Server

/-!
# Two requests at the same time

While one request is being handled, another one may come.  Each of the two handlers makes its steps
in its own order, and a call to the directory is one step; but whose step is next is decided by
nobody.  So it is given from outside, as a list of turns.  A handler that is done lets its turns
pass, and when there are no more turns the handlers come to their ends one after the other.  In
this way the lists of turns stand for all the orders in which the steps can be made.

Everything is decided inside a request on what the request has looked up before, even if it is no
longer so.
-/

namespace AccessControl.Http

/-- Whose step is next. -/
inductive Turn
  | first
  | second
  deriving DecidableEq, Repr

namespace Handler

variable {α : Type}

/-! ## 1. Single steps -/

/-- A handler on its way: what has happened, and what is left to be done. -/
structure Progress (α : Type) where
  events : List Event
  rest : Handler α

namespace Progress

/-- A handler that has not begun. -/
def start (h : Handler α) : Progress α := ⟨[], h⟩

/-- One step from a directory: an event, or a call. -/
def step (d : Directory) (p : Progress α) : Directory × Progress α :=
  match p.rest with
  | done _ => (d, p)
  | emit events next => (afterEvents d events, ⟨p.events ++ events, next⟩)
  | call c next =>
    let performed := d.perform c
    (performed.1, ⟨p.events, next performed.2⟩)

/-- All the steps that are left. -/
def finish (d : Directory) (p : Progress α) : Result α :=
  let after := p.rest.run d
  { after with events := p.events ++ after.events }

end Progress

/-! ## 2. Two handlers -/

/-- Two handlers on their way, and the directory that they share. -/
structure Pair (α : Type) where
  directory : Directory
  one : Progress α
  two : Progress α

namespace Pair

/-- The step of the handler whose turn it is. -/
def step (p : Pair α) : Turn → Pair α
  | .first =>
    let stepped := p.one.step p.directory
    { p with directory := stepped.1, one := stepped.2 }
  | .second =>
    let stepped := p.two.step p.directory
    { p with directory := stepped.1, two := stepped.2 }

/-- Both handlers come to their ends, one after the other. -/
def finish (p : Pair α) : Result α × Result α :=
  let one := p.one.finish p.directory
  (one, p.two.finish one.directory)

end Pair

/-- Runs two handlers from a directory, in the order that the turns give. -/
def interleave (d : Directory) (turns : List Turn) (one two : Handler α) : Result α × Result α :=
  (turns.foldl Pair.step ⟨d, .start one, .start two⟩).finish

end Handler

namespace Server

/-! ## 3. Two requests -/

/-- Serves two requests at the same time, in the order that the turns give. -/
def serveBoth (s : Server) (i : Interpretation) (turns : List Turn) (one two : Request) :
    Server × Exchange × Exchange :=
  let results := Handler.interleave s.directory turns (s.respond i one) (s.respond i two)
  ({ s with directory := results.2.directory }, s.conclude one results.1, s.conclude two results.2)

/-- Serves two requests one after the other. -/
def serveInTurn (s : Server) (i : Interpretation) (one two : Request) :
    Server × Exchange × Exchange :=
  let first := s.serve i one
  let second := first.1.serve i two
  (second.1, first.2, second.2)

end Server

end AccessControl.Http
