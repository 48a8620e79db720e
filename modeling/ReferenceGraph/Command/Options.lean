import ReferenceGraph.Analysis.Event
import ReferenceGraph.Graph.Format
import ReferenceGraph.Text.Control

/-!
# Options of the command

What can be chosen on the command line, under which names, and what is chosen when nothing is said.
-/

namespace ReferenceGraph

/-- What one run of the command does. -/
structure Options where
  /-- The root of the tree to analyze. -/
  root : Path
  /-- What the nodes stand for. -/
  kind : Granularity
  /-- How the graph is written. -/
  format : Format
  /-- The file to write to, in place of the standard output. -/
  output : Option Path
  /-- How much is logged. -/
  logLevel : Level

/-- The things on a command line that have a value. -/
inductive Parameter where
  | root
  | format
  | output
  | logLevel
deriving DecidableEq, Repr

/-- The parameter as it is called in an error. -/
def Parameter.label : Parameter → String
  | root => "[PATH]"
  | format => "--format <FORMAT>"
  | output => "--output <FILE>"
  | logLevel => "--log-level <LEVEL>"

/-- The things on a command line that have no value. -/
inductive Flag where
  | classLevel
  | help
  | version
deriving DecidableEq, Repr

/-- The flag as it is called in an error. -/
def Flag.label : Flag → String
  | classLevel => "--class-level"
  | help => "--help"
  | version => "--version"

/-- What an option is the name of. -/
inductive Switch where
  | parameter (p : Parameter)
  | flag (f : Flag)
deriving DecidableEq, Repr

/-- The option with a long name. -/
def Switch.ofLong? : String → Option Switch
  | "class-level" => some (.flag .classLevel)
  | "format" => some (.parameter .format)
  | "output" => some (.parameter .output)
  | "log-level" => some (.parameter .logLevel)
  | "help" => some (.flag .help)
  | "version" => some (.flag .version)
  | _ => none

/-- The option with a short name. -/
def Switch.ofShort? : Char → Option Switch
  | 'c' => some (.flag .classLevel)
  | 'f' => some (.parameter .format)
  | 'o' => some (.parameter .output)
  | 'h' => some (.flag .help)
  | 'V' => some (.flag .version)
  | _ => none

/-- What is wrong with a command line. -/
inductive UsageError where
  /-- There is no such option, or there are too many operands. -/
  | unexpectedArgument (argument : String)
  /-- A value is attached to a flag. -/
  | unexpectedValue (value : String) (flag : Flag)
  /-- The value is missing or empty. -/
  | missingValue (parameter : Parameter)
  /-- The value is none of those that the parameter may have. -/
  | invalidValue (value : String) (parameter : Parameter)
  /-- The parameter or flag is given twice. -/
  | repeated (label : String)
deriving DecidableEq, Repr

/-- The text of the error. What it quotes from the command line is cleared of control sequences. -/
def UsageError.message : UsageError → String
  | unexpectedArgument argument =>
    s!"error: unexpected argument '{Control.strip argument}' found"
  | unexpectedValue value flag =>
    s!"error: unexpected value '{Control.strip value}' for '{flag.label}' found; " ++
      "no more were expected"
  | missingValue parameter =>
    s!"error: a value is required for '{parameter.label}' but none was supplied"
  | invalidValue value parameter =>
    s!"error: invalid value '{Control.strip value}' for '{parameter.label}'"
  | repeated label => s!"error: the argument '{label}' cannot be used multiple times"

/-- What has been given on a command line so far. -/
structure Given where
  root : Option Path := none
  classLevel : Bool := false
  format : Option Format := none
  output : Option Path := none
  logLevel : Option Level := none

namespace Given

/-- Whether the parameter has been given. -/
def has (g : Given) : Parameter → Bool
  | .root => g.root.isSome
  | .format => g.format.isSome
  | .output => g.output.isSome
  | .logLevel => g.logLevel.isSome

/-- Gives a parameter its value. That it has one already counts before what the value is. -/
def set (g : Given) (p : Parameter) (value : String) : Except UsageError Given :=
  if g.has p then .error (.repeated p.label)
  else if value = "" then .error (.missingValue p)
  else match p with
    | .root => .ok { g with root := some (.ofString value) }
    | .output => .ok { g with output := some (.ofString value) }
    | .format =>
      match Format.ofText? value with
      | some f => .ok { g with format := some f }
      | none => .error (.invalidValue value p)
    | .logLevel =>
      match Level.ofText? value with
      | some l => .ok { g with logLevel := some l }
      | none => .error (.invalidValue value p)

/-- The options of the run, with what is not given filled in. -/
def toOptions (g : Given) : Options where
  root := g.root.getD (.ofString ".")
  kind := if g.classLevel then .classes else .packages
  format := g.format.getD .dot
  output := g.output
  logLevel := g.logLevel.getD .warn

end Given

end ReferenceGraph
