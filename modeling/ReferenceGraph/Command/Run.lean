import ReferenceGraph.Analysis.Run
import ReferenceGraph.Command.Arguments

/-!
# Running the command

One run reads its arguments, analyzes a tree and delivers the graph, on the standard output or into
a file of the tree. A run that fails delivers nothing.
-/

namespace ReferenceGraph

/-- What a run prints. -/
structure Printed where
  exitCode : Nat
  stdout : String
  stderr : String
deriving DecidableEq, Repr

/-- Why a run fails. -/
inductive Failure where
  | analysis (root : Path) (cause : ScanError)
  | output (path : Path) (cause : PathError)
deriving DecidableEq

/-- The lines of the text, the later ones after a margin. -/
def indentAfterFirst (margin : String) (s : String) : String :=
  ("\n" ++ margin).intercalate ((s.toList.splitOn '\n').map String.ofList)

namespace Failure

/-- What has failed. -/
def headline : Failure → String
  | analysis root _ => s!"failed to analyze {root.display}"
  | output path _ => s!"failed to write {path.display}"

/-- What it failed of, the remotest cause last. -/
def causes : Failure → List String
  | analysis _ e =>
    match e with
    | .rootUnavailable _ cause => [e.message, cause.message]
    | .rootNotDirectory _ => [e.message]
  | output _ e => [e.message]

/-- The causes as they are listed: one by itself, several with numbers. -/
def causeLines : List String → List String
  | [cause] => ["    " ++ indentAfterFirst "    " cause]
  | causes => causes.zipIdx.map fun (cause, i) =>
    "    " ++ toString i ++ ": " ++ indentAfterFirst "       " cause

/-- The text that a run ends with when it fails. -/
def message (f : Failure) : String :=
  "Error: " ++ f.headline ++ "\n\nCaused by:\n" ++ "\n".intercalate (causeLines f.causes) ++ "\n"

end Failure

/-- The line of an event in the log, with the level padded to five characters. Names of files may
hold anything, so the line is cleared of control sequences. -/
def Event.logLine (e : Event) : String :=
  Control.strip <|
    "[" ++ String.ofList (e.level.label.toList.rightpad 5 ' ') ++ " " ++ e.origin ++ "] " ++
      indentAfterFirst "    " e.message ++ "\n"

/-- The log of those events that are wanted. -/
def logText (wanted : Level) (events : List Event) : String :=
  String.join ((events.filter fun e => wanted.admits e.level).map Event.logLine)

/-- The name and version of the command. -/
def versionText : String := "javadeps 0.1.0\n"

/-- The help of the command, line by line. -/
def helpLines : List String :=
  ["Heuristic package/class dependency graph for Java sources, as Graphviz DOT",
    "",
    "Usage: javadeps [OPTIONS] [PATH]",
    "",
    "Arguments:",
    "  [PATH]  Root directory of the Java source tree [default: .]",
    "",
    "Options:",
    "  -c, --class-level        Use classes as graph nodes instead of packages",
    "  -f, --format <FORMAT>    Output format: dot, json-compact [default: dot] " ++
      "[possible values: dot, json-compact]",
    "  -o, --output <FILE>      Output file path (defaults to stdout)",
    "      --log-level <LEVEL>  Diagnostics verbosity on stderr [default: warn] " ++
      "[possible values: off, error, warn, info, debug, trace]",
    "  -h, --help               Print help",
    "  -V, --version            Print version"]

/-- The help of the command. -/
def helpText : String := String.join (helpLines.map (· ++ "\n"))

/-- What a run prints that ends with its arguments. -/
def Stop.printed : Stop → Printed
  | usage e => ⟨2, "", e.message ++ "\n"⟩
  | help => ⟨0, helpText, ""⟩
  | version => ⟨0, versionText, ""⟩

namespace Options

/-- The text that a run delivers for a graph. -/
def graphText (o : Options) (g : Graph) : String := g.render o.kind o.format

/-- The file that a run has to write after its analysis, with the content. -/
def delivery? (o : Options) (a : Analysis) : Option (Path × Bytes) :=
  match a.outcome, o.output with
  | .ok g, some path => some (path, Utf8.encodeString (o.graphText g))
  | _, _ => none

/-- What a run prints that fails after these events. -/
def failed (o : Options) (events : List Event) (f : Failure) : Printed :=
  ⟨1, "", logText o.logLevel events ++ f.message⟩

/-- What a run prints that succeeds after these events. -/
def succeeded (o : Options) (events : List Event) (stdout : String) : Printed :=
  ⟨0, stdout, logText o.logLevel events⟩

/-- What a run prints after its analysis, when the file that it had to write has been written or
not, and the run has taken the time `elapsed`. -/
def conclude (o : Options) (a : Analysis) (written : Except PathError Unit) (elapsed : String) :
    Printed :=
  match a.outcome with
  | .error e => o.failed a.events (.analysis o.root e)
  | .ok g =>
    match o.output with
    | none => o.succeeded (a.events ++ [.finished elapsed]) (o.graphText g)
    | some path =>
      match written with
      | .error e => o.failed a.events (.output path e)
      | .ok _ => o.succeeded (a.events ++ [.wrote path, .finished elapsed]) ""

end Options

/-- What a run prints, and the tree that it leaves. -/
structure Outcome where
  printed : Printed
  tree : FileTree

namespace FileTree

/-- The tree after the delivery of a run, if there is one. -/
def deliver (t : FileTree) : Option (Path × Bytes) → Except PathError FileTree
  | none => .ok t
  | some (path, content) => t.write path content

/-- A run with these options, which takes the time `elapsed`. -/
def perform (t : FileTree) (o : Options) (elapsed : String) : Outcome :=
  let a := t.analyze o.root o.kind
  match t.deliver (o.delivery? a) with
  | .error e => ⟨o.conclude a (.error e) elapsed, t⟩
  | .ok t' => ⟨o.conclude a (.ok ()) elapsed, t'⟩

/-- A run with these arguments. -/
def run (t : FileTree) (args : List String) (elapsed : String) : Outcome :=
  match Options.ofArguments args with
  | .error stop => ⟨stop.printed, t⟩
  | .ok o => t.perform o elapsed

end FileTree

end ReferenceGraph
