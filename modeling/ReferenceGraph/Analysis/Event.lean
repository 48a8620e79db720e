import ReferenceGraph.Error
import ReferenceGraph.Graph.Basic
import ReferenceGraph.Source.Summary

/-!
# Events

What an analysis reports while it goes on. An event has a severity and an origin; how it is written
is decided in one place (`Event.message`).
-/

namespace ReferenceGraph

/-- How severe an event is, and how much of them is wanted. -/
inductive Level where
  | off
  | error
  | warn
  | info
  | debug
  | trace
deriving DecidableEq, Repr

namespace Level

/-- The place of the level on the scale from nothing to everything. -/
def rank : Level → Nat
  | off => 0
  | error => 1
  | warn => 2
  | info => 3
  | debug => 4
  | trace => 5

/-- A wanted level admits the events that are at least as severe. -/
def admits (wanted level : Level) : Bool := decide (level.rank ≤ wanted.rank)

/-- The word for the level. -/
def text : Level → String
  | off => "off"
  | error => "error"
  | warn => "warn"
  | info => "info"
  | debug => "debug"
  | trace => "trace"

/-- The level with this word. -/
def ofText? : String → Option Level
  | "off" => some off
  | "error" => some error
  | "warn" => some warn
  | "info" => some info
  | "debug" => some debug
  | "trace" => some trace
  | _ => none

/-- The word for the level in a log. -/
def label (l : Level) : String := l.text.map Char.toUpper

@[simp] theorem ofText?_text (l : Level) : ofText? l.text = some l := by
  cases l <;> rfl

end Level

/-- Something that an analysis reports. -/
inductive Event where
  /-- The scan of a root begins. -/
  | scanning (root : Path)
  /-- A directory has been left out of the scan. -/
  | unlisted (path : Path) (cause : PathError)
  /-- The scan of a root has ended with this many files. -/
  | scanned (files : Nat) (root : Path)
  /-- This many files will be read. -/
  | found (files : Nat)
  /-- A file has been read. -/
  | summarized (file : Summary)
  /-- An edge has been added to the graph. -/
  | added (edge : Edge)
  /-- A file has been left out. -/
  | skipped (cause : FileError)
  /-- All files have been read or left out. -/
  | collected (edges : Nat) (kind : Granularity) (nodes omitted : Nat)
  /-- The graph has been written to a file. -/
  | wrote (path : Path)
  /-- The run has ended, after this time. -/
  | finished (elapsed : String)

namespace Event

/-- How severe the event is. -/
def level : Event → Level
  | scanning _ => .info
  | unlisted .. => .warn
  | scanned .. => .debug
  | found _ => .info
  | summarized _ => .trace
  | added _ => .debug
  | skipped _ => .warn
  | collected .. => .info
  | wrote _ => .info
  | finished _ => .info

/-- The part of the program that the event comes from, as it is called in the log. -/
def origin : Event → String
  | scanning _ => "javadeps::core::analyzer"
  | unlisted .. => "javadeps::core::scanner"
  | scanned .. => "javadeps::core::scanner"
  | found _ => "javadeps::core::analyzer"
  | summarized _ => "javadeps::parsers::java"
  | added _ => "javadeps::core::analyzer"
  | skipped _ => "javadeps::core::analyzer"
  | collected .. => "javadeps::core::analyzer"
  | wrote _ => "javadeps"
  | finished _ => "javadeps"

/-- The text of the event. -/
def message : Event → String
  | scanning root => s!"Scanning {root.display}"
  | unlisted path cause =>
    s!"Skipping unreadable entry: IO error for operation on {path.display}: {cause.message}"
  | scanned files root => s!"Found {files} .java files under {root.display}"
  | found files => s!"Found {files} java files to analyze"
  | summarized file =>
    s!"{file.name}: {file.lines} lines, {file.imports} imports, " ++
      s!"{file.references.length} references"
  | added edge => s!"new edge {edge.source} -> {edge.target}"
  | skipped cause => s!"Skipping file: {cause.message}"
  | collected edges kind nodes omitted =>
    s!"Collected {edges} {kind.text}-level edges between {nodes} nodes ({omitted} files skipped)"
  | wrote path => s!"Wrote {path.display}"
  | finished elapsed => s!"Total execution time: {elapsed}"

/-- The event with its severity and origin, on one line unless its text has several. -/
def describe (e : Event) : String := s!"{e.level.label} {e.origin}: {e.message}"

end Event

end ReferenceGraph
