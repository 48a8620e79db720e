import ReferenceGraph.Command.Options

/-!
# Reading a command line

Arguments are read from left to right. A value that is an argument of its own is set aside at
first: it is looked at when the next option or operand is accepted, or at the end
(`Reading.settle`). An argument that cannot be accepted at all is therefore reported before an
error in the value that stands before it.
-/

namespace ReferenceGraph

/-- Why the reading of a command line ends early. -/
inductive Stop where
  | usage (e : UsageError)
  | help
  | version
deriving DecidableEq, Repr

/-- A command line that has been read up to some argument. -/
structure Reading where
  /-- What is settled. -/
  given : Given := {}
  /-- A parameter that is not settled yet, and its value if that has been read. -/
  pending : Option (Parameter × Option String) := none

namespace Reading

/-- Settles what is pending. -/
def settle (r : Reading) : Except Stop Given :=
  match r.pending with
  | none => .ok r.given
  | some (p, none) => .error (.usage (.missingValue p))
  | some (p, some value) => (r.given.set p value).mapError .usage

/-- Accepts a flag. -/
def flag (r : Reading) (f : Flag) : Except Stop Reading := do
  let given ← r.settle
  match f with
  | .help => .error .help
  | .version => .error .version
  | .classLevel =>
    if given.classLevel then .error (.usage (.repeated f.label))
    else .ok { given := { given with classLevel := true } }

/-- Accepts a parameter whose value is the next argument. -/
def parameter (r : Reading) (p : Parameter) : Except Stop Reading := do
  let given ← r.settle
  return { given, pending := some (p, none) }

/-- Accepts a parameter whose value is attached to it. -/
def attached (r : Reading) (p : Parameter) (value : String) : Except Stop Reading := do
  let given ← r.settle
  let given ← (given.set p value).mapError .usage
  return { given }

/-- Accepts an operand. There is only one, the root. -/
def operand (r : Reading) (argument : String) : Except Stop Reading := do
  if r.given.root.isSome || r.pending.any (·.1 = .root) then
    throw (.usage (.unexpectedArgument argument))
  let given ← r.settle
  return { given, pending := some (.root, some argument) }

/-- Accepts a long option, given without its two dashes. -/
def long (r : Reading) (body : List Char) : Except Stop Reading :=
  let name := String.ofList (body.takeWhile (· ≠ '='))
  let value? := match body.dropWhile (· ≠ '=') with
    | [] => none
    | _ :: value => some (String.ofList value)
  match Switch.ofLong? name, value? with
  | none, _ => .error (.usage (.unexpectedArgument ("--" ++ name)))
  | some (.flag f), none => r.flag f
  | some (.flag f), some value => .error (.usage (.unexpectedValue value f))
  | some (.parameter p), none => r.parameter p
  | some (.parameter p), some value => r.attached p value

/-- Accepts short options that share a dash. The first that has a value takes the rest of the
argument for it. -/
def short (r : Reading) : List Char → Except Stop Reading
  | [] => .ok r
  | c :: cs =>
    match Switch.ofShort? c, cs with
    | none, _ => .error (.usage (.unexpectedArgument (String.ofList ['-', c])))
    | some (.flag f), _ => do (← r.flag f).short cs
    | some (.parameter p), [] => r.parameter p
    | some (.parameter p), '=' :: value => r.attached p (String.ofList value)
    | some (.parameter p), value => r.attached p (String.ofList value)

/-- Accepts an argument in front of the end of the options. What does not begin with a dash, and a
dash alone, is the value of the parameter before it or an operand. -/
def argument (r : Reading) (a : String) : Except Stop Reading :=
  match a.toList with
  | '-' :: '-' :: body => r.long body
  | '-' :: c :: cs => r.short (c :: cs)
  | _ =>
    match r.pending with
    | some (p, none) => .ok { r with pending := some (p, some a) }
    | _ => r.operand a

/-- Accepts the arguments in turn. Two dashes alone end the options; all after them are operands. -/
def arguments (r : Reading) : List String → Except Stop Reading
  | [] => .ok r
  | "--" :: as => as.foldlM operand r
  | a :: as => do (← r.argument a).arguments as

end Reading

/-- The options that a command line chooses. -/
def Options.ofArguments (args : List String) : Except Stop Options := do
  let r ← Reading.arguments {} args
  return (← r.settle).toOptions

end ReferenceGraph
