import ReferenceGraph.Command.Run

/-!
# The command line

The command on a real machine. The tree below the root is listed without its contents, the order of
its files is taken from that list, and then each file is read through its own path. An entry whose
name is no text is left out, and one of an unknown kind counts as a file.
-/

namespace ReferenceGraph

/-- The number that the machine gives to an error, if it has one. -/
def errorNumber? : IO.Error → Option UInt32
  | .alreadyExists _ n _ => some n
  | .otherError n _ => some n
  | .resourceBusy n _ => some n
  | .resourceVanished n _ => some n
  | .unsupportedOperation n _ => some n
  | .hardwareFault n _ => some n
  | .unsatisfiedConstraints n _ => some n
  | .illegalOperation n _ => some n
  | .protocolError n _ => some n
  | .timeExpired n _ => some n
  | .interrupted _ n _ => some n
  | .noFileOrDirectory _ n _ => some n
  | .invalidArgument _ n _ => some n
  | .permissionDenied _ n _ => some n
  | .resourceExhausted _ n _ => some n
  | .inappropriateType _ n _ => some n
  | .noSuchThing _ n _ => some n
  | .unexpectedEof => none
  | .userError _ => none

/-- An error of the machine as an error of a path. Some calls give the number of the error with a
negative sign. -/
def PathError.ofMachine (e : IO.Error) : PathError :=
  match (errorNumber? e).map fun n => if n < 0x80000000 then n else 0 - n with
  | some 2 => .notFound
  | some 20 => .notDirectory
  | some 21 => .isDirectory
  | some 40 => .tooManyLinks
  | some 13 => .permissionDenied
  | _ => .other (toString e)

/-- The result of an action on a path, with its failure as a value. -/
def attempt {α : Type} (p : Path) (action : IO α) : IO (Except PathError α) := do
  if 0 ∈ p.bytes then return .error .zeroByte
  else if p.bytes = [] then return .error .notFound
  else
    try return .ok (← action)
    catch e => return .error (.ofMachine e)

/-- The entries of a directory and of the directories below it, and the locations of those that
cannot be listed. Files come without their contents and links without their targets. -/
partial def listDirectory (path : String) :
    IO (List (FileName × Entry) × List (Location × PathError)) := do
  match ← (System.mkFilePath [path]).readDir.toBaseIO with
  | .error e => return ([], [([], .ofMachine e)])
  | .ok items =>
    let mut es : List (FileName × Entry) := []
    let mut unlistable : List (Location × PathError) := []
    for item in items do
      let name := Utf8.encodeString item.fileName
      match ← item.path.symlinkMetadata.toBaseIO with
      | .error _ => es := (name, .file []) :: es
      | .ok m =>
        match m.type with
        | .dir =>
          let (below, refused) ← listDirectory item.path.toString
          es := (name, .dir below) :: es
          unlistable := refused.map (fun (l, cause) => (name :: l, cause)) ++ unlistable
        | .file => es := (name, .file []) :: es
        | .symlink => es := (name, .link ⟨[]⟩) :: es
        | .other => pure ()
    return (es.reverse, unlistable)

/-- The directories below a root on the machine that cannot be listed, and the source files there,
each read through its path. -/
def loadFiles (root : Path) :
    IO (List (Path × PathError) × Except ScanError (List LoadedFile)) := do
  let place := System.mkFilePath [root.display]
  match ← attempt root place.metadata with
  | .error e => return ([], .error (.rootUnavailable root e))
  | .ok m =>
    if m.type != .dir then return ([], .error (.rootNotDirectory root))
    let isLink := (← place.symlinkMetadata).type == .symlink
    let self : List SourceFile := if isLink && root.isSource then [⟨root, ⟨[]⟩⟩] else []
    let (es, unlistable) ← listDirectory root.display
    let files := self ++ sourceFiles root (unlistable.lookup ·) es
    let loaded ← files.mapM fun file => do
      let content ← attempt file.path (IO.FS.readBinFile file.path.display)
      return ⟨file, content.map (·.toList)⟩
    return (unlistedPaths root (refusedBelow (unlistable.lookup ·) es), .ok loaded)

/-- Seconds with two places, from milliseconds. -/
def secondsText (ms : Nat) : String :=
  let hundredths := (ms + 5) / 10
  let places := toString (hundredths % 100)
  toString (hundredths / 100) ++ "." ++ (if places.length < 2 then "0" else "") ++ places ++ "s"

end ReferenceGraph

open ReferenceGraph in
/-- Runs the command with these arguments. -/
def main (args : List String) : IO UInt32 := do
  let start ← IO.monoMsNow
  let printed ← match Options.ofArguments args with
    | .error stop => pure stop.printed
    | .ok o => do
      let (unlisted, files) ← loadFiles o.root
      let a := analyzeFiles o.kind o.root unlisted files
      let written ← match o.delivery? a with
        | none => pure (.ok ())
        | some (path, content) =>
          attempt path (IO.FS.writeBinFile path.display ⟨content.toArray⟩)
      pure (o.conclude a written (secondsText ((← IO.monoMsNow) - start)))
  IO.eprint printed.stderr
  IO.print printed.stdout
  return UInt32.ofNat printed.exitCode
