import ReferenceGraph.Error
import ReferenceGraph.Tree.Basic

/-!
# Resolving paths

The way of a path through a tree goes step by step. Every step starts from a directory; a symbolic
link is replaced by the steps of its target; and only so many links may be followed (`linkLimit`),
which also ends the way of a path through a cycle of links.

The length of a path, and that of a name, is not limited, and every directory may be gone through,
also one that cannot be listed. So a way fails only because of what the tree holds, or because of
the number of links.
-/

namespace ReferenceGraph

/-- How the end of a path is treated. -/
inductive Purpose where
  /-- Links are followed to the end. -/
  | follow
  /-- A link at the end is not followed. -/
  | keep
  /-- Links are followed to the end, and the last name may be missing, but it must not be followed
  by a slash. -/
  | create
deriving DecidableEq, Repr

/-- Where a path leads. -/
inductive Place where
  /-- An entry, at a location that holds no link. -/
  | entry (location : Location) (e : Entry)
  /-- A name that is missing in a directory. -/
  | vacant (location : Location)

/-- The number of links that the way of a path may follow. -/
def linkLimit : Nat := 40

/-- Whether a step stays in the directory: a single dot, or the end of a path that ends in a
slash. -/
def isStay (name : FileName) : Bool := name = [] ∨ name = FileName.here

/-- The place that `steps` lead to from the location `at`, when `links` more links may be
followed. -/
def walk (top : Entry) (purpose : Purpose) (links : Nat) (location : Location)
    (steps : List FileName) : Except PathError Place :=
  match steps with
  | [] =>
    match top.at? location with
    | some e => .ok (.entry location e)
    | none => .error .notFound
  | name :: rest =>
    match top.at? location with
    | none => .error .notFound
    | some (.file _) => .error .notDirectory
    | some (.link _) => .error .notDirectory
    | some (.dir es) =>
      if isStay name then walk top purpose links location rest
      else if name = FileName.above then walk top purpose links location.dropLast rest
      else if purpose = .create ∧ rest = [[]] then .error .isDirectory
      else match es.lookup name with
        | none =>
          if purpose = .create ∧ rest = [] then .ok (.vacant (location ++ [name]))
          else .error .notFound
        | some (.link target) =>
          if purpose = .keep ∧ rest = [] then .ok (.entry (location ++ [name]) (.link target))
          else if target.bytes = [] then .error .notFound
          else match links with
            | 0 => .error .tooManyLinks
            | links + 1 =>
              walk top purpose links (if target.isAbsolute then [] else location)
                (target.steps ++ rest)
        | some _ => walk top purpose links (location ++ [name]) rest
termination_by (links, steps.length)

namespace FileTree

/-- The location that the way of a path starts from. -/
def start (t : FileTree) (p : Path) : Location := if p.isAbsolute then [] else t.working

/-- The place that a path leads to. -/
def resolve (t : FileTree) (purpose : Purpose) (p : Path) : Except PathError Place :=
  if 0 ∈ p.bytes then .error .zeroByte
  else if p.bytes = [] then .error .notFound
  else walk t.top purpose linkLimit (t.start p) p.steps

end FileTree

end ReferenceGraph
