import ReferenceGraph.Name.Qualified

/-!
# Granularity

A node of the graph stands for one class, or for a whole package. `Granularity.collapse` maps the
dotted name of a class to the name of its node. It is defined for every text, because the name of a
file need not be a qualified name.

* `parentName_text`: the parent of a qualified name is its package.
-/

namespace ReferenceGraph

/-- The name without its last segment. A name without a dot is its own parent. -/
def parentName (name : String) : String :=
  match (name.toList.splitOn '.').dropLast with
  | [] => name
  | s :: ss => String.ofList (['.'].intercalate (s :: ss))

/-- What the nodes of a graph stand for. -/
inductive Granularity where
  | packages
  | classes
deriving DecidableEq, Repr

namespace Granularity

/-- Unless asked otherwise, nodes are packages. -/
instance : Inhabited Granularity := ⟨packages⟩

/-- The word for the granularity. -/
def text : Granularity → String
  | packages => "package"
  | classes => "class"

instance : ToString Granularity := ⟨text⟩

/-- The granularity with this word. -/
def ofText? : String → Option Granularity
  | "package" => some packages
  | "class" => some classes
  | _ => none

/-- The name of the node to which a class of this name belongs. -/
def collapse : Granularity → String → String
  | packages, name => parentName name
  | classes, name => name

@[simp] theorem ofText?_text (g : Granularity) : ofText? g.text = some g := by
  cases g <;> rfl

@[simp] theorem collapse_classes (name : String) : classes.collapse name = name := rfl

@[simp] theorem collapse_packages (name : String) : packages.collapse name = parentName name := rfl

end Granularity

/-- The parent of a qualified name is the text of its package. -/
theorem parentName_text (n : QualifiedName) :
    parentName n.text = String.ofList (['.'].intercalate n.package) := by
  have h := n.package_ne_nil
  simp only [parentName, QualifiedName.text, String.toList_ofList, QualifiedName.splitOn_chars,
    QualifiedName.segments, List.dropLast_concat]
  split
  · next h' => exact absurd h' h
  · next h' => rw [h']

end ReferenceGraph
