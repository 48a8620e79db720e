/-!
# Qualified names

A qualified name is a package, one or more segments of lower-case letters and digits, and the
simple name of a class, which begins with an upper-case letter: `a.b2.Foo`. Letters are ASCII
letters throughout.

* `QualifiedName.ofChars?` reads a whole text as a name.
* `QualifiedName.atStart?` finds the longest name that a text begins with.
* `ext_chars`: a name is determined by its text.
-/

namespace ReferenceGraph

/-- The characters of a package segment: lower-case letters and digits. -/
def isSegmentChar (c : Char) : Bool := c.isLower || c.isDigit

/-- A package segment is a nonempty run of segment characters. -/
def isSegment (s : List Char) : Bool := !s.isEmpty && s.all isSegmentChar

/-- A simple name is an upper-case letter followed by letters and digits. -/
def isSimpleName : List Char → Bool
  | [] => false
  | c :: cs => c.isUpper && cs.all Char.isAlphanum

/-- The name of a class in a package. -/
structure QualifiedName where
  /-- The segments of the package, outermost first. -/
  package : List (List Char)
  /-- The last segment, which names the class. -/
  simple : List Char
  package_ne_nil : package ≠ []
  isSegment_package : package.all isSegment = true
  isSimpleName_simple : isSimpleName simple = true
deriving DecidableEq

namespace QualifiedName

/-- The segments of the name, the simple name last. -/
def segments (n : QualifiedName) : List (List Char) := n.package ++ [n.simple]

/-- The text of the name: its segments with dots between them. -/
def chars (n : QualifiedName) : List Char := ['.'].intercalate n.segments

/-- The text of the name, as a string. -/
def text (n : QualifiedName) : String := String.ofList n.chars

instance : ToString QualifiedName := ⟨text⟩

/-- Names are ordered by their texts. -/
instance : Ord QualifiedName := ⟨fun m n => compare m.text n.text⟩

/-- The name with these parts, if they are parts of a name. -/
def ofParts? (package : List (List Char)) (simple : List Char) : Option QualifiedName :=
  if h : package ≠ [] ∧ package.all isSegment = true ∧ isSimpleName simple = true then
    some ⟨package, simple, h.1, h.2.1, h.2.2⟩
  else none

/-- Reads a text as a name. -/
def ofChars? (t : List Char) : Option QualifiedName :=
  ofParts? (t.splitOn '.').dropLast ((t.splitOn '.').getLast?.getD [])

/-- Reads a string as a name. -/
def parse? (s : String) : Option QualifiedName := ofChars? s.toList

/-- The longest name that the text begins with. Its package ends where the run of segment
characters and dots ends, so that run has to end in a dot. -/
def atStart? (t : List Char) : Option QualifiedName :=
  let run := t.takeWhile fun c => isSegmentChar c || c == '.'
  if (run.splitOn '.').getLast? = some [] then
    ofParts? (run.splitOn '.').dropLast ((t.drop run.length).takeWhile Char.isAlphanum)
  else none

/-- The text that the names of the standard library begin with. -/
def reservedStem : List Char := "java".toList

/-- Whether the name belongs to the standard library, which is not part of the graph. -/
def isReserved (n : QualifiedName) : Bool := reservedStem.isPrefixOf n.chars

/-- The distinct names of the list in order. -/
def sortDistinct (ns : List QualifiedName) : List QualifiedName :=
  (ns.mergeSort fun m n => (compare m n).isLE).eraseReps

theorem ofParts?_eq_some_iff {package : List (List Char)} {simple : List Char}
    {n : QualifiedName} :
    ofParts? package simple = some n ↔ n.package = package ∧ n.simple = simple := by
  constructor
  · intro h
    simp only [ofParts?] at h
    split at h
    · cases h
      exact ⟨rfl, rfl⟩
    · simp at h
  · rintro ⟨rfl, rfl⟩
    simp [ofParts?, n.package_ne_nil, n.isSegment_package, n.isSimpleName_simple]

/-- No segment of a name holds a dot. -/
theorem dot_not_mem {n : QualifiedName} {s : List Char} (hs : s ∈ n.segments) : '.' ∉ s := by
  intro hd
  rcases List.mem_append.mp hs with hp | hp
  · have h := List.all_eq_true.mp n.isSegment_package s hp
    simp only [isSegment, Bool.and_eq_true, List.all_eq_true] at h
    exact absurd (h.2 _ hd) (by decide)
  · obtain rfl := List.mem_singleton.mp hp
    have h := n.isSimpleName_simple
    generalize n.simple = t at h hd
    cases t with
    | nil => simp at hd
    | cons c cs =>
      simp only [isSimpleName, Bool.and_eq_true, List.all_eq_true] at h
      rcases List.mem_cons.mp hd with rfl | hd
      · exact absurd h.1 (by decide)
      · exact absurd (h.2 _ hd) (by decide)

/-- Splitting the text of a name at its dots gives back its segments. -/
theorem splitOn_chars (n : QualifiedName) : n.chars.splitOn '.' = n.segments :=
  List.splitOn_intercalate '.' (fun _ hs => dot_not_mem hs) (by simp [segments])

theorem toList_text (n : QualifiedName) : n.text.toList = n.chars := String.toList_ofList

@[simp] theorem ofChars?_chars (n : QualifiedName) : ofChars? n.chars = some n := by
  simp [ofChars?, splitOn_chars, segments, ofParts?_eq_some_iff]

@[simp] theorem parse?_text (n : QualifiedName) : parse? n.text = some n := by
  simp [parse?, text]

theorem ext_chars {m n : QualifiedName} (h : m.chars = n.chars) : m = n := by
  have := congrArg ofChars? h
  simpa using this

end QualifiedName

/-- The simple name that the text begins with, at its full length. -/
def simpleNameAtStart? (t : List Char) : Option (List Char) :=
  let run := t.takeWhile Char.isAlphanum
  if isSimpleName run then some run else none

end ReferenceGraph
