import ReferenceGraph.Command.Run
import ReferenceGraph.Proofs.Analysis.Meaning
import ReferenceGraph.Proofs.Tree.Scan
import ReferenceGraph.Proofs.Tree.Walk

/-!
# How a run ends

A run reads its arguments, analyses a tree, and delivers the graph that it has found. It ends with
the first of these that fails, and only the last of them has an effect: it prints the graph, or it
writes it to a file of the tree. So a run that fails has printed no graph and changed nothing.

* `FileTree.Performs`: the four ends of a run with some options, and `performs_perform`.
* `FileTree.Fails`: what makes a run fail.
* `failed_run_delivers_nothing`: the statement for every tree and every command line.
-/

namespace ReferenceGraph

/-- The ends of a run with these options. -/
inductive FileTree.Performs (t : FileTree) (o : Options) (elapsed : String) : Outcome → Prop
  /-- The root cannot be scanned. -/
  | unscanned {e : ScanError} (hscan : t.scan o.root = .error e) :
    Performs t o elapsed ⟨o.failed (t.analyze o.root o.kind).events (.analysis o.root e), t⟩
  /-- The graph is printed. -/
  | printed {g : Graph} (hgraph : (t.analyze o.root o.kind).outcome = .ok g)
    (houtput : o.output = none) :
    Performs t o elapsed
      ⟨o.succeeded ((t.analyze o.root o.kind).events ++ [.finished elapsed]) (o.graphText g), t⟩
  /-- The graph cannot be written to the file. -/
  | unwritten {g : Graph} {out : Path} {e : PathError}
    (hgraph : (t.analyze o.root o.kind).outcome = .ok g) (houtput : o.output = some out)
    (hwrite : t.write out (Utf8.encodeString (o.graphText g)) = .error e) :
    Performs t o elapsed ⟨o.failed (t.analyze o.root o.kind).events (.output out e), t⟩
  /-- The graph is written to the file. -/
  | written {g : Graph} {out : Path} {t' : FileTree}
    (hgraph : (t.analyze o.root o.kind).outcome = .ok g) (houtput : o.output = some out)
    (hwrite : t.write out (Utf8.encodeString (o.graphText g)) = .ok t') :
    Performs t o elapsed
      ⟨o.succeeded ((t.analyze o.root o.kind).events ++ [.wrote out, .finished elapsed]) "", t'⟩

namespace FileTree

theorem run_eq_perform (t : FileTree) {args : List String} {o : Options}
    (hargs : Options.ofArguments args = .ok o) (elapsed : String) :
    t.run args elapsed = t.perform o elapsed := by
  rw [run, hargs]

/-- A run that finds a graph and can write it into the file that it was given does this, and has no
other effect. -/
theorem perform_of_write {t t' : FileTree} {o : Options} {out : Path}
    (hout : o.output = some out) {g : Graph} (hgraph : (t.analyze o.root o.kind).outcome = .ok g)
    (hwrite : t.write out (Utf8.encodeString (o.graphText g)) = .ok t') (elapsed : String) :
    t.perform o elapsed =
      ⟨o.succeeded ((t.analyze o.root o.kind).events ++ [.wrote out, .finished elapsed]) "",
        t'⟩ := by
  simp only [perform, Options.delivery?, Options.conclude, hgraph, hout, deliver, hwrite]

theorem performs_perform (t : FileTree) (o : Options) (elapsed : String) :
    t.Performs o elapsed (t.perform o elapsed) := by
  rcases analyze_cases t o.root with ⟨e, hscan, houtcome⟩ | ⟨files, -, houtcome⟩
  · simp only [perform, Options.delivery?, Options.conclude, houtcome, deliver]
    exact .unscanned hscan
  · obtain ⟨g, hgraph, -⟩ := houtcome o.kind
    cases houtput : o.output with
    | none =>
      simp only [perform, Options.delivery?, Options.conclude, hgraph, houtput, deliver]
      exact .printed hgraph houtput
    | some out =>
      cases hwrite : t.write out (Utf8.encodeString (o.graphText g)) with
      | error e =>
        simp only [perform, Options.delivery?, Options.conclude, hgraph, houtput, deliver, hwrite]
        exact .unwritten hgraph houtput hwrite
      | ok t' =>
        rw [perform_of_write houtput hgraph hwrite]
        exact .written hgraph houtput hwrite

/-- A run with these options cannot deliver a graph: the root cannot be scanned, or the file for the
graph cannot be written. -/
def FailsWith (t : FileTree) (o : Options) : Prop :=
  (∃ e, t.scan o.root = .error e) ∨
    ∃ out g e, o.output = some out ∧ (t.analyze o.root o.kind).outcome = .ok g ∧
      t.write out (Utf8.encodeString (o.graphText g)) = .error e

/-- A run with these arguments fails: they are in error, or the run that they ask for cannot deliver
a graph. -/
def Fails (t : FileTree) (args : List String) : Prop :=
  (∃ e, Options.ofArguments args = .error (.usage e)) ∨
    ∃ o, Options.ofArguments args = .ok o ∧ t.FailsWith o

theorem exists_scan {t : FileTree} {root : Path} {kind : Granularity} {g : Graph}
    (h : (t.analyze root kind).outcome = .ok g) : ∃ files, t.scan root = .ok files := by
  rcases analyze_cases t root with ⟨e, -, houtcome⟩ | ⟨files, hscan, -⟩
  · cases h.symm.trans (houtcome kind)
  · exact ⟨files, hscan⟩

theorem exitCode_perform (t : FileTree) (o : Options) (elapsed : String) :
    ((t.perform o elapsed).printed.exitCode ≠ 0 ↔ t.FailsWith o) ∧
      ((t.perform o elapsed).printed.exitCode ≠ 0 →
        (t.perform o elapsed).printed.stdout = "" ∧ (t.perform o elapsed).tree = t) := by
  have h := t.performs_perform o elapsed
  generalize t.perform o elapsed = outcome at h
  cases h with
  | unscanned hscan =>
    exact ⟨iff_of_true Nat.one_ne_zero (.inl ⟨_, hscan⟩), fun _ => ⟨rfl, rfl⟩⟩
  | unwritten hgraph houtput hwrite =>
    refine ⟨iff_of_true Nat.one_ne_zero (.inr ⟨_, _, _, houtput, hgraph, hwrite⟩), ?_⟩
    exact fun _ => ⟨rfl, rfl⟩
  | printed hgraph houtput =>
    refine ⟨iff_of_false (fun h => h rfl) ?_, fun h => absurd rfl h⟩
    rintro (⟨e, hscan⟩ | ⟨out, g, e, hout, -⟩)
    · obtain ⟨files, hfiles⟩ := exists_scan hgraph
      cases hscan.symm.trans hfiles
    · cases houtput.symm.trans hout
  | written hgraph houtput hwrite =>
    refine ⟨iff_of_false (fun h => h rfl) ?_, fun h => absurd rfl h⟩
    rintro (⟨e, hscan⟩ | ⟨out, g, e, hout, hgraph', hwrite'⟩)
    · obtain ⟨files, hfiles⟩ := exists_scan hgraph
      cases hscan.symm.trans hfiles
    · obtain rfl := Option.some.inj (houtput.symm.trans hout)
      obtain rfl := Except.ok.inj (hgraph.symm.trans hgraph')
      cases hwrite.symm.trans hwrite'

end FileTree

/-- A run fails exactly if its arguments are in error, its root cannot be scanned, or its output
file cannot be written; all other runs have the exit code zero. A run that fails prints nothing on
the standard output and leaves the tree as it is, so every file, link and directory is the same, and
no output file has been made or emptied. -/
theorem failed_run_delivers_nothing (t : FileTree) (args : List String) (elapsed : String) :
    ((t.run args elapsed).printed.exitCode ≠ 0 ↔ t.Fails args) ∧
      ((t.run args elapsed).printed.exitCode ≠ 0 →
        (t.run args elapsed).printed.stdout = "" ∧ (t.run args elapsed).tree = t) := by
  unfold FileTree.run FileTree.Fails
  cases hargs : Options.ofArguments args with
  | error stop => cases stop <;> simp [Stop.printed]
  | ok o => simpa using t.exitCode_perform o elapsed

/-- A source file, a directory, and a link to a file that is missing. -/
def outputs : FileTree where
  entries := [
    (Utf8.encodeString "A.java", .file (Utf8.encodeString "x.B b;")),
    (Utf8.encodeString "d", .dir []),
    (Utf8.encodeString "o", .link (.ofString "g.dot"))]
  working := []

theorem wellFormed_outputs : outputs.WellFormed := by
  refine .dir (by decide) (by decide) ?_
  simp only [outputs, List.forall_mem_cons]
  exact ⟨.file _, Entry.WellFormed.dir_nil, .link _, by simp⟩

theorem outcome_outputs (kind : Granularity) :
    ∃ g, (outputs.analyze ⟨FileName.here⟩ kind).outcome = .ok g :=
  ⟨_, FileTree.outcome_of_scan (FileTree.scan_here rfl) kind⟩

/-- A directory cannot be written, so this run fails after its analysis. -/
theorem failed_run_onto_directory :
    (outputs.run ["-o", "d"] "").printed.exitCode ≠ 0 ∧
      (outputs.run ["-o", "d"] "").printed.stdout = "" ∧
      (outputs.run ["-o", "d"] "").tree = outputs := by
  have hplace : outputs.resolve .create (.ofString "d") =
      .ok (.entry [Utf8.encodeString "d"] (.dir [])) := by
    rw [Path.ofString, FileTree.resolve_name _ _ (by decide +kernel) (by decide +kernel)]
    exact walk_names (by decide +kernel) rfl (by simp)
  have hwrite (content : Bytes) : outputs.write (.ofString "d") content = .error .isDirectory := by
    rw [FileTree.write, hplace]
  have hargs : Options.ofArguments ["-o", "d"] =
    .ok ⟨⟨FileName.here⟩, .packages, .dot, some (.ofString "d"), .warn⟩ := rfl
  obtain ⟨g, hgraph⟩ := outcome_outputs .packages
  obtain ⟨hfails, hnothing⟩ := failed_run_delivers_nothing outputs ["-o", "d"] ""
  have hexit := hfails.mpr (.inr ⟨_, hargs, .inr ⟨_, g, _, rfl, hgraph, hwrite _⟩⟩)
  exact ⟨hexit, hnothing hexit⟩

end ReferenceGraph
