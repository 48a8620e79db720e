import ReferenceGraph.Proofs.Analysis.Rewritten
import ReferenceGraph.Proofs.Command.Runs

/-!
# Running the command again

A run writes the graph of a tree into this tree, so the next run analyses another tree. It does the
same all the same, if the file that was written is not one of those that it reads: it writes what is
already there.

* `written_of_exitCode`: what a run that succeeds has written.
* `repeated_run_stable`: two runs in a row.
-/

namespace ReferenceGraph

namespace FileTree

variable {t : FileTree} {o : Options} {out : Path} {elapsed : String}

/-- A run that succeeds has found a graph, and has written it into the file that it was given. -/
theorem written_of_exitCode (hout : o.output = some out)
    (hexit : (t.perform o elapsed).printed.exitCode = 0) :
    ∃ g, (t.analyze o.root o.kind).outcome = .ok g ∧
      t.write out (Utf8.encodeString (o.graphText g)) = .ok (t.perform o elapsed).tree := by
  have h := t.performs_perform o elapsed
  generalize t.perform o elapsed = outcome at h hexit
  cases h with
  | unscanned => exact absurd hexit Nat.one_ne_zero
  | printed _ hnone => cases hout.symm.trans hnone
  | unwritten => exact absurd hexit Nat.one_ne_zero
  | written hgraph hout' hwrite =>
    obtain rfl := Option.some.inj (hout.symm.trans hout')
    exact ⟨_, hgraph, hwrite⟩

end FileTree

theorem Options.delivery?_eq {o : Options} {out : Path} (hout : o.output = some out) {a : Analysis}
    {g : Graph} (hgraph : a.outcome = .ok g) :
    o.delivery? a = some (out, Utf8.encodeString (o.graphText g)) := by
  rw [delivery?, hgraph, hout]

/-- A run that succeeds, and that has a file to write to, has written its delivery into the file
that the path leads to, which may have been made for it, and has changed nothing else in the tree.
If no path that a scan of the changed tree lists leads to this file, every further run with the same
arguments succeeds as well. It delivers the same content, prints nothing on the standard output and
leaves the tree as it is. -/
theorem repeated_run_stable {t t' : FileTree} (ht : t.WellFormed) {args : List String} {o : Options}
    {out : Path} {elapsed : String} {first : Printed} (hargs : Options.ofArguments args = .ok o)
    (hout : o.output = some out) (hrun : t.run args elapsed = ⟨first, t'⟩)
    (hexit : first.exitCode = 0) :
    ∃ place content, o.delivery? (t.analyze o.root o.kind) = some (out, content) ∧
      t.Target out place ∧ t.WrittenAt place content t' ∧
      (t'.ScanAvoids o.root place → ∀ elapsed', ∃ second,
        t'.run args elapsed' = ⟨second, t'⟩ ∧ second.exitCode = 0 ∧ second.stdout = "" ∧
          o.delivery? (t'.analyze o.root o.kind) = some (out, content)) := by
  rw [FileTree.run_eq_perform _ hargs] at hrun
  obtain ⟨g, hgraph, hwrite⟩ := t.written_of_exitCode hout (by rw [hrun]; exact hexit)
  rw [hrun] at hwrite
  obtain ⟨place, htarget, hwritten⟩ := FileTree.writtenAt_of_write hwrite
  refine ⟨place, _, Options.delivery?_eq hout hgraph, htarget, hwritten, fun havoid elapsed' => ?_⟩
  obtain ⟨files, hscan⟩ := FileTree.exists_scan hgraph
  have hgraph' : (t'.analyze o.root o.kind).outcome = .ok g :=
    (hwritten.outcome_analyze ht (ht.write hwrite) hscan havoid o.kind).trans hgraph
  have hagain := FileTree.perform_of_write hout hgraph' (hwritten.write_again htarget) elapsed'
  rw [← FileTree.run_eq_perform _ hargs] at hagain
  exact ⟨_, hagain, rfl, rfl, Options.delivery?_eq hout hgraph'⟩

/-! ## A run that writes through a link -/

/-- The name of the file that the link of `outputs` misses. -/
def missing : FileName := Utf8.encodeString "g.dot"

/-- What `outputs` becomes when this file is made. -/
def outputsWith (content : Bytes) : FileTree where
  entries := outputs.entries ++ [(missing, .file content)]
  working := []

/-- The way of the link goes on with the steps of its target. -/
theorem create_outputs_link :
    outputs.resolve .create (.ofString "o") = .ok (.vacant [missing]) := by
  have htarget : (Path.ofString "g.dot").steps = [missing] := by decide
  have hlink : outputs.entries.lookup (Utf8.encodeString "o") =
    some (.link (.ofString "g.dot")) := rfl
  rw [Path.ofString, FileTree.resolve_link (by simp) (by decide) (by decide) rfl
    hlink (by decide), if_neg (by decide), htarget]
  exact walk_vacant rfl (by decide) (by decide) rfl

theorem write_outputs_link (content : Bytes) :
    outputs.write (.ofString "o") content = .ok (outputsWith content) := by
  rw [FileTree.write, create_outputs_link]
  rfl

theorem sourcesBelow_outputsWith (content : Bytes) :
    sourcesBelow ((outputsWith content).refusalBelow (outputsWith content).working)
      (outputsWith content).entries = [[Utf8.encodeString "A.java"]] := by
  have hsource : FileName.isSource (Utf8.encodeString "A.java") = true := by decide
  have hlink : ¬FileName.isSource (Utf8.encodeString "o") = true := by decide
  have hmissing : ¬FileName.isSource missing = true := by decide
  have hperm (found : List (FileName × List Finding)) :
      ((inNameOrder found).filterMap Finding.source?).Perm
        ((found.flatMap (·.2)).filterMap Finding.source?) :=
    ((List.mergeSort_perm found _).flatMap_right _).filterMap _
  rw [sourcesBelow, Entry.findings_dir rfl]
  refine List.perm_singleton.mp ((hperm _).trans (.of_eq ?_))
  simp [outputsWith, outputs, findingsOfEach, Entry.findings, inNameOrder, Finding.under,
    Finding.source?, FileTree.refusalBelow, FileTree.refusal?, hsource, hlink, hmissing]

/-- In the current directory, no source file is the one that the link leads to. -/
theorem scanAvoids_outputsWith (content : Bytes) :
    (outputsWith content).ScanAvoids ⟨FileName.here⟩ [missing] := by
  intro files hscan f hf e he
  rw [FileTree.scan_here rfl, sourceFiles, sourcesBelow_outputsWith] at hscan
  obtain rfl := Except.ok.inj hscan
  obtain rfl := List.mem_singleton.mp hf
  have hroot := FileTree.resolve_here (t := outputsWith content) rfl .follow
  have hplace := FileTree.resolve_join hroot (l := [Utf8.encodeString "A.java"])
    (by decide) (by decide) (by simp) rfl (by simp)
  obtain ⟨hname, -⟩ := Place.entry.inj (Except.ok.inj (he.symm.trans hplace))
  have hne : ¬[missing] = [Utf8.encodeString "A.java"] := by decide
  exact hne hname

/-- The options that a command line chooses with the link for its output. -/
def intoLink : Options where
  root := ⟨FileName.here⟩
  kind := .packages
  format := .dot
  output := some (.ofString "o")
  logLevel := .warn

/-- The first run makes the file that the link leads to, and the second run leaves the tree as it
is. -/
theorem repeated_run_through_link :
    ∃ content first second, outputs.run ["-o", "o"] "" = ⟨first, outputsWith content⟩ ∧
      first.exitCode = 0 ∧ (outputsWith content).ScanAvoids intoLink.root [missing] ∧
      (outputsWith content).run ["-o", "o"] "" = ⟨second, outputsWith content⟩ ∧
      second.exitCode = 0 := by
  have hargs : Options.ofArguments ["-o", "o"] = .ok intoLink := rfl
  obtain ⟨g, hgraph⟩ := outcome_outputs .packages
  have hfirst := outputs.run_eq_perform hargs ""
  rw [FileTree.perform_of_write rfl hgraph (write_outputs_link _)] at hfirst
  obtain ⟨place, _, -, htarget, -, hagain⟩ :=
    repeated_run_stable wellFormed_outputs hargs rfl hfirst rfl
  obtain rfl := htarget.unique (.inl create_outputs_link)
  have havoid := scanAvoids_outputsWith (Utf8.encodeString (intoLink.graphText g))
  obtain ⟨second, hsecond, hexit, -⟩ := hagain havoid ""
  exact ⟨_, _, second, hfirst, rfl, havoid, hsecond, hexit⟩

end ReferenceGraph
