import ReferenceGraph.Proofs.Analysis.Meaning
import ReferenceGraph.Proofs.Graph.Growth
import ReferenceGraph.Proofs.Tree.Scan
import ReferenceGraph.Proofs.Tree.Walk

/-!
# The log of an analysis

An analysis reports one event for each scanned file, that it has been read or that it is left out,
and after it one event for each edge that the file adds to the graph. So the log accounts for the
graph: the edges in the log are those of the graph, in their order, and the numbers at the beginning
and at the end of the log are those of its events.

* `Event.tellsEdge`, `Event.tellsFile`: the events about an edge and about a file, by their severity
  and origin.
* `FileTree.verdict`, `FileTree.reports`: the event about a file, and all that is reported about
  files, in terms of the edges that the files have.
* `collect_load_cons`: the step, one file in front of others. `collect_accounts` and
  `events_collect_load` are the runs.
* `log_accounts_for_graph`: the statement for every tree, root and granularity.
-/

namespace ReferenceGraph

/-! ## Events -/

namespace Event

/-- What the collection of edges reports of a single edge. Nothing else that it reports has this
severity. -/
def tellsEdge (e : Event) : Bool := e.level = .debug ∧ e.origin = "javadeps::core::analyzer"

/-- What is reported of a file that is left out. The warnings about directories that are left out
come from the scanner. -/
def skips (e : Event) : Bool := e.level = .warn ∧ e.origin = "javadeps::core::analyzer"

/-- What is reported of a file that has been read. -/
def traces (e : Event) : Bool := e.level = .trace

/-- What is reported of a single file. -/
def tellsFile (e : Event) : Bool := e.skips || e.traces

@[simp] theorem tellsEdge_added (e : Edge) : (added e).tellsEdge = true := rfl

@[simp] theorem skips_added (e : Edge) : (added e).skips = false := rfl

@[simp] theorem traces_added (e : Edge) : (added e).traces = false := rfl

@[simp] theorem tellsFile_added (e : Edge) : (added e).tellsFile = false := rfl

/-- What is reported of a scan is about no single edge or file. -/
theorem not_tells_of_mem_scanEvents {e : Event} {root : Path} {unlisted : List (Path × PathError)}
    {n : Nat} (he : e ∈ scanEvents root unlisted n) :
    e.tellsEdge = false ∧ e.skips = false ∧ e.traces = false := by
  rcases List.mem_append.mp he with he | he
  · rcases List.mem_cons.mp he with rfl | he
    · exact ⟨rfl, rfl, rfl⟩
    · obtain ⟨u, -, rfl⟩ := List.mem_map.mp he
      exact ⟨rfl, rfl, rfl⟩
  · rcases List.mem_pair.mp he with rfl | rfl
    · exact ⟨rfl, rfl, rfl⟩
    · exact ⟨rfl, rfl, rfl⟩

/-- An event about a file is none about an edge. -/
theorem tellsEdge_of_tellsFile {e : Event} (h : e.tellsFile = true) : e.tellsEdge = false := by
  cases e with
  | skipped => rfl
  | summarized => rfl
  | _ => cases h

section Between

variable {p : Event → Bool} {first last : List Event}

/-- Events at both ends do not count if there are none of the wanted ones among them. -/
theorem filter_between (hfirst : first.filter p = []) (hlast : last.filter p = [])
    (es : List Event) : (first ++ es ++ last).filter p = es.filter p := by
  rw [List.filter_append, List.filter_append, hfirst, hlast, List.append_nil, List.nil_append]

theorem countP_between (hfirst : first.filter p = []) (hlast : last.filter p = [])
    (es : List Event) : (first ++ es ++ last).countP p = es.countP p := by
  rw [List.countP_eq_length_filter, filter_between hfirst hlast, List.countP_eq_length_filter]

end Between

end Event

/-! ## One file -/

namespace FileTree

variable (t : FileTree)

/-- What is reported of a scanned file itself: it has been read, or it is left out. -/
def verdict (f : SourceFile) : Event :=
  match t.read f.path with
  | .error e => .skipped (.unreadable f.path e)
  | .ok source =>
    match summarize f.relative source with
    | .error e => .skipped e
    | .ok s => .summarized s

/-- A file is left out and has no edges, or it is read and its edges are submitted. -/
theorem extract_load (b : Builder) (f : SourceFile) :
    (∃ e, t.verdict f = .skipped e ∧ t.edgesOf b.kind f = [] ∧
        extract b f (t.load f).content = .error e) ∨
      ∃ s, t.verdict f = .summarized s ∧
        extract b f (t.load f).content =
          .ok ⟨s, (b.submitAll (t.edgesOf b.kind f)).2, (b.submitAll (t.edgesOf b.kind f)).1⟩ := by
  unfold verdict edgesOf load extract extractAs summarize
  cases t.read f.path with
  | error e => exact .inl ⟨_, rfl, rfl, rfl⟩
  | ok source =>
    cases f.relative.dottedName? with
    | none => exact .inl ⟨_, rfl, rfl, rfl⟩
    | some name => exact .inr ⟨_, rfl, rfl⟩

/-- The verdict on a file is a warning or a trace, and not both. -/
theorem skips_verdict (f : SourceFile) : (t.verdict f).skips = !(t.verdict f).traces := by
  unfold verdict
  split
  · rfl
  · split <;> rfl

@[simp] theorem tellsFile_verdict (f : SourceFile) : (t.verdict f).tellsFile = true := by
  rw [Event.tellsFile, skips_verdict, Bool.not_or_self]

@[simp] theorem tellsEdge_verdict (f : SourceFile) : (t.verdict f).tellsEdge = false :=
  Event.tellsEdge_of_tellsFile (t.tellsFile_verdict f)

/-- What is reported of the files, when the edges of the files before them are `earlier`. -/
def reports (kind : Granularity) : List Edge → List SourceFile → List Event
  | _, [] => []
  | earlier, f :: fs =>
    t.verdict f :: (newEdges earlier (t.edgesOf kind f)).map .added ++
      reports kind (earlier ++ t.edgesOf kind f) fs

end FileTree

/-! ## Many files -/

section Collect

variable (t : FileTree)

/-- One file in front of others: its verdict, its new edges, and what the others give after it. -/
theorem collect_load_cons (b : Builder) (f : SourceFile) (fs : List SourceFile) :
    let submitted := b.submitAll (t.edgesOf b.kind f)
    let rest := collect submitted.1 (fs.map t.load)
    collect b ((f :: fs).map t.load) =
      { rest with
        skipped := rest.skipped + if (t.verdict f).skips then 1 else 0
        events := t.verdict f :: submitted.2.map .added ++ rest.events } := by
  intro submitted rest
  have hfile : (t.load f).file = f := rfl
  rcases t.extract_load b f with ⟨e, hverdict, hnone, he⟩ | ⟨s, hverdict, hs⟩
  · have hsubmitted : submitted = (b, []) := congrArg b.submitAll hnone
    simp only [rest, hsubmitted, List.map_cons, collect, hfile, he, hverdict]
    rfl
  · simp only [rest, submitted, List.map_cons, collect, hfile, hs, hverdict]
    rfl

/-- What has been reported of the files accounts for what has been collected from them. -/
theorem collect_accounts (b : Builder) (files : List SourceFile) :
    let c := collect b (files.map t.load)
    c.builder.graph.edges.map .added =
        b.graph.edges.map .added ++ c.events.filter Event.tellsEdge ∧
      c.events.filter Event.tellsFile = files.map t.verdict ∧
      c.events.countP Event.skips = c.skipped ∧
      c.events.countP Event.skips + c.events.countP Event.traces = files.length := by
  induction files generalizing b with
  | nil => exact ⟨(List.append_nil _).symm, rfl, rfl, rfl⟩
  | cons f files ih =>
    obtain ⟨hedges, hfiles, hskipped, hcount⟩ := ih (b.submitAll (t.edgesOf b.kind f)).1
    have hgrown := (b.extends_submitAll (t.edgesOf b.kind f)).edges
    rw [collect_load_cons]
    refine ⟨?_, ?_, ?_, ?_⟩
    · simp [hedges, hgrown, List.filter_map, Function.comp_def]
    · simp [hfiles, List.filter_map, Function.comp_def]
    · simp [hskipped, List.countP_cons, Function.comp_def]
    · have hone := t.skips_verdict f
      simp only [List.cons_append, List.countP_cons, List.countP_append, List.countP_map,
        Function.comp_def, Event.skips_added, Event.traces_added, List.countP_false, hone]
      cases (t.verdict f).traces <;> simp <;> omega

/-- The events about files in terms of the files. -/
theorem events_collect_load {b : Builder} (hb : b.WellFormed) {earlier : List Edge}
    (h : b.graph.edges = earlier.eraseDups) (files : List SourceFile) :
    (collect b (files.map t.load)).events = t.reports b.kind earlier files := by
  induction files generalizing b earlier with
  | nil => rfl
  | cons f files ih =>
    obtain ⟨hb', hedges, -, hkind⟩ := hb.submitAll (t.edgesOf b.kind f)
    have hearlier : (b.submitAll (t.edgesOf b.kind f)).1.graph.edges =
        (earlier ++ t.edgesOf b.kind f).eraseDups := by
      rw [hedges, h, eraseDups_append_congr (eraseDups_eraseDups _)]
    rw [collect_load_cons, FileTree.reports, hb.submitAll_snd, h, newEdges_eraseDups,
      ih hb' hearlier, hkind]

end Collect

/-! ## The whole log -/

section Analysis

variable {t : FileTree} {root : Path} {kind : Granularity} {g : Graph}

/-- The log of an analysis that has a graph is what was reported of the scanned files, after what
was reported of the scan and before one more event. -/
theorem events_of_outcome (h : (t.analyze root kind).outcome = .ok g) :
    ∃ files, t.scan root = .ok files ∧
      let c := collect (.empty kind) (files.map t.load)
      c.builder.graph = g ∧
        (t.analyze root kind).events =
          scanEvents root (t.unlisted root) files.length ++ c.events ++
            [.collected g.edges.length kind g.ids.length c.skipped] := by
  rcases analyze_cases t root with ⟨e, -, houtcome⟩ | ⟨files, hscan, -⟩
  · cases h.symm.trans (houtcome kind)
  · rw [FileTree.analyze, hscan] at h ⊢
    refine ⟨files, rfl, Except.ok.inj h, ?_⟩
    rw [← Except.ok.inj h, Graph.length_edges, Graph.length_ids]
    simp only [Except.map, analyzeFiles, List.length_map]

/-- The log of an analysis that has a graph. It begins with the root, the directories that the scan
has left out and, twice, the number of the scanned files. Then comes the verdict on each of them in
the order of the scan, directly followed by those edges of the file that no file before it has; a
file that is left out has none. It ends with the numbers of edges and nodes of the graph and the
number of files that were left out. All the edges in the log are the edges of the graph in their
order, and the files that were left out and those that were read are as many as the scanned
files. -/
theorem log_accounts_for_graph (h : (t.analyze root kind).outcome = .ok g) :
    ∃ files, t.scan root = .ok files ∧
      let log := (t.analyze root kind).events
      log = .scanning root :: (t.unlisted root).map (fun (path, cause) => .unlisted path cause) ++
          [.scanned files.length root, .found files.length] ++ t.reports kind [] files ++
          [.collected g.edges.length kind g.ids.length (log.countP Event.skips)] ∧
        (∀ f ∈ files, (t.verdict f).skips = true → t.edgesOf kind f = [] ∧
          ∃ cause : FileError, (t.verdict f).message = s!"Skipping file: {cause.message}") ∧
        log.filter Event.tellsEdge = g.edges.map .added ∧
        (log.filter Event.tellsEdge).map Event.message =
          g.edges.map (fun e => s!"new edge {e.source} -> {e.target}") ∧
        log.filter Event.tellsFile = files.map t.verdict ∧
        log.countP Event.skips + log.countP Event.traces = files.length := by
  obtain ⟨files, hscan, rfl, hlog⟩ := events_of_outcome h
  obtain ⟨hedges, hfiles, hskips, hcount⟩ := collect_accounts t (.empty kind) files
  have hreports : (collect (.empty kind) (files.map t.load)).events = t.reports kind [] files :=
    events_collect_load t (Builder.wellFormed_empty kind) rfl files
  -- The events at the beginning and at the end are about no single file or edge.
  have hfirst {p : Event → Bool}
      (hp : ∀ e, e.tellsEdge = false ∧ e.skips = false ∧ e.traces = false → ¬p e = true) :
      (scanEvents root (t.unlisted root) files.length).filter p = [] :=
    List.filter_eq_nil_iff.mpr fun e he => hp e (Event.not_tells_of_mem_scanEvents he)
  have hlogEdges : (t.analyze root kind).events.filter Event.tellsEdge =
      (collect (.empty kind) (files.map t.load)).builder.graph.edges.map .added := by
    rw [hlog, Event.filter_between (hfirst fun e he => by simp [he]) rfl, hedges]
    rfl
  have hlogFiles : (t.analyze root kind).events.filter Event.tellsFile = files.map t.verdict := by
    rw [hlog, Event.filter_between (hfirst fun e he => by simp [Event.tellsFile, he]) rfl, hfiles]
  have hlogSkips : (t.analyze root kind).events.countP Event.skips =
      (collect (.empty kind) (files.map t.load)).skipped := by
    rw [← hskips, hlog, Event.countP_between (hfirst fun e he => by simp [he]) rfl]
  have hlogTraces : (t.analyze root kind).events.countP Event.traces =
      (collect (.empty kind) (files.map t.load)).events.countP Event.traces := by
    rw [hlog, Event.countP_between (hfirst fun e he => by simp [he]) rfl]
  refine ⟨files, hscan, ?_, ?_, hlogEdges, ?_, hlogFiles, ?_⟩
  · rw [hlogSkips, ← hreports]
    exact hlog
  · intro f _ hf
    rcases t.extract_load (.empty kind) f with ⟨cause, hverdict, hnone, -⟩ | ⟨s, hverdict, -⟩
    · exact ⟨hnone, cause, by rw [hverdict]; rfl⟩
    · rw [hverdict] at hf
      cases hf
  · rw [hlogEdges, List.map_map]
    rfl
  · rw [hlogSkips, hlogTraces, ← hskips, hcount]

end Analysis

/-- A file that refers to a class twice, a link to a file that is missing, and a directory that
cannot be listed. -/
def brokenLink : FileTree where
  entries := [
    (Utf8.encodeString "A.java", .file (Utf8.encodeString "x.B b; x.B c;")),
    (Utf8.encodeString "L.java", .link (.ofString "gone")),
    (Utf8.encodeString "u", .dir [(Utf8.encodeString "D.java", .file [])])]
  working := []
  unlistable := [([Utf8.encodeString "u"], .permissionDenied)]

/-- The source file with this name in `brokenLink`. -/
def brokenLinkFile (name : FileName) : SourceFile :=
  ⟨(Path.mk FileName.here).join [name], ⟨name⟩⟩

theorem findings_brokenLink :
    (Entry.dir brokenLink.entries).findings (brokenLink.refusalBelow brokenLink.working) =
      [.file [Utf8.encodeString "A.java"], .file [Utf8.encodeString "L.java"],
        .unlistable [Utf8.encodeString "u"] .permissionDenied] := by
  have hroot : brokenLink.refusalBelow brokenLink.working [] = none := by decide +kernel
  have hu : brokenLink.refusalBelow brokenLink.working [Utf8.encodeString "u"] =
    some .permissionDenied := by decide +kernel
  rw [Entry.findings_dir hroot, inNameOrder, brokenLink, findingsOfEach, findingsOfEach,
    findingsOfEach, findingsOfEach, Entry.findings, Entry.findings, Entry.findings_of_refusal hu,
    List.mergeSort_of_pairwise (by decide)]
  rfl

theorem scan_brokenLink :
    brokenLink.scan ⟨FileName.here⟩ =
      .ok [brokenLinkFile (Utf8.encodeString "A.java"),
        brokenLinkFile (Utf8.encodeString "L.java")] := by
  have hA : FileName.isSource (Utf8.encodeString "A.java") = true := by decide
  have hL : FileName.isSource (Utf8.encodeString "L.java") = true := by decide
  rw [FileTree.scan_here (t := brokenLink) rfl, sourceFiles, sourcesBelow, findings_brokenLink]
  simp [Finding.source?, hA, hL, brokenLinkFile, Path.ofNames]

theorem unlisted_brokenLink :
    brokenLink.unlisted ⟨FileName.here⟩ = [(.ofString "./u", .permissionDenied)] := by
  rw [FileTree.unlisted_here (t := brokenLink) rfl, refusedBelow, findings_brokenLink]
  decide +kernel

theorem read_brokenLink_link :
    brokenLink.read (brokenLinkFile (Utf8.encodeString "L.java")).path = .error .notFound := by
  have hsteps : (brokenLinkFile (Utf8.encodeString "L.java")).path.steps =
    [FileName.here, Utf8.encodeString "L.java"] := by decide
  have htarget : (Path.ofString "gone").steps = [Utf8.encodeString "gone"] := by decide
  have hlink : brokenLink.entries.lookup (Utf8.encodeString "L.java") =
    some (.link (.ofString "gone")) := rfl
  have hstart : brokenLink.start (brokenLinkFile (Utf8.encodeString "L.java")).path = [] :=
    if_neg (by decide)
  have hdir : brokenLink.top.at? [] = some (.dir brokenLink.entries) := rfl
  rw [FileTree.read, FileTree.resolve, if_neg (by decide), if_neg (by decide), hsteps, hstart,
    walk_stay hdir (by decide), linkLimit,
    walk_link hdir (by decide) (by decide) (by decide) (by decide) hlink (by decide),
    if_neg (by decide), htarget, List.append_nil,
    walk_missing hdir (by decide) (by decide) rfl]

theorem read_brokenLink_file :
    brokenLink.read (brokenLinkFile (Utf8.encodeString "A.java")).path =
      .ok (Utf8.encodeString "x.B b; x.B c;") :=
  FileTree.read_join (t := brokenLink) (FileTree.resolve_here rfl .follow) (by decide) (by decide)
    (by decide) rfl

theorem dottedName?_brokenLink :
    (brokenLinkFile (Utf8.encodeString "A.java")).relative.dottedName? = some "A" := by
  decide

theorem edgesOf_brokenLink_file :
    brokenLink.edgesOf .packages (brokenLinkFile (Utf8.encodeString "A.java")) =
      [⟨"A", "x"⟩, ⟨"A", "x"⟩] := by
  rw [FileTree.edgesOf, read_brokenLink_file, dottedName?_brokenLink]
  decide

theorem edgesOf_brokenLink_link :
    brokenLink.edgesOf .packages (brokenLinkFile (Utf8.encodeString "L.java")) = [] :=
  FileTree.edgesOf_of_error read_brokenLink_link _

/-- The edge of the file is in the graph once. -/
theorem outcome_brokenLink :
    ∃ g, (brokenLink.analyze ⟨FileName.here⟩ .packages).outcome = .ok g ∧
      g.edges = [⟨"A", "x"⟩] ∧ g.ids = ["A", "x"] := by
  have hgraph := FileTree.outcome_of_scan scan_brokenLink .packages
  rw [List.flatMap_cons, List.flatMap_cons, edgesOf_brokenLink_file, edgesOf_brokenLink_link]
    at hgraph
  have hrep := represents_submitAll .packages [⟨"A", "x"⟩, ⟨"A", "x"⟩]
  exact ⟨_, hgraph, hrep.edges.trans (by decide), hrep.ids.trans (by decide)⟩

/-- The edge is reported once, and the link and the directory are left out with a warning each, but
only the link is a file. -/
theorem log_of_broken_link :
    ∃ g s, (brokenLink.analyze ⟨FileName.here⟩ .packages).outcome = .ok g ∧
      g.edges = [⟨"A", "x"⟩] ∧ g.ids = ["A", "x"] ∧
      (brokenLink.analyze ⟨FileName.here⟩ .packages).events =
        [.scanning ⟨FileName.here⟩, .unlisted (.ofString "./u") .permissionDenied,
          .scanned 2 ⟨FileName.here⟩, .found 2, .summarized s, .added ⟨"A", "x"⟩,
          .skipped (.unreadable ⟨Utf8.encodeString "./L.java"⟩ .notFound),
          .collected 1 .packages 2 1] := by
  obtain ⟨g, hgraph, hedges, hids⟩ := outcome_brokenLink
  obtain ⟨files, hscan, hlog, -⟩ := log_accounts_for_graph hgraph
  obtain rfl := Except.ok.inj (scan_brokenLink.symm.trans hscan)
  have hlink : brokenLink.verdict (brokenLinkFile (Utf8.encodeString "L.java")) =
      .skipped (.unreadable ⟨Utf8.encodeString "./L.java"⟩ .notFound) := by
    rw [FileTree.verdict, read_brokenLink_link]
    rfl
  obtain ⟨s, hfile⟩ : ∃ s, brokenLink.verdict (brokenLinkFile (Utf8.encodeString "A.java")) =
      .summarized s := by
    simp only [FileTree.verdict, read_brokenLink_file, summarize, dottedName?_brokenLink]
    exact ⟨_, rfl⟩
  have hreports : brokenLink.reports .packages []
      [brokenLinkFile (Utf8.encodeString "A.java"), brokenLinkFile (Utf8.encodeString "L.java")] =
        [.summarized s, .added ⟨"A", "x"⟩,
          .skipped (.unreadable ⟨Utf8.encodeString "./L.java"⟩ .notFound)] := by
    simp only [FileTree.reports, hlink, hfile, edgesOf_brokenLink_file, edgesOf_brokenLink_link]
    rfl
  rw [hreports, unlisted_brokenLink, hedges, hids] at hlog
  have hskips : (brokenLink.analyze ⟨FileName.here⟩ .packages).events.countP Event.skips = 1 :=
    (congrArg _ hlog).trans rfl
  rw [hskips] at hlog
  exact ⟨g, s, hgraph, hedges, hids, hlog⟩

end ReferenceGraph
