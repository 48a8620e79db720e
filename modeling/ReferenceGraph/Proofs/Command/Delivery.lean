import ReferenceGraph.Proofs.Command.Repeat

/-!
# What a run depends on

A run has many options, and only three of them matter for the graph that it delivers: the root, the
granularity and the format. Where the graph goes, how much is logged and how the arguments are
spelled have no influence on it. The graph is that of the tree before the run, also when the run
overwrites one of the files that it has read.

The level of the log decides which of the events of a run are seen, and not which there are
(`FileTree.report` does not look at it): those that are at least as severe.

* `Outcome.delivered?`: what a run has delivered, on the standard output or in a file.
* `FileTree.delivered_of_exitCode`: a run that succeeds has delivered the graph.
* `Level.AtLeast`: the order of the levels. `Level.admits_iff` says that a level admits what is at
  least as severe.
* `FileTree.stderr_perform`: what a run logs.
* `delivery_independent_of_options`: the statement for any two runs.
-/

namespace ReferenceGraph

/-! ## Reading what has been written -/

/-- A way on which the last name may be missing is a way like any other, if it leads to an entry. -/
theorem walk_follow_of_create {top : Entry} {links : Nat} {location : Location}
    {steps : List FileName} {place : Location} {e : Entry}
    (h : walk top .create links location steps = .ok (.entry place e)) :
    walk top .follow links location steps = .ok (.entry place e) := by
  fun_induction walk top .create links location steps with
  | case1 links location x hx =>
    rw [walk, hx]
    exact h
  | case6 links location name rest es he hstay ih =>
    rw [walk_stay he hstay]
    exact ih h
  | case7 links location rest es he _ ih =>
    rw [walk_above he]
    exact ih h
  | case14 location name rest es he hstay habove _ target hlink _ htarget links ih =>
    rw [walk_link he hstay habove (by simp) (by simp) hlink htarget]
    exact ih h
  | case15 links location name rest es he hstay habove _ e hlink hlookup ih =>
    rw [walk_entry he hstay habove (by simp) hlookup hlink]
    exact ih h
  | case11 _ _ _ _ _ _ _ _ _ _ _ hkeep => cases hkeep.1
  | _ => cases h

namespace FileTree

variable {t t' : FileTree} {p : Path} {content : Bytes}

theorem resolve_follow_of_create {place : Location} {e : Entry}
    (h : t.resolve .create p = .ok (.entry place e)) :
    t.resolve .follow p = .ok (.entry place e) := by
  obtain ⟨hzero, hnil, hwalk⟩ := resolve_eq_ok_iff.mp h
  exact resolve_eq_ok_iff.mpr ⟨hzero, hnil, walk_follow_of_create hwalk⟩

/-- What has been written through a path is read through it. -/
theorem read_of_write (h : t.write p content = .ok t') : t'.read p = .ok content := by
  obtain ⟨place, htarget, hwritten⟩ := writtenAt_of_write h
  rw [read, resolve_follow_of_create (hwritten.resolve_create htarget)]

end FileTree

/-! ## What a run delivers -/

/-- The content that a run has delivered: that of the file that it was given, or else what it has
printed. -/
def Outcome.delivered? (r : Outcome) : Option Path → Option Bytes
  | none => some (Utf8.encodeString r.printed.stdout)
  | some out => (r.tree.read out).toOption

namespace FileTree

variable {t : FileTree} {o : Options} {elapsed : String}

/-- A run that succeeds has delivered the graph of the tree as it was before. -/
theorem delivered_of_exitCode (hexit : (t.perform o elapsed).printed.exitCode = 0) :
    ∃ g, (t.analyze o.root o.kind).outcome = .ok g ∧
      (t.perform o elapsed).delivered? o.output = some (Utf8.encodeString (o.graphText g)) := by
  have h := t.performs_perform o elapsed
  generalize t.perform o elapsed = outcome at h hexit
  cases h with
  | unscanned => exact absurd hexit Nat.one_ne_zero
  | unwritten => exact absurd hexit Nat.one_ne_zero
  | printed hgraph houtput =>
    refine ⟨_, hgraph, ?_⟩
    rw [houtput]
    rfl
  | written hgraph houtput hwrite =>
    refine ⟨_, hgraph, ?_⟩
    rw [houtput, Outcome.delivered?, read_of_write hwrite]
    rfl

/-- A run that was given a file prints no graph. -/
theorem stdout_perform_of_output (hout : o.output ≠ none) :
    (t.perform o elapsed).printed.stdout = "" := by
  have h := t.performs_perform o elapsed
  generalize t.perform o elapsed = outcome at h
  cases h with
  | printed _ houtput => exact absurd houtput hout
  | _ => rfl

end FileTree

/-! ## The order of the levels -/

namespace Level

/-- The levels, the most severe one first. -/
def scale : List Level := [.off, .error, .warn, .info, .debug, .trace]

/-- The level is at least as severe as the other one: it is the same, or stands before it on the
scale. -/
def AtLeast (level other : Level) : Prop := level = other ∨ [level, other].Sublist scale

instance (level other : Level) : Decidable (level.AtLeast other) :=
  inferInstanceAs (Decidable (_ ∨ _))

theorem admits_iff {wanted level : Level} : wanted.admits level = true ↔ level.AtLeast wanted := by
  cases wanted <;> cases level <;> decide

end Level

/-! ## What a run reports -/

namespace Event

/-- The event, if the run has taken this time. -/
def timed (elapsed : String) : Event → Event
  | finished _ => finished elapsed
  | e => e

@[simp] theorem level_timed (elapsed : String) (e : Event) : (e.timed elapsed).level = e.level := by
  cases e <;> rfl

end Event

/-- What a run reports, however much of it is logged. -/
structure Report where
  events : List Event
  /-- Why the run has failed, if it has. -/
  failure? : Option Failure

namespace Report

/-- The text behind the log. -/
def ending (r : Report) : String := (r.failure?.map Failure.message).getD ""

/-- The report, if the run has taken this time. -/
def timed (elapsed : String) (r : Report) : Report :=
  { r with events := r.events.map (Event.timed elapsed) }

end Report

/-- The report of a run with these options. -/
def FileTree.report (t : FileTree) (o : Options) (elapsed : String) : Report :=
  let a := t.analyze o.root o.kind
  match a.outcome, o.output, t.deliver (o.delivery? a) with
  | .error e, _, _ => ⟨a.events, some (.analysis o.root e)⟩
  | .ok _, none, _ => ⟨a.events ++ [.finished elapsed], none⟩
  | .ok _, some out, .error e => ⟨a.events, some (.output out e)⟩
  | .ok _, some out, .ok _ => ⟨a.events ++ [.wrote out, .finished elapsed], none⟩

/-- No file of an analysis reports a time. -/
theorem timed_of_mem_collect {b : Builder} {files : List LoadedFile} {e : Event}
    (he : e ∈ (collect b files).events) (elapsed : String) : e.timed elapsed = e := by
  induction files generalizing b with
  | nil => cases he
  | cons f files ih =>
    rw [collect] at he
    split at he
    · rcases List.mem_cons.mp he with rfl | he
      · rfl
      · exact ih he
    · rcases List.mem_append.mp he with he | he
      · rcases List.mem_cons.mp he with rfl | he
        · rfl
        · obtain ⟨edge, -, rfl⟩ := List.mem_map.mp he
          rfl
      · exact ih he

theorem map_timed_analyzeFiles (kind : Granularity) (root : Path)
    (unlisted : List (Path × PathError)) (files : Except ScanError (List LoadedFile))
    (elapsed : String) :
    (analyzeFiles kind root unlisted files).events.map (Event.timed elapsed) =
      (analyzeFiles kind root unlisted files).events := by
  cases files with
  | error e => rfl
  | ok files =>
    have hcollect : (collect (.empty kind) files).events.map (Event.timed elapsed) =
        (collect (.empty kind) files).events :=
      (List.map_congr_left fun e he => timed_of_mem_collect he elapsed).trans (List.map_id _)
    simp [analyzeFiles, scanEvents, hcollect, Event.timed]

namespace FileTree

variable (t : FileTree) (o : Options) (elapsed : String)

/-- The log of a run holds the wanted ones of its events. -/
theorem stderr_perform :
    (t.perform o elapsed).printed.stderr =
      logText o.logLevel (t.report o elapsed).events ++ (t.report o elapsed).ending := by
  have h := t.performs_perform o elapsed
  generalize t.perform o elapsed = outcome at h
  cases h with
  | @unscanned e hscan =>
    have houtcome : (t.analyze o.root o.kind).outcome = .error e := by
      rw [analyze, hscan]
      rfl
    simp only [report, houtcome]
    rfl
  | printed hgraph houtput =>
    simp only [report, hgraph, houtput]
    exact String.append_empty.symm
  | unwritten hgraph houtput hwrite =>
    simp only [report, Options.delivery?_eq houtput hgraph, deliver, hgraph, houtput, hwrite]
    rfl
  | written hgraph houtput hwrite =>
    simp only [report, Options.delivery?_eq houtput hgraph, deliver, hgraph, houtput, hwrite]
    exact String.append_empty.symm

/-- How much is logged has no influence on what there is to log. -/
theorem report_logLevel (level : Level) :
    t.report { o with logLevel := level } elapsed = t.report o elapsed := rfl

/-- Runs with the same options report the same, except for the time that they take. -/
theorem report_timed (elapsed' : String) :
    t.report o elapsed = (t.report o elapsed').timed elapsed := by
  have hevents : (t.analyze o.root o.kind).events.map (Event.timed elapsed) =
      (t.analyze o.root o.kind).events := map_timed_analyzeFiles ..
  simp only [report]
  split <;> simp [Report.timed, hevents, Event.timed]

end FileTree

theorem logText_trace (events : List Event) :
    logText .trace events = String.join (events.map Event.logLine) := by
  have hadmits : ∀ e ∈ events, Level.trace.admits e.level = true := by
    intro e _
    cases e <;> rfl
  rw [logText, List.filter_eq_self.mpr hadmits]

/-- The log holds the events that are severe enough, whatever time they tell. -/
theorem logText_timed (wanted : Level) (elapsed : String) (events : List Event) :
    logText wanted (events.map (Event.timed elapsed)) =
      String.join (((events.filter fun e => e.level.AtLeast wanted).map
        (Event.timed elapsed)).map Event.logLine) := by
  have hadmits (level : Level) : wanted.admits level = decide (level.AtLeast wanted) :=
    Bool.eq_iff_iff.mpr (Level.admits_iff.trans decide_eq_true_iff.symm)
  rw [logText, List.filter_map]
  simp only [Function.comp_def, Event.level_timed, hadmits]

/-- The graph that a run delivers depends on the tree, the root, the granularity and the format
alone. Two runs that agree in these and succeed deliver the same bytes, whatever else their
arguments say and however they are spelled: the text of the graph of the tree as it was before the
run, printed or in the file that was given. Nothing is printed when there is such a file, and it
may be one that the scan has read. If all levels are logged in one of two runs that agree also in
the rest of their options, the other run logs exactly those of these events that are at least as
severe as its level, in the same order, with the time that it takes itself. -/
theorem delivery_independent_of_options (t : FileTree) {args args' : List String} {o o' : Options}
    (hargs : Options.ofArguments args = .ok o) (hargs' : Options.ofArguments args' = .ok o')
    (hroot : o'.root = o.root) (hkind : o'.kind = o.kind) (hformat : o'.format = o.format)
    (elapsed elapsed' : String) :
    let run := t.run args elapsed
    let run' := t.run args' elapsed'
    (run.printed.exitCode = 0 → run'.printed.exitCode = 0 → ∃ g,
      (t.analyze o.root o.kind).outcome = .ok g ∧
        run.delivered? o.output = some (Utf8.encodeString (g.render o.kind o.format)) ∧
        run'.delivered? o'.output = some (Utf8.encodeString (g.render o.kind o.format))) ∧
      (o.output ≠ none → run.printed.stdout = "") ∧
      (o'.output ≠ none → run'.printed.stdout = "") ∧
      (o' = { o with logLevel := .trace } →
        let report := t.report o' elapsed'
        run'.printed.stderr = String.join (report.events.map Event.logLine) ++ report.ending ∧
          run.printed.stderr =
            String.join (((report.events.filter fun e => e.level.AtLeast o.logLevel).map
              (Event.timed elapsed)).map Event.logLine) ++ report.ending) := by
  intro run run'
  have hrun : run = t.perform o elapsed := t.run_eq_perform hargs elapsed
  have hrun' : run' = t.perform o' elapsed' := t.run_eq_perform hargs' elapsed'
  rw [hrun, hrun']
  refine ⟨fun hexit hexit' => ?_, FileTree.stdout_perform_of_output,
    FileTree.stdout_perform_of_output, fun hlog => ?_⟩
  · obtain ⟨g, hgraph, hdelivered⟩ := FileTree.delivered_of_exitCode hexit
    obtain ⟨g', hgraph', hdelivered'⟩ := FileTree.delivered_of_exitCode hexit'
    rw [hroot, hkind] at hgraph'
    obtain rfl := Except.ok.inj (hgraph.symm.trans hgraph')
    refine ⟨g, hgraph, hdelivered, hdelivered'.trans ?_⟩
    rw [Options.graphText, hkind, hformat]
  · subst hlog
    rw [t.report_logLevel]
    constructor
    · rw [t.stderr_perform, t.report_logLevel, logText_trace]
    · rw [t.stderr_perform, t.report_timed o elapsed elapsed']
      rw [Report.timed, logText_timed]
      rfl

/-! ## A run that overwrites what it has read -/

/-- The run writes the graph of the source file in place of the source. -/
theorem write_outputs_source (content : Bytes) :
    ∃ t', outputs.write (.ofString "A.java") content = .ok t' := by
  have hresolve : outputs.resolve .create (.ofString "A.java") =
      .ok (.entry [Utf8.encodeString "A.java"] (.file (Utf8.encodeString "x.B b;"))) := by
    rw [Path.ofString, FileTree.resolve_name _ _ (by decide) (by decide)]
    exact walk_names (by decide) rfl (by simp)
  rw [FileTree.write, hresolve]
  exact ⟨_, rfl⟩

/-- The options of a run that overwrites the source file of `outputs`. -/
def intoSource (level : Level) : Options where
  root := ⟨FileName.here⟩
  kind := .packages
  format := .dot
  output := some (.ofString "A.java")
  logLevel := level

theorem exitCode_intoSource {args : List String} {level : Level}
    (hargs : Options.ofArguments args = .ok (intoSource level)) (elapsed : String) :
    (outputs.run args elapsed).printed.exitCode = 0 := by
  obtain ⟨g, hgraph⟩ := outcome_outputs .packages
  obtain ⟨t', hwrite⟩ := write_outputs_source (Utf8.encodeString ((intoSource level).graphText g))
  rw [FileTree.run_eq_perform _ hargs, FileTree.perform_of_write rfl hgraph hwrite]
  rfl

/-- Two runs with the same options in other words, and one of them with all levels logged. Both
leave the graph in place of the source file that they have read. -/
theorem delivery_over_source :
    let first := outputs.run ["-o", "A.java"] "0.00s"
    let second := outputs.run ["--log-level=trace", "-oA.java", "--", "."] "0.01s"
    let out := Path.ofString "A.java"
    let report := outputs.report (intoSource .trace) "0.01s"
    first.printed.exitCode = 0 ∧ second.printed.exitCode = 0 ∧
      first.printed.stdout = "" ∧ second.printed.stdout = "" ∧
      (∃ g, (outputs.analyze ⟨FileName.here⟩ .packages).outcome = .ok g ∧
        first.delivered? (some out) = some (Utf8.encodeString (g.render .packages .dot)) ∧
        second.delivered? (some out) = some (Utf8.encodeString (g.render .packages .dot))) ∧
      second.printed.stderr = String.join (report.events.map Event.logLine) ++ report.ending ∧
      first.printed.stderr =
        String.join (((report.events.filter fun e => e.level.AtLeast .warn).map
          (Event.timed "0.00s")).map Event.logLine) ++ report.ending := by
  intro first second out report
  have hargs : Options.ofArguments ["-o", "A.java"] = .ok (intoSource .warn) := rfl
  have hargs' : Options.ofArguments ["--log-level=trace", "-oA.java", "--", "."] =
    .ok (intoSource .trace) := rfl
  obtain ⟨hdelivered, hstdout, hstdout', hlog⟩ :=
    delivery_independent_of_options outputs hargs hargs' rfl rfl rfl "0.00s" "0.01s"
  have hexit := exitCode_intoSource hargs "0.00s"
  have hexit' := exitCode_intoSource hargs' "0.01s"
  have hsome : some out ≠ none := Option.some_ne_none out
  exact ⟨hexit, hexit', hstdout hsome, hstdout' hsome, hdelivered hexit hexit', hlog rfl⟩

end ReferenceGraph
