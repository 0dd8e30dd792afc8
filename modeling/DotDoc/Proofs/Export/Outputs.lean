import DotDoc.Proofs.Export.Effects
import DotDoc.Proofs.Export.Places

/-!
# Outputs apart from sources

A job that opens its source file gives the renderer, if anything, an output with the same stem.
The extension of the output is a format, and that is not the extension of sources and does not end
in it behind a dot.  So an output and a source are at different places even if they belong to
different jobs and have different stems, and one job has both in one directory.

What the names of the formats have to keep to is stated for any renderer, and holds of the one that
is installed.  Each job of a run can be about a graph of its own.
-/

set_option autoImplicit false

namespace DotDoc

/-- The formats are extensions, none of which ends in that of a source file behind a dot.  A name
that starts with a letter and has no slash is an extension. -/
structure Renderer.WellNamed (r : Renderer) : Prop where
  extensions : ∀ name ∈ r.formats, Path.IsExtension name.toList
  not_sources : ∀ name ∈ r.formats, ¬ '.' :: sourceFormat.toList <:+ name.toList

namespace Job

/-- The path of the source file of a job, whether or not the job gets as far as that. -/
def Step.HasSource (source : Text) (step : Step) : Prop :=
  ∃ stem, stem? step.job.filename = some stem ∧ source = (sourceFile stem).toText

/-- A job wrote its source at a path: it answers with the path if it only writes, and otherwise
gives it to the renderer. -/
def Step.Wrote (source : Text) (step : Step) : Prop :=
  match step.job with
  | .write _ => step.report.result = .ok source
  | _ => ∃ format output, .render format source output ∈ step.report.commands

end Job

namespace Renderer

open Job

variable {r : Renderer} {step other : Step} {stem : Text} {format : String}
  {source output written : Text}

theorem renders_of_completes {content : Text}
    (completes : Completes r stem step.job step.before content step.report)
    (rendered : .render format source output ∈ step.report.commands) :
    format ∈ r.formats ∧ format ≠ sourceFormat ∧ source = (sourceFile stem).toText ∧
      output = (fileOf stem format).toText := by
  have same {name : String} (accepted : ∃ given, r.Accepts given name)
      (command : Command.render format source output = renderFor r stem name) :
      format ∈ r.formats ∧ format ≠ sourceFormat ∧ source = (sourceFile stem).toText ∧
        output = (fileOf stem format).toText := by
    obtain ⟨_, accepts⟩ := accepted
    obtain ⟨rfl, rfl, rfl⟩ := Command.render.inj command
    exact ⟨accepts.known, accepts.not_source, rfl, rfl⟩
  have answers := completes.answers
  cases job : step.job with
  | write filename =>
      rw [job] at answers
      rw [answers.2] at rendered
      cases rendered
  | compile filename given rendering =>
      rw [job] at answers
      obtain ⟨name, accepts, -, commands⟩ := answers
      rw [commands] at rendered
      exact same ⟨_, accepts⟩ (List.mem_singleton.1 rendered)
  | display filename given rendering viewing =>
      rw [job] at answers
      obtain ⟨name, accepts, ⟨-, -, commands⟩ | ⟨_, -, -, commands⟩⟩ := answers
      · rw [commands] at rendered
        rcases List.mem_cons.1 rendered with command | shown
        · exact same ⟨_, accepts⟩ command
        · cases List.mem_singleton.1 shown
      · rw [commands] at rendered
        exact same ⟨_, accepts⟩ (List.mem_singleton.1 rendered)

theorem wrote_of_completes {content : Text}
    (completes : Completes r stem step.job step.before content step.report) :
    step.Wrote written ↔ written = (sourceFile stem).toText := by
  have answers := completes.answers
  have rendered {name : String} {later : List Command}
      (commands : step.report.commands = renderFor r stem name :: later)
      (views : ∀ command ∈ later, ∃ path, command = .view path) :
      (∃ format output, .render format written output ∈ step.report.commands) ↔
        written = (sourceFile stem).toText := by
    rw [commands]
    constructor
    · rintro ⟨format, output, member⟩
      rcases List.mem_cons.1 member with command | shown
      · exact (Command.render.inj command).2.1
      · obtain ⟨path, other_command⟩ := views _ shown
        cases other_command
    · rintro rfl
      exact ⟨_, _, List.mem_cons_self ..⟩
  unfold Step.Wrote
  cases job : step.job with
  | write filename =>
      rw [job] at answers
      dsimp only
      rw [answers.1, Except.ok.injEq, eq_comm]
  | compile filename given rendering =>
      rw [job] at answers
      obtain ⟨name, -, -, commands⟩ := answers
      exact rendered commands (by simp)
  | display filename given rendering viewing =>
      rw [job] at answers
      obtain ⟨name, -, ⟨-, -, commands⟩ | ⟨_, -, -, commands⟩⟩ := answers
      · exact rendered commands (by simp)
      · exact rendered commands (by simp)

/-- What a job of a run did: nothing, or it wrote the source of its stem, or it left it empty. -/
theorem cases_of_mem_steps {tasks : List (Except Error (List CodePoint) × Job)}
    {files : FileSystem} (member : step ∈ steps r tasks files) :
    (step.report.files = step.before ∧ step.report.commands = [] ∧ ∀ source, ¬step.Wrote source) ∨
    ∃ stem, stem? step.job.filename = some stem ∧
      ((∃ content, Completes r stem step.job step.before content step.report) ∨
        ∃ front offset rest,
          Empties stem step.before (CodePoint.refusalAfter front offset rest) step.report) := by
  have report := report_of_mem_steps member
  rcases run_cases r step.document step.job step.before with
    ⟨-, e, refused⟩ | ⟨stem, content, ready, completes⟩ | ⟨stem, front, offset, rest, ready, empties⟩
  · rw [← report] at refused
    refine .inl ⟨by rw [refused], by rw [refused], fun source wrote => ?_⟩
    unfold Step.Wrote at wrote
    rw [refused] at wrote
    split at wrote
    · cases wrote
    · obtain ⟨_, _, rendered⟩ := wrote
      cases rendered
  · rw [← report] at completes
    exact .inr ⟨stem, ready.opens.named, .inl ⟨content, completes⟩⟩
  · rw [← report] at empties
    exact .inr ⟨stem, ready.opens.named, .inr ⟨front, offset, rest, empties⟩⟩

theorem ofText_fileOf (stem : Text) (extension : String) :
    Path.ofText (fileOf stem extension).toText = fileOf stem extension :=
  Path.ofText_toText _

theorem isExtension_source : Path.IsExtension sourceFormat.toList :=
  ⟨by decide, by decide, by decide⟩

theorem Stores.place_of_changed {content : Text} {before after : FileSystem} {place : List Text}
    (stores : Stores content (sourceFile stem) before after)
    (changed : after.read? place ≠ before.read? place) :
    (Path.ofText (sourceFile stem).toText).resolve = place := by
  rw [sourceFile, ofText_fileOf]
  by_contra elsewhere
  exact changed (stores.others place (Ne.symm elsewhere))

theorem output_beside_source (wellNamed : r.WellNamed) (known : format ∈ r.formats) (stem : Text) :
    (Path.ofText (fileOf stem format).toText).directory
      = (Path.ofText (sourceFile stem).toText).directory ∧
    ∀ here, ((Path.ofText (fileOf stem format).toText).placeFrom here).dropLast
      = ((Path.ofText (sourceFile stem).toText).placeFrom here).dropLast := by
  rw [sourceFile, ofText_fileOf, ofText_fileOf]
  exact Path.files_in_one_directory stem (wellNamed.extensions format known) isExtension_source

theorem output_apart (wellNamed : r.WellNamed) (known : format ∈ r.formats)
    (not_source : format ≠ sourceFormat) (stem other_stem : Text) (here there : List Text) :
    (Path.ofText (fileOf stem format).toText).placeFrom here
      ≠ (Path.ofText (sourceFile other_stem).toText).placeFrom there := by
  rw [sourceFile, ofText_fileOf, ofText_fileOf]
  have different : format.toList ≠ sourceFormat.toList :=
    fun same => not_source (String.toList_injective same)
  exact Path.places_apart (wellNamed.extensions format known) isExtension_source different
    (wellNamed.not_sources format known) (by decide) stem other_stem here there

/-- Whatever jobs are done with a well-named renderer, each on a graph of its own: no output that
the renderer is given is the path of a source of any of the jobs, and the two lead to different
places, wherever relative paths start.  The source and the output of one job are in one directory.
A job changes no file but at the path of its source, and it wrote there unless its document could
not be encoded. -/
theorem outputs_are_no_sources (wellNamed : r.WellNamed)
    (tasks : List (Except Error (List CodePoint) × Job)) (files : FileSystem) :
    (∀ step ∈ steps r tasks files,
      (∀ written, step.Wrote written → step.HasSource written) ∧
      (∀ place, step.report.files.read? place ≠ step.before.read? place →
        ∃ written, step.HasSource written ∧ (Path.ofText written).resolve = place ∧
          (step.Wrote written ∨
            ∃ e, step.report.result = .error e ∧ e.kind = .encoding ∧
              step.report.files.read? place = some [])) ∧
      ∀ format source output, .render format source output ∈ step.report.commands →
        step.Wrote source ∧
        ((Path.ofText output).directory = (Path.ofText source).directory ∧
          ∀ here, ((Path.ofText output).placeFrom here).dropLast
            = ((Path.ofText source).placeFrom here).dropLast) ∧
        ∀ other ∈ steps r tasks files, ∀ written, other.HasSource written →
          output ≠ written ∧
          ∀ here there,
            (Path.ofText output).placeFrom here ≠ (Path.ofText written).placeFrom there) ∧
    (steps r tasks files).map Step.report = runAll r tasks files := by
  refine ⟨fun step member => ?_, map_report_steps r tasks files⟩
  rcases cases_of_mem_steps member with
    ⟨unchanged, silent, unwritten⟩ | ⟨stem, named, ⟨content, completes⟩ | ⟨_, _, _, empties⟩⟩
  · refine ⟨fun written wrote => absurd wrote (unwritten written),
      fun place changed => absurd (by rw [unchanged]) changed, ?_⟩
    rw [silent]
    exact fun _ _ _ rendered => absurd rendered List.not_mem_nil
  · refine ⟨fun written wrote => ⟨stem, named, (wrote_of_completes completes).1 wrote⟩,
      fun place changed => ?_, fun format source output rendered => ?_⟩
    · exact ⟨_, ⟨stem, named, rfl⟩, Stores.place_of_changed completes.stores changed,
        .inl ((wrote_of_completes completes).2 rfl)⟩
    · obtain ⟨known, not_source, rfl, rfl⟩ := renders_of_completes completes rendered
      refine ⟨(wrote_of_completes completes).2 rfl, output_beside_source wellNamed known stem, ?_⟩
      rintro other - _ ⟨other_stem, -, rfl⟩
      have apart := output_apart wellNamed known not_source stem other_stem
      exact ⟨fun same => apart [] [] (by rw [same]), apart⟩
  · have unwritten : ∀ written, ¬step.Wrote written := by
      intro written wrote
      unfold Step.Wrote at wrote
      rw [empties.result, empties.commands] at wrote
      split at wrote
      · cases wrote
      · obtain ⟨_, _, rendered⟩ := wrote
        cases rendered
    refine ⟨fun written wrote => absurd wrote (unwritten written), fun place changed => ?_, ?_⟩
    · have here := Stores.place_of_changed empties.stores changed
      refine ⟨_, ⟨stem, named, rfl⟩, here, .inr ⟨_, empties.result, rfl, ?_⟩⟩
      rw [← here, sourceFile, ofText_fileOf]
      exact empties.stores.here
    · rw [empties.commands]
      exact fun _ _ _ rendered => absurd rendered List.not_mem_nil

theorem installed_wellNamed : installed.WellNamed where
  extensions name member := by
    have formats : ∀ name ∈ installed.formats,
        name.toList ≠ [] ∧ name.toList.head? ≠ some '.' ∧ '/' ∉ name.toList := by decide +kernel
    exact ⟨(formats name member).1, (formats name member).2.1, (formats name member).2.2⟩
  not_sources := by decide +kernel

def emptyGraph : Graph :=
  .ofLayers .empty .empty .empty

def vertexGraph : Graph :=
  emptyGraph.run [.addVertex (.str "a") .empty]

/-- The source of the first job is written once more by the second, for another graph and along
another path, and the output of the third starts with the name of its source. -/
def crossedTasks : List (Except Error (List CodePoint) × Job) :=
  [(emptyGraph.codePoints?,
      .compile (.str "plots/../a.svg") (.str "XDOT1.2") (.error .renderFailed)),
    (vertexGraph.codePoints?, .write (.str "./a.svg")),
    (vertexGraph.codePoints?, .display (.str "a") (.str "dot_JSON") (.ok ()) (.ok ()))]

def crossedSteps : List Step :=
  steps installed crossedTasks (.ofDirectories ["plots".toList])

theorem crossedSteps_outputs_apart :
    installed.WellNamed ∧
    ∃ first ∈ crossedSteps, ∃ second ∈ crossedSteps, ∃ third ∈ crossedSteps,
      first.report.commands
        = [.render "xdot1.2" "plots/../a.svg.dot".toList "plots/../a.svg.xdot1.2".toList] ∧
      second.Wrote "a.svg.dot".toList ∧
      (Path.ofText "plots/../a.svg.dot".toList).resolve = (Path.ofText "a.svg.dot".toList).resolve ∧
      third.report.commands = [.render "dot_json" "a.dot".toList "a.dot_json".toList,
        .view "a.dot_json".toList] ∧
      (∀ here there, (Path.ofText "plots/../a.svg.xdot1.2".toList).placeFrom here
        ≠ (Path.ofText "a.svg.dot".toList).placeFrom there) ∧
      ∀ here there, (Path.ofText "a.dot_json".toList).placeFrom here
        ≠ (Path.ofText "plots/../a.svg.dot".toList).placeFrom there := by
  obtain ⟨in_run, -⟩ := outputs_are_no_sources installed_wellNamed crossedTasks
    (.ofDirectories ["plots".toList])
  refine ⟨installed_wellNamed, _, .head _, _, .tail _ (.head _), _, .tail _ (.tail _ (.head _)),
    rfl, rfl, by decide, rfl, ?_, ?_⟩
  · obtain ⟨-, -, apart⟩ := (in_run _ (.head _)).2.2 _ _ _ (.head _)
    have second_source := (in_run _ (.tail _ (.head _))).1 "a.svg.dot".toList rfl
    exact (apart _ (.tail _ (.head _)) _ second_source).2
  · obtain ⟨-, -, apart⟩ := (in_run _ (.tail _ (.tail _ (.head _)))).2.2 _ _ _ (.head _)
    have first_source := (in_run _ (.head _)).1 "plots/../a.svg.dot".toList ⟨_, _, .head _⟩
    exact (apart _ (.head _) _ first_source).2

end Renderer
end DotDoc
