import DotDoc.Proofs.Export.Source

/-!
# The effects of writing, compiling and showing

A job is ready when its format is one of the renderer's, its filename is a name, its graph has a
document, and its source file can be opened.  A job that is not ready is refused: no file changed
and no command was given.  A job that is ready opens its source file.  A document with a surrogate
leaves that file empty and ends the job there.  Any other document is stored, and then the commands
are given, however they end.

All of this is said of one job on any files, so it holds at every step of a run, and after a run a
place holds what the last job left there that had its source file at it.
-/

set_option autoImplicit false

namespace DotDoc

/-- A format is asked for by a name that is known in lower case, other than that of the source. -/
structure Renderer.Accepts (r : Renderer) (format : Value) (name : String) : Prop where
  given : format = .str name
  known : r.lower name ∈ r.formats
  not_source : r.lower name ≠ sourceFormat

namespace Renderer

variable {r : Renderer} {format : Value}

theorem formatNamed_of_accepts {name : String} (accepts : r.Accepts format name) :
    r.formatNamed format = .ok (r.lower name) := by
  obtain ⟨rfl, known, not_source⟩ := accepts
  simp only [formatNamed]
  rw [if_neg (by simp [known]), if_neg not_source]

theorem formatNamed_cases (r : Renderer) (format : Value) :
    (∃ name, r.Accepts format name) ∨
      ∃ e, r.formatNamed format = .error e ∧ e.ofRenderer = false := by
  cases format with
  | str name =>
      by_cases known : r.lower name ∈ r.formats
      · by_cases source : r.lower name = sourceFormat
        · refine .inr ⟨.overwritesSource (.str name), ?_, rfl⟩
          simp only [formatNamed]
          rw [if_neg (by simp [known]), if_pos source]
        · exact .inl ⟨name, rfl, known, source⟩
      · refine .inr ⟨.unknownFormat (.str name), ?_, rfl⟩
        simp only [formatNamed]
        rw [if_pos (by simp [known])]
  | _ => exact .inr ⟨_, rfl, rfl⟩

end Renderer

theorem Graph.codePoints?_eq_ok {g : Graph} {text : List CodePoint}
    (written : g.codePoints? = .ok text) :
    g.document? = .ok g.document ∧ text = CodePoint.ofText g.document := by
  rw [codePoints?, document?] at written
  split at written
  · next writable => exact ⟨if_pos writable, (Except.ok.inj written).symm⟩
  · cases written

theorem Graph.codePoints?_refusal {g : Graph} {e : Error} (refused : g.codePoints? = .error e) :
    e.ofRenderer = false := by
  rw [codePoints?, document?] at refused
  split at refused
  · cases refused
  · cases refused
    rfl

namespace Job

def filename : Job → Value
  | .write filename => filename
  | .compile filename _ _ => filename
  | .display filename _ _ _ => filename

def format? : Job → Option Value
  | .write _ => none
  | .compile _ format _ => some format
  | .display _ format _ _ => some format

/-- What a job needs to get as far as its source file. -/
structure Ready (r : Renderer) (document : Except Error (List CodePoint)) (job : Job)
    (files : FileSystem) (stem : Text) (text : List CodePoint) : Prop where
  accepted : ∀ format ∈ job.format?, ∃ name, r.Accepts format name
  opens : Opens document job.filename files stem text

section

variable (r : Renderer) (stem : Text)

def outputFile (name : String) : Path :=
  fileOf stem (r.lower name)

def renderFor (name : String) : Command :=
  .render (r.lower name) (sourceFile stem).toText (outputFile r stem name).toText

/-- The answer and the commands of a job whose document was stored.  The viewer opens the output of
a job that shows it, after the renderer succeeded. -/
def Answers (job : Job) (report : Report) : Prop :=
  match job with
  | .write _ => report.result = .ok (sourceFile stem).toText ∧ report.commands = []
  | .compile _ format rendering => ∃ name, r.Accepts format name ∧
      report.result = rendering.map (fun _ => (outputFile r stem name).toText) ∧
      report.commands = [renderFor r stem name]
  | .display _ format rendering viewing => ∃ name, r.Accepts format name ∧
      ((rendering = .ok () ∧
          report.result = viewing.map (fun _ => (outputFile r stem name).toText) ∧
          report.commands
            = [renderFor r stem name, .view (outputFile r stem name).toText]) ∨
        ∃ e, rendering = .error e ∧ report.result = .error e ∧
          report.commands = [renderFor r stem name])

structure Completes (job : Job) (before : FileSystem) (content : Text) (report : Report) : Prop where
  stores : Stores content (sourceFile stem) before report.files
  answers : job.Answers r stem report

structure Empties (before : FileSystem) (e : Error) (report : Report) : Prop where
  stores : Stores [] (sourceFile stem) before report.files
  result : report.result = .error e
  commands : report.commands = []

end

variable {r : Renderer} {document : Except Error (List CodePoint)} {job : Job}
  {files : FileSystem} {stem : Text} {text : List CodePoint}

section

variable {filename format : Value} {s : Surroundings} (rendering viewing : Except Error Unit)

theorem call_apply (command : Command) (ending : Except Error Unit) (s : Surroundings) :
    Surroundings.call command ending s
      = (ending, { s with commands := s.commands ++ [command] }) := rfl

theorem compileTo_refused
    (unready : ∀ name stem text, r.Accepts format name →
      ¬Opens document filename s.files stem text) :
    ∃ e, compileTo r document filename format rendering s = (.error e, s) ∧
      (e.ofRenderer = true → document = .error e) := by
  unfold compileTo
  rcases r.formatNamed_cases format with ⟨name, accepts⟩ | ⟨e, refused, early⟩
  · rw [Action.check_of_ok s (Renderer.formatNamed_of_accepts accepts)]
    obtain ⟨e, refused, late⟩ := writeDocument_refused (unready name · · accepts)
    refine ⟨e, ?_, late⟩
    rw [Action.bind_apply, refused]
  · refine ⟨e, ?_, by simp [early]⟩
    rw [Action.check_bind, refused]

theorem compileTo_ready {name : String} (accepts : r.Accepts format name)
    (opens : Opens document filename s.files stem text) :
    ∃ emptied, Stores [] (sourceFile stem) s.files emptied ∧
      (∀ e, CodePoint.encode text = .error e →
        compileTo r document filename format rendering s
          = (.error e, { s with files := emptied })) ∧
      ∀ content, CodePoint.encode text = .ok content → ∃ after,
        Stores content (sourceFile stem) s.files after ∧
        compileTo r document filename format rendering s
          = (rendering.map fun _ => outputFile r stem name,
              ⟨after, s.commands ++ [renderFor r stem name]⟩) := by
  obtain ⟨emptied, stores, refused, stored⟩ := writeDocument_opened opens
  refine ⟨emptied, stores, ?_, ?_⟩
  all_goals
    unfold compileTo
    rw [Action.check_of_ok s (Renderer.formatNamed_of_accepts accepts), Action.bind_apply]
  · intro e not_encoded
    rw [refused e not_encoded]
  · intro content encoded
    obtain ⟨after, holds, written⟩ := stored content encoded
    refine ⟨after, holds, ?_⟩
    rw [written]
    dsimp only
    rw [Action.check_of_ok _ (pathOf_of_stem opens.named (r.lower name)), Action.bind_apply,
      call_apply]
    cases rendering <;> rfl

theorem displayAs_refused
    (unready : ∀ name stem text, r.Accepts format name →
      ¬Opens document filename s.files stem text) :
    ∃ e, displayAs r document filename format rendering viewing s = (.error e, s) ∧
      (e.ofRenderer = true → document = .error e) := by
  obtain ⟨e, refused, late⟩ := compileTo_refused rendering unready
  refine ⟨e, ?_, late⟩
  rw [displayAs, Action.bind_apply, refused]

theorem displayAs_ready {name : String} (accepts : r.Accepts format name)
    (opens : Opens document filename s.files stem text) :
    ∃ emptied, Stores [] (sourceFile stem) s.files emptied ∧
      (∀ e, CodePoint.encode text = .error e →
        displayAs r document filename format rendering viewing s
          = (.error e, { s with files := emptied })) ∧
      ∀ content, CodePoint.encode text = .ok content → ∃ after,
        Stores content (sourceFile stem) s.files after ∧
        (∀ e, rendering = .error e →
          displayAs r document filename format rendering viewing s
            = (.error e, ⟨after, s.commands ++ [renderFor r stem name]⟩)) ∧
        (rendering = .ok () →
          displayAs r document filename format rendering viewing s
            = (viewing.map fun _ => outputFile r stem name,
                ⟨after, s.commands ++ [renderFor r stem name]
                  ++ [.view (outputFile r stem name).toText]⟩)) := by
  obtain ⟨emptied, stores, refused, stored⟩ := compileTo_ready rendering accepts opens
  refine ⟨emptied, stores, ?_, ?_⟩
  all_goals unfold displayAs
  · intro e not_encoded
    rw [Action.bind_apply, refused e not_encoded]
  · intro content encoded
    obtain ⟨after, holds, compiled⟩ := stored content encoded
    refine ⟨after, holds, ?_, ?_⟩
    · intro e failed
      rw [Action.bind_apply, compiled, failed]
      rfl
    · intro rendered
      rw [Action.bind_apply, compiled, rendered]
      dsimp only [Except.map]
      rw [Action.bind_apply, call_apply]
      cases viewing <;> rfl

end

theorem run_refused (unready : ∀ stem text, ¬Ready r document job files stem text) :
    ∃ e, job.run r document files = ⟨.error e, [], files⟩ ∧
      (e.ofRenderer = true → document = .error e) := by
  have refused_action : ∃ e, job.action r document ⟨files, []⟩ = (.error e, ⟨files, []⟩) ∧
      (e.ofRenderer = true → document = .error e) := by
    cases job with
    | write filename =>
        refine writeDocument_refused fun stem text opens => ?_
        exact unready stem text ⟨nofun, opens⟩
    | compile filename format rendering =>
        refine compileTo_refused rendering fun name stem text accepts opens => ?_
        exact unready stem text ⟨fun _ asked => ⟨name, Option.some.inj asked ▸ accepts⟩, opens⟩
    | display filename format rendering viewing =>
        refine displayAs_refused rendering viewing fun name stem text accepts opens => ?_
        exact unready stem text ⟨fun _ asked => ⟨name, Option.some.inj asked ▸ accepts⟩, opens⟩
  obtain ⟨e, refused, late⟩ := refused_action
  refine ⟨e, ?_, late⟩
  rw [run, refused]
  rfl

theorem run_empties {e : Error} (ready : Ready r document job files stem text)
    (not_encoded : CodePoint.encode text = .error e) :
    Empties stem files e (job.run r document files) := by
  have emptied_action : ∃ emptied, Stores [] (sourceFile stem) files emptied ∧
      job.action r document ⟨files, []⟩ = (.error e, ⟨emptied, []⟩) := by
    cases job with
    | write filename =>
        obtain ⟨emptied, stores, refused, -⟩ := writeDocument_opened (s := ⟨files, []⟩) ready.opens
        exact ⟨emptied, stores, refused e not_encoded⟩
    | compile filename format rendering =>
        obtain ⟨name, accepts⟩ := ready.accepted format rfl
        obtain ⟨emptied, stores, refused, -⟩ :=
          compileTo_ready (s := ⟨files, []⟩) rendering accepts ready.opens
        exact ⟨emptied, stores, refused e not_encoded⟩
    | display filename format rendering viewing =>
        obtain ⟨name, accepts⟩ := ready.accepted format rfl
        obtain ⟨emptied, stores, refused, -⟩ :=
          displayAs_ready (s := ⟨files, []⟩) rendering viewing accepts ready.opens
        exact ⟨emptied, stores, refused e not_encoded⟩
  obtain ⟨emptied, stores, done⟩ := emptied_action
  rw [run, done]
  exact ⟨stores, rfl, rfl⟩

theorem run_completes {content : Text} (ready : Ready r document job files stem text)
    (encoded : CodePoint.encode text = .ok content) :
    Completes r stem job files content (job.run r document files) := by
  cases job with
  | write filename =>
      have opens : Opens document filename files stem text := ready.opens
      obtain ⟨_, _, -, stored⟩ := writeDocument_opened (s := ⟨files, []⟩) opens
      obtain ⟨after, holds, written⟩ := stored content encoded
      rw [run, action, written]
      exact ⟨holds, rfl, rfl⟩
  | compile filename format rendering =>
      have opens : Opens document filename files stem text := ready.opens
      obtain ⟨name, accepts⟩ := ready.accepted format rfl
      obtain ⟨_, _, -, stored⟩ := compileTo_ready (s := ⟨files, []⟩) rendering accepts opens
      obtain ⟨after, holds, compiled⟩ := stored content encoded
      rw [run, action, compiled]
      refine ⟨holds, name, accepts, ?_, rfl⟩
      cases rendering <;> rfl
  | display filename format rendering viewing =>
      have opens : Opens document filename files stem text := ready.opens
      obtain ⟨name, accepts⟩ := ready.accepted format rfl
      obtain ⟨_, _, -, stored⟩ :=
        displayAs_ready (s := ⟨files, []⟩) rendering viewing accepts opens
      obtain ⟨after, holds, failed, shown⟩ := stored content encoded
      cases ends : rendering with
      | error e =>
          rw [run, action, ← ends, failed e ends]
          exact ⟨holds, name, accepts, .inr ⟨e, ends, rfl, rfl⟩⟩
      | ok done =>
          rw [run, action, ← ends, shown ends]
          refine ⟨holds, name, accepts, .inl ⟨ends, ?_, rfl⟩⟩
          cases viewing <;> rfl

theorem run_cases (r : Renderer) (document : Except Error (List CodePoint)) (job : Job)
    (files : FileSystem) :
    ((∀ stem text, ¬Ready r document job files stem text) ∧
      ∃ e, job.run r document files = ⟨.error e, [], files⟩) ∨
    (∃ stem content, Ready r document job files stem (CodePoint.ofText content) ∧
      Completes r stem job files content (job.run r document files)) ∨
    ∃ stem front offset rest,
      Ready r document job files stem (CodePoint.ofText front ++ .surrogate offset :: rest) ∧
      Empties stem files (CodePoint.refusalAfter front offset rest)
        (job.run r document files) := by
  by_cases ready : ∃ stem text, Ready r document job files stem text
  · obtain ⟨stem, text, ready⟩ := ready
    rcases CodePoint.ofText_or_surrogate text with ⟨content, rfl⟩ | ⟨front, offset, rest, rfl⟩
    · exact .inr (.inl ⟨stem, content, ready, run_completes ready (CodePoint.encode_ofText content)⟩)
    · exact .inr (.inr ⟨stem, front, offset, rest, ready,
        run_empties ready (CodePoint.encode_of_surrogate front offset rest)⟩)
  · simp only [not_exists] at ready
    obtain ⟨e, refused, _⟩ := run_refused ready
    exact .inl ⟨ready, e, refused⟩

theorem Completes.view {before : FileSystem} {content path : Text} {report : Report}
    (completes : Completes r stem job before content report)
    (viewed : .view path ∈ report.commands) :
    ∃ filename name viewing, job = .display filename (.str name) (.ok ()) viewing ∧
      path = (outputFile r stem name).toText ∧
      report.commands = [renderFor r stem name, .view path] := by
  have answers := completes.answers
  cases job with
  | write filename =>
      rw [answers.2] at viewed
      cases viewed
  | compile filename format rendering =>
      obtain ⟨name, _, _, commands⟩ := answers
      rw [commands] at viewed
      cases List.mem_singleton.1 viewed
  | display filename format rendering viewing =>
      obtain ⟨name, accepts, ⟨rfl, _, commands⟩ | ⟨e, _, _, commands⟩⟩ := answers
      · obtain rfl := accepts.given
        rw [commands] at viewed ⊢
        rcases List.mem_cons.1 viewed with render | shown
        · cases render
        · cases List.mem_singleton.1 shown
          exact ⟨filename, name, viewing, rfl, rfl, rfl⟩
      · rw [commands] at viewed
        cases List.mem_singleton.1 viewed

/-! ## Runs -/

structure Step where
  document : Except Error (List CodePoint)
  job : Job
  before : FileSystem
  report : Report

abbrev Step.Ready (r : Renderer) (step : Step) (stem : Text) (text : List CodePoint) : Prop :=
  Job.Ready r step.document step.job step.before stem text

def steps (r : Renderer) :
    List (Except Error (List CodePoint) × Job) → FileSystem → List Step
  | [], _ => []
  | (document, job) :: rest, files =>
      ⟨document, job, files, job.run r document files⟩
        :: steps r rest (job.run r document files).files

def filesAfter (r : Renderer) (tasks : List (Except Error (List CodePoint) × Job))
    (files : FileSystem) : FileSystem :=
  tasks.foldl (fun held task => (task.2.run r task.1 held).files) files

variable {tasks : List (Except Error (List CodePoint) × Job)} {step : Step} {place : List Text}

theorem map_report_steps (r : Renderer) (tasks : List (Except Error (List CodePoint) × Job))
    (files : FileSystem) : (steps r tasks files).map Step.report = runAll r tasks files := by
  induction tasks generalizing files with
  | nil => rfl
  | cons task rest ih => rw [steps, List.map_cons, ih, runAll]

theorem report_of_mem_steps (member : step ∈ steps r tasks files) :
    step.report = step.job.run r step.document step.before := by
  induction tasks generalizing files with
  | nil => cases member
  | cons task rest ih =>
      rcases List.mem_cons.1 member with rfl | later
      · rfl
      · exact ih later

/-- A job that is ready and has its source file at a place. -/
def Step.WritesTo (r : Renderer) (place : List Text) (step : Step) : Prop :=
  ∃ stem text, step.Ready r stem text ∧ (sourceFile stem).resolve = place

theorem read?_of_not_writesTo (same : step.report = step.job.run r step.document step.before)
    (elsewhere : ¬step.WritesTo r place) :
    step.report.files.read? place = step.before.read? place := by
  rw [same]
  have apart {stem : Text} {text : List CodePoint} (ready : step.Ready r stem text) :
      place ≠ (sourceFile stem).resolve :=
    fun here => elsewhere ⟨stem, text, ready, here.symm⟩
  rcases run_cases r step.document step.job step.before with
    ⟨_, e, refused⟩ | ⟨stem, content, ready, completes⟩ | ⟨stem, front, offset, rest, ready, empties⟩
  · rw [refused]
  · exact completes.stores.others place (apart ready)
  · exact empties.stores.others place (apart ready)

theorem read?_filesAfter (r : Renderer) (tasks : List (Except Error (List CodePoint) × Job))
    (files : FileSystem) (place : List Text) :
    (∃ earlier step later, steps r tasks files = earlier ++ step :: later ∧ step.WritesTo r place ∧
      (∀ other ∈ later, ¬other.WritesTo r place) ∧
      (filesAfter r tasks files).read? place = step.report.files.read? place) ∨
    ((∀ step ∈ steps r tasks files, ¬step.WritesTo r place) ∧
      (filesAfter r tasks files).read? place = files.read? place) := by
  induction tasks generalizing files with
  | nil => exact .inr ⟨fun _ member => absurd member List.not_mem_nil, rfl⟩
  | cons task rest ih =>
      obtain ⟨document, job⟩ := task
      rw [steps, List.forall_mem_cons]
      rcases ih (job.run r document files).files with
        ⟨earlier, step, later, split, writes, last, held⟩ | ⟨not_later, held⟩
      · exact .inl ⟨_ :: earlier, step, later, by rw [split]; rfl, writes, last, held⟩
      · by_cases here : Step.WritesTo r place ⟨document, job, files, job.run r document files⟩
        · exact .inl ⟨[], _, _, rfl, here, not_later, held⟩
        · exact .inr ⟨⟨here, not_later⟩, held.trans (read?_of_not_writesTo rfl here)⟩

/-- The document of a graph with one vertex that has a label and nothing else. -/
def labelledDocument (label : List CodePoint) : List CodePoint :=
  CodePoint.ofText "digraph G \x7b\n\n  v0 [label=\"".toList ++ label
    ++ CodePoint.ofText "\"]\n\n\x7d".toList

def labelledGraph (label : String) : Graph :=
  (Graph.ofLayers .empty .empty .empty).run [.addVertex (.str label) .empty]

/-- A missing directory, the format of the source, a renderer that fails, one that succeeds, and a
document with a surrogate for the same file. -/
def labelledTasks : List (Except Error (List CodePoint) × Job) :=
  [((labelledGraph "a").codePoints?, .display (.str "plots/a") (.str "png") (.ok ()) (.ok ())),
    ((labelledGraph "a").codePoints?, .display (.str "a") (.str "DOT") (.ok ()) (.ok ())),
    ((labelledGraph "a").codePoints?, .compile (.str "a") (.str "PDF") (.error .renderFailed)),
    ((labelledGraph "b").codePoints?, .display (.str "./a") (.str "pdf") (.ok ()) (.ok ())),
    (.ok (labelledDocument [.surrogate 0]), .write (.str "b/../a"))]

def labelledSteps : List Step :=
  steps .installed labelledTasks (.ofDirectories ["b".toList])

end Job
end DotDoc
