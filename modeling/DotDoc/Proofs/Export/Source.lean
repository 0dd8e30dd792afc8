import DotDoc.Export.Job
import DotDoc.Proofs.Graph.Lookup

/-!
# Writing the source file

Opening a path gives the place that the path resolves to, and what is stored there changes what is
read at that place and nowhere else.  Writing a document is refused before the file is opened, or
the file is opened: then it holds the document if that can be encoded, and nothing otherwise.  A
document can be encoded if and only if it has no surrogate.
-/

set_option autoImplicit false

namespace DotDoc

namespace FileSystem

variable {fs : FileSystem} {place other : List Text}

theorem find?_replaced {files : List (List Text × Text)} (content : Text)
    (present : files.any (fun file => file.1 = place) = true) :
    (files.map fun file => if file.1 = place then (place, content) else file).find?
      (fun file => file.1 = place) = some (place, content) := by
  induction files with
  | nil => cases present
  | cons file rest ih =>
      by_cases here : file.1 = place
      · simp [here]
      · have later : rest.any (fun file => file.1 = place) = true := by simpa [here] using present
        rw [List.map_cons, if_neg here, List.find?_cons_of_neg (by simpa using here), ih later]

theorem find?_replaced_of_ne (files : List (List Text × Text)) (content : Text)
    (different : other ≠ place) :
    (files.map fun file => if file.1 = place then (place, content) else file).find?
      (fun file => file.1 = other) = files.find? fun file => file.1 = other := by
  induction files with
  | nil => rfl
  | cons file rest ih =>
      rw [List.map_cons, List.find?_cons, List.find?_cons, ih]
      by_cases here : file.1 = place
      · simp [here, different.symm]
      · rw [if_neg here]

@[simp] theorem read?_store (place : List Text) (content : Text) (fs : FileSystem) :
    (fs.store place content).read? place = some content := by
  unfold read? store
  by_cases present : fs.isFile place = true
  · rw [if_pos present, find?_replaced content present]
    rfl
  · have absent : fs.files.find? (fun file => file.1 = place) = none :=
      List.find?_eq_none.2 (List.any_eq_false.1 (Bool.not_eq_true _ ▸ present))
    rw [if_neg present, List.find?_append, absent]
    simp

theorem read?_store_of_ne (different : other ≠ place) (content : Text) (fs : FileSystem) :
    (fs.store place content).read? other = fs.read? other := by
  unfold read? store
  by_cases present : fs.isFile place = true
  · rw [if_pos present, find?_replaced_of_ne _ _ different]
  · rw [if_neg present, List.find?_append]
    simp [different.symm]

theorem walk_eq_ok {start parts : List Text} (walked : fs.walk start parts = .ok place) :
    place = parts.foldl Path.follow start := by
  induction parts generalizing start with
  | nil =>
      rw [walk] at walked
      split at walked
      · cases walked
      · exact (Except.ok.inj walked).symm
  | cons part rest ih =>
      rw [walk] at walked
      split at walked
      · split at walked
        · cases walked
        · exact ih walked
      · split at walked <;> cases walked

theorem openForWriting_eq_ok {path : Path} (opened : fs.openForWriting path = .ok place) :
    place = path.resolve := by
  unfold openForWriting at opened
  split at opened
  · cases opened
  · split at opened
    · cases opened
    · exact walk_eq_ok opened

end FileSystem

namespace CodePoint

theorem encodeFrom_ofText (position : Nat) (content : Text) :
    encodeFrom position (ofText content) = .ok content := by
  induction content generalizing position with
  | nil => rfl
  | cons c rest ih =>
      have later : encodeFrom (position + 1) (rest.map char) = .ok rest := ih (position + 1)
      rw [ofText, List.map_cons, encodeFrom, later]
      rfl

theorem encodeFrom_of_surrogate (position : Nat) (front : Text) (offset : Fin 0x800)
    (rest : List CodePoint) :
    encodeFrom position (ofText front ++ surrogate offset :: rest)
      = .error (.notEncodable (surrogate offset).number (position + front.length)
          (position + front.length + 1 + (rest.takeWhile isSurrogate).length)) := by
  induction front generalizing position with
  | nil => rfl
  | cons c front ih =>
      have later := ih (position + 1)
      rw [ofText, List.map_cons, List.cons_append, encodeFrom]
      rw [ofText] at later
      rw [later, List.length_cons, Nat.add_assoc position 1, Nat.add_comm 1]
      rfl

theorem encode_ofText (content : Text) : encode (ofText content) = .ok content :=
  encodeFrom_ofText 0 content

/-- The refusal of a document in which `front` stands before the first surrogate. -/
def refusalAfter (front : Text) (offset : Fin 0x800) (rest : List CodePoint) : Error :=
  .notEncodable (surrogate offset).number front.length
    (front.length + 1 + (rest.takeWhile isSurrogate).length)

theorem encode_of_surrogate (front : Text) (offset : Fin 0x800) (rest : List CodePoint) :
    encode (ofText front ++ surrogate offset :: rest)
      = .error (refusalAfter front offset rest) := by
  rw [encode, encodeFrom_of_surrogate, Nat.zero_add, refusalAfter]

theorem ofText_or_surrogate (document : List CodePoint) :
    (∃ content, document = ofText content) ∨
      ∃ front offset rest, document = ofText front ++ surrogate offset :: rest := by
  induction document with
  | nil => exact .inl ⟨[], rfl⟩
  | cons first later ih =>
      cases first with
      | surrogate offset => exact .inr ⟨[], offset, later, rfl⟩
      | char c =>
          rcases ih with ⟨content, rfl⟩ | ⟨front, offset, rest, rfl⟩
          · exact .inl ⟨c :: content, rfl⟩
          · exact .inr ⟨c :: front, offset, rest, rfl⟩

end CodePoint

def Error.ofRenderer : Error → Bool
  | .renderFailed | .rendererMissing => true
  | _ => false

theorem FileSystem.walk_refusal {fs : FileSystem} {start parts : List Text} {e : Error}
    (refused : fs.walk start parts = .error e) : e.ofRenderer = false := by
  induction parts generalizing start with
  | nil =>
      rw [walk] at refused
      split at refused
      · cases refused
        rfl
      · cases refused
  | cons part rest ih =>
      rw [walk] at refused
      split at refused
      · split at refused
        · cases refused
          rfl
        · exact ih refused
      · split at refused <;> cases refused <;> rfl

theorem FileSystem.openForWriting_refusal {fs : FileSystem} {path : Path} {e : Error}
    (refused : fs.openForWriting path = .error e) : e.ofRenderer = false := by
  unfold openForWriting at refused
  split at refused
  · cases refused
    rfl
  · split at refused
    · cases refused
      rfl
    · exact walk_refusal refused

namespace Job

/-- What the names of the files for a filename begin with. -/
def stem? : Value → Option Text
  | .str name => some name.toList
  | .bytes name => some (Value.bytes name).literal
  | _ => none

def fileOf (stem : Text) (extension : String) : Path :=
  Path.ofText (stem ++ '.' :: extension.toList)

def sourceFile (stem : Text) : Path :=
  fileOf stem sourceFormat

theorem pathOf_of_stem {filename : Value} {stem : Text} (begins : stem? filename = some stem)
    (extension : String) : pathOf filename extension = .ok (fileOf stem extension) := by
  cases filename with
  | str name => cases begins; rfl
  | bytes name => cases begins; rfl
  | _ => cases begins

theorem pathOf_of_none {filename : Value} (none_begins : stem? filename = none)
    (extension : String) : pathOf filename extension = .error .wrongType := by
  cases filename with
  | str name => cases none_begins
  | bytes name => cases none_begins
  | _ => rfl

/-- What is needed to open the source file of a filename for a document. -/
structure Opens (document : Except Error (List CodePoint)) (filename : Value)
    (files : FileSystem) (stem : Text) (text : List CodePoint) : Prop where
  named : stem? filename = some stem
  written : document = .ok text
  opened : ∃ place, files.openForWriting (sourceFile stem) = .ok place

/-- A text is stored at the place of a path, and nothing else changed. -/
structure Stores (content : Text) (source : Path) (before after : FileSystem) : Prop where
  here : after.read? source.resolve = some content
  others : ∀ place, place ≠ source.resolve → after.read? place = before.read? place
  directories : after.directories = before.directories

theorem stores_store (content : Text) (source : Path) (before : FileSystem) :
    Stores content source before (before.store source.resolve content) where
  here := FileSystem.read?_store ..
  others _ different := FileSystem.read?_store_of_ne different content before
  directories := rfl

theorem Stores.again {content : Text} {source : Path} {before after : FileSystem}
    (emptied : Stores [] source before after) :
    Stores content source before (after.store source.resolve content) where
  here := FileSystem.read?_store ..
  others place different :=
    (FileSystem.read?_store_of_ne different content after).trans (emptied.others place different)
  directories := emptied.directories

variable {document : Except Error (List CodePoint)} {filename : Value} {s : Surroundings}
  {stem : Text} {text : List CodePoint}

/-- Without what is needed, writing is refused and nothing was done. -/
theorem writeDocument_refused (closed : ∀ stem text, ¬Opens document filename s.files stem text) :
    ∃ e, writeDocument document filename s = (.error e, s) ∧
      (e.ofRenderer = true → document = .error e) := by
  unfold writeDocument
  cases begins : stem? filename with
  | none =>
      rw [pathOf_of_none begins]
      exact ⟨.wrongType, rfl, nofun⟩
  | some stem =>
      rw [Action.check_of_ok s (pathOf_of_stem begins sourceFormat)]
      cases written : document with
      | error e => exact ⟨e, rfl, fun _ => rfl⟩
      | ok text =>
          cases opened : s.files.openForWriting (sourceFile stem) with
          | ok place => exact absurd ⟨begins, written, place, opened⟩ (closed stem text)
          | error e =>
              have refusal := FileSystem.openForWriting_refusal opened
              refine ⟨e, ?_, by simp [refusal]⟩
              rw [sourceFile] at opened
              rw [Action.check_bind]
              dsimp only
              rw [Action.bind_apply, Surroundings.openFile, Action.ask_bind, opened]

/-- Otherwise the file is opened and emptied, and the document is encoded after that. -/
theorem writeDocument_opened (opens : Opens document filename s.files stem text) :
    ∃ emptied, Stores [] (sourceFile stem) s.files emptied ∧
      (∀ e, CodePoint.encode text = .error e →
        writeDocument document filename s = (.error e, { s with files := emptied })) ∧
      ∀ content, CodePoint.encode text = .ok content → ∃ after,
        Stores content (sourceFile stem) s.files after ∧
        writeDocument document filename s
          = (.ok (sourceFile stem), { s with files := after }) := by
  obtain ⟨place, opened⟩ := opens.opened
  obtain rfl := FileSystem.openForWriting_eq_ok opened
  have emptied := stores_store [] (sourceFile stem) s.files
  refine ⟨_, emptied, ?_⟩
  rw [sourceFile] at opened
  unfold writeDocument
  rw [Action.check_of_ok s (pathOf_of_stem opens.named sourceFormat),
    Action.check_of_ok s opens.written, Action.bind_apply, Surroundings.openFile, Action.ask_bind,
    opened]
  constructor
  · intro e refused
    simp only [Action.modify_bind, Action.pure_apply, Action.check_bind, refused]
    rfl
  · intro content encoded
    refine ⟨_, emptied.again, ?_⟩
    simp only [Action.modify_bind, Action.pure_apply, Action.check_bind, encoded]
    rfl

end Job
end DotDoc
