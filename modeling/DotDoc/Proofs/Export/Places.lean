import DotDoc.Export.Path

/-!
# Where paths lead

A path that was read from a text and written again is read as the same path, so the text of a path
stands for it.  A path is followed from a working directory to a place.  A last component that is
not the one of two dots stays at the end of that place, whatever the components in front of it are
and wherever the path starts.

The name of a file is what a text holds behind its last slash.  `exists_child` splits a text there:
an extension that is appended to it, with a dot in between, only makes the name longer, and the
directory stays the same.  So files of one stem are side by side, and files whose names end
differently are at different places.
-/

set_option autoImplicit false

namespace DotDoc
namespace Path

/-- The place that a path leads to from a working directory. -/
def placeFrom (directory : List Text) (p : Path) : List Text :=
  p.parts.foldl follow (if p.root.isEmpty then directory else [['/']])

example (p : Path) : p.resolve = p.placeFrom [] := rfl

def directory (p : Path) : Path :=
  ⟨p.root, p.parts.dropLast⟩

theorem pieces_ne_nil (t : Text) : pieces t ≠ [] := by
  cases t with
  | nil => simp [pieces]
  | cons c rest =>
      rw [pieces]
      split
      · simp
      · split <;> simp

theorem pieces_cons_of_ne {c : Char} (other : c ≠ '/') {rest piece : Text} {later : List Text}
    (split : pieces rest = piece :: later) : pieces (c :: rest) = (c :: piece) :: later := by
  rw [pieces, if_neg other, split]

theorem slash_not_mem_pieces (t : Text) : ∀ piece ∈ pieces t, '/' ∉ piece := by
  induction t with
  | nil => simp [pieces]
  | cons c rest ih =>
      by_cases slash : c = '/'
      · subst slash
        rw [pieces, if_pos rfl]
        exact List.forall_mem_cons.2 ⟨List.not_mem_nil, ih⟩
      · obtain ⟨first, later, split⟩ := List.exists_cons_of_ne_nil (pieces_ne_nil rest)
        rw [split, List.forall_mem_cons] at ih
        rw [pieces_cons_of_ne slash split, List.forall_mem_cons]
        exact ⟨by simp [Ne.symm slash, ih.1], ih.2⟩

theorem pieces_of_not_mem {name : Text} (one_piece : '/' ∉ name) : pieces name = [name] := by
  induction name with
  | nil => rfl
  | cons c rest ih =>
      have other : '/' ≠ c := List.ne_of_not_mem_cons one_piece
      exact pieces_cons_of_ne other.symm (ih (List.not_mem_of_not_mem_cons one_piece))

/-- A text is cut into pieces from its end on: what has no slash belongs to the last one. -/
theorem exists_pieces_append (stem : Text) :
    ∃ front last, ∀ name : Text, '/' ∉ name → pieces (stem ++ name) = front ++ [last ++ name] := by
  induction stem with
  | nil => exact ⟨[], [], fun name one_piece => pieces_of_not_mem one_piece⟩
  | cons c rest ih =>
      obtain ⟨front, last, split⟩ := ih
      by_cases slash : c = '/'
      · subst slash
        refine ⟨[] :: front, last, fun name one_piece => ?_⟩
        rw [List.cons_append, pieces, if_pos rfl, split name one_piece]
        rfl
      · cases front with
        | nil =>
            refine ⟨[], c :: last, fun name one_piece => ?_⟩
            exact pieces_cons_of_ne slash (split name one_piece)
        | cons first others =>
            refine ⟨(c :: first) :: others, last, fun name one_piece => ?_⟩
            exact pieces_cons_of_ne slash (split name one_piece)

theorem pieces_append_slash {piece : Text} (one_piece : '/' ∉ piece) (rest : Text) :
    pieces (piece ++ '/' :: rest) = piece :: pieces rest := by
  induction piece with
  | nil => rfl
  | cons c later ih =>
      have other : '/' ≠ c := List.ne_of_not_mem_cons one_piece
      exact pieces_cons_of_ne other.symm (ih (List.not_mem_of_not_mem_cons one_piece))

theorem pieces_joinWith {parts : List Text} (one_piece : ∀ part ∈ parts, '/' ∉ part)
    (some_part : parts ≠ []) : pieces (Text.joinWith ['/'] parts) = parts := by
  induction parts with
  | nil => exact absurd rfl some_part
  | cons part rest ih =>
      obtain ⟨first, later⟩ := List.forall_mem_cons.1 one_piece
      cases rest with
      | nil => exact pieces_of_not_mem first
      | cons next others =>
          rw [Text.joinWith_cons_cons, List.append_assoc, List.singleton_append,
            pieces_append_slash first, ih later (List.cons_ne_nil next others)]

/-- The components among pieces: empty ones and single dots lead nowhere. -/
def components (t : Text) : List Text :=
  (pieces t).filter fun piece => piece ≠ [] && piece ≠ ['.']

theorem ofText_eq (t : Text) : ofText t = ⟨rootOf t, components t⟩ := rfl

theorem components_slash (t : Text) : components ('/' :: t) = components t := by
  rw [components, pieces, if_pos rfl]
  rfl

theorem of_mem_components {t part : Text} (member : part ∈ components t) :
    part ≠ [] ∧ part ≠ ['.'] ∧ '/' ∉ part := by
  obtain ⟨piece, kept⟩ := List.mem_filter.1 member
  have named : part ≠ [] ∧ part ≠ ['.'] := by simpa using kept
  exact ⟨named.1, named.2, slash_not_mem_pieces t part piece⟩

theorem components_joinWith {parts : List Text}
    (named : ∀ part ∈ parts, part ≠ [] ∧ part ≠ ['.'] ∧ '/' ∉ part) :
    components (Text.joinWith ['/'] parts) = parts := by
  cases parts with
  | nil => rfl
  | cons part rest =>
      have split := pieces_joinWith (fun part member => (named part member).2.2)
        (List.cons_ne_nil part rest)
      rw [components, split, List.filter_eq_self]
      intro other member
      simp [(named other member).1, (named other member).2.1]

theorem rootOf_cases (t : Text) : rootOf t = [] ∨ rootOf t = ['/'] ∨ rootOf t = ['/', '/'] := by
  unfold rootOf
  split <;> simp

theorem head?_joinWith_components {parts : List Text}
    (named : ∀ part ∈ parts, part ≠ [] ∧ part ≠ ['.'] ∧ '/' ∉ part) :
    (Text.joinWith ['/'] parts).head? ≠ some '/' := by
  cases parts with
  | nil => simp
  | cons part rest =>
      obtain ⟨⟨some_char, _, no_slash⟩, _⟩ := List.forall_mem_cons.1 named
      obtain ⟨c, others, rfl⟩ := List.exists_cons_of_ne_nil some_char
      have other : c ≠ '/' := fun same => no_slash (by simp [same])
      cases rest <;> simp [other]

theorem rootOf_append {root rest : Text} (is_root : root = [] ∨ root = ['/'] ∨ root = ['/', '/'])
    (no_slash : rest.head? ≠ some '/') : rootOf (root ++ rest) = root := by
  cases rest with
  | nil => rcases is_root with rfl | rfl | rfl <;> rfl
  | cons c others =>
      have other : c ≠ '/' := fun same => no_slash (by simp [same])
      rcases is_root with rfl | rfl | rfl <;> simp [rootOf, other]

theorem components_append_root {root : Text}
    (is_root : root = [] ∨ root = ['/'] ∨ root = ['/', '/']) (rest : Text) :
    components (root ++ rest) = components rest := by
  rcases is_root with rfl | rfl | rfl
  · rfl
  · exact components_slash rest
  · exact (components_slash ('/' :: rest)).trans (components_slash rest)

theorem ofText_toText (t : Text) : ofText (ofText t).toText = ofText t := by
  have named : ∀ part ∈ components t, part ≠ [] ∧ part ≠ ['.'] ∧ '/' ∉ part :=
    fun part => of_mem_components
  rw [ofText_eq t, toText]
  by_cases bare : rootOf t = [] ∧ components t = []
  · obtain ⟨no_root, no_parts⟩ := bare
    rw [no_root, no_parts]
    rfl
  · rw [if_neg (by simpa using bare), ofText_eq, rootOf_append (rootOf_cases t)
      (head?_joinWith_components named), components_append_root (rootOf_cases t),
      components_joinWith named]

theorem rootOf_append_dot (stem name : Text) : rootOf (stem ++ '.' :: name) = rootOf stem := by
  match stem with
  | [] => rfl
  | [a] => by_cases slash : a = '/' <;> simp [rootOf, slash]
  | [a, b] => by_cases first : a = '/' <;> by_cases second : b = '/' <;> simp [rootOf, first, second]
  | a :: b :: c :: rest =>
      by_cases first : a = '/' <;> by_cases second : b = '/' <;> by_cases third : c = '/' <;>
        simp [rootOf, first, second, third]

/-- A text that can follow the dot in the name of a file. -/
structure IsExtension (name : Text) : Prop where
  not_empty : name ≠ []
  starts : name.head? ≠ some '.'
  no_slash : '/' ∉ name

def child (folder : Path) (name : Text) : Path :=
  ⟨folder.root, folder.parts ++ [name]⟩

@[simp] theorem directory_child (folder : Path) (name : Text) :
    (folder.child name).directory = folder := by
  simp [directory, child]

theorem placeFrom_child {name : Text} (named : name ≠ ['.', '.']) (folder : Path)
    (here : List Text) : (folder.child name).placeFrom here = folder.placeFrom here ++ [name] := by
  rw [placeFrom, child, List.foldl_append, List.foldl_cons, List.foldl_nil, follow, if_neg named]
  rfl

theorem append_extension_ne_dots {name : Text} (extension : IsExtension name) (last : Text) :
    last ++ '.' :: name ≠ ['.', '.'] := by
  obtain ⟨c, rest, rfl⟩ := List.exists_cons_of_ne_nil extension.not_empty
  intro dots
  cases last with
  | nil => exact extension.starts (congrArg List.head? (List.cons.inj dots).2)
  | cons a others =>
      have lengths := congrArg List.length dots
      simp only [List.length_append, List.length_cons, List.length_nil] at lengths
      omega

/-- The files of one stem are in one directory, and their names differ behind the dot. -/
theorem exists_child (stem : Text) :
    ∃ (folder : Path) (last : Text), ∀ name, IsExtension name →
      ofText (stem ++ '.' :: name) = folder.child (last ++ '.' :: name) := by
  obtain ⟨front, last, split⟩ := exists_pieces_append stem
  refine ⟨⟨rootOf stem, front.filter fun piece => piece ≠ [] && piece ≠ ['.']⟩, last, ?_⟩
  intro name extension
  have one_piece : '/' ∉ '.' :: name :=
    List.not_mem_cons_of_ne_of_not_mem (by decide) extension.no_slash
  have single : last ++ '.' :: name ≠ ['.'] := by
    intro dot
    have lengths := congrArg List.length dot
    have longer := List.length_pos_iff.2 extension.not_empty
    simp only [List.length_append, List.length_cons, List.length_nil] at lengths
    omega
  have kept : [last ++ '.' :: name].filter (fun piece => piece ≠ [] && piece ≠ ['.'])
      = [last ++ '.' :: name] := by
    simp [single]
  rw [ofText, rootOf_append_dot, split _ one_piece, List.filter_append, kept]
  rfl

/-- Two files of one stem lead to the same place but for their names. -/
theorem files_in_one_directory (stem : Text) {name other : Text} (first : IsExtension name)
    (second : IsExtension other) :
    (ofText (stem ++ '.' :: name)).directory = (ofText (stem ++ '.' :: other)).directory ∧
    ∀ here, ((ofText (stem ++ '.' :: name)).placeFrom here).dropLast
      = ((ofText (stem ++ '.' :: other)).placeFrom here).dropLast := by
  obtain ⟨folder, last, file⟩ := exists_child stem
  rw [file name first, file other second]
  refine ⟨by simp, fun here => ?_⟩
  rw [placeFrom_child (append_extension_ne_dots first last),
    placeFrom_child (append_extension_ne_dots second last)]
  simp

theorem append_extension_ne {name other : Text} (different : name ≠ other)
    (not_suffix : ¬ '.' :: other <:+ name) (undotted : '.' ∉ other) (first second : Text) :
    first ++ '.' :: name ≠ second ++ '.' :: other := by
  intro same
  rcases List.append_eq_append_iff.1 same with ⟨gap, rfl, inside⟩ | ⟨gap, rfl, inside⟩
  · cases gap with
    | nil => exact different (List.cons.inj inside).2
    | cons c rest => exact not_suffix ⟨rest, (List.cons.inj inside).2.symm⟩
  · cases gap with
    | nil => exact different (List.cons.inj inside).2.symm
    | cons c rest =>
        rw [(List.cons.inj inside).2] at undotted
        exact undotted (by simp)

/-- Files with such extensions are at different places, wherever their paths start: the names are
the last components of the places. -/
theorem places_apart {name other : Text} (is_extension : IsExtension name)
    (other_is_extension : IsExtension other) (different : name ≠ other)
    (not_suffix : ¬ '.' :: other <:+ name) (undotted : '.' ∉ other) (stem other_stem : Text)
    (here there : List Text) :
    (ofText (stem ++ '.' :: name)).placeFrom here
      ≠ (ofText (other_stem ++ '.' :: other)).placeFrom there := by
  obtain ⟨folder, last, file⟩ := exists_child stem
  obtain ⟨other_folder, other_last, other_file⟩ := exists_child other_stem
  rw [file name is_extension, other_file other other_is_extension,
    placeFrom_child (append_extension_ne_dots is_extension last),
    placeFrom_child (append_extension_ne_dots other_is_extension other_last)]
  intro same
  have names := (List.append_inj' same rfl).2
  exact append_extension_ne different not_suffix undotted last other_last (List.cons.inj names).1

end Path
end DotDoc
