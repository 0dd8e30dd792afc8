import DotDoc.Html.Build
import DotDoc.Proofs.Attribute.Stored
import DotDoc.Proofs.Html.Layout

/-!
# Ports of a table and ports in its label

The ports of a table are compared when it is built, by the names that they display.  What its label
shows of a port is the text between the quotes of a `port` attribute in a `<table>` or `<td>` tag.
The tags are read off the pieces of the label, so both lists run through the same tags in the same
order, and a table is refused exactly when two of the displayed names are equal.

The two texts of one port need not be equal.  A truth value displays as a name with a capital
letter and is written in lower case, and behind a line feed the margin of its depth is written into
a value.  Every other port is written as it displays.
-/

set_option autoImplicit false

namespace DotDoc

open Text (hang margin)

namespace Value

def IsTruthValue (v : Value) : Prop :=
  ∃ b, v = .bool b

/-- At a depth a value is written as it displays, unless it is a truth value or has a line feed
that a margin follows. -/
theorem hang_formatted_eq_display_iff (depth : Nat) (v : Value) :
    hang (margin depth) v.formatted = v.display ↔
      ¬v.IsTruthValue ∧ (depth = 0 ∨ '\n' ∉ v.display) := by
  by_cases truth : v.IsTruthValue
  · obtain ⟨b, rfl⟩ := truth
    have differs : hang (margin depth) (bool b).formatted ≠ (bool b).display := by
      have one_line : '\n' ∉ (bool b).formatted := by cases b <;> decide
      rw [Text.hang_of_not_mem one_line]
      cases b <;> decide
    simp [differs, IsTruthValue]
  · have text : v.formatted = v.display := by
      cases v with
      | bool b => exact absurd ⟨b, rfl⟩ truth
      | _ => rfl
    rw [text, and_iff_right truth]
    cases depth with
    | zero => simp
    | succ n =>
        rw [Text.hang_eq_self_iff (Text.margin_ne_nil (Nat.succ_pos n))]
        simp

end Value

namespace Html

theorem attributeName_of_not_mem {key : Text} (no_underscore : '_' ∉ key) :
    attributeName key = key := by
  have kept : ∀ c ∈ key, (if c = '_' then '-' else c) = id c := by
    intro c member
    have other : c ≠ '_' := by
      rintro rfl
      exact no_underscore member
    exact if_neg other
  rw [attributeName, List.map_congr_left kept, List.map_id]

theorem attributeName_eq_iff {key name : Text} (no_hyphen : '-' ∉ name)
    (no_underscore : '_' ∉ name) : attributeName key = name ↔ key = name := by
  constructor
  · rintro rfl
    have kept : '_' ∉ key := fun member => no_hyphen (List.mem_map.2 ⟨'_', member, rfl⟩)
    exact (attributeName_of_not_mem kept).symm
  · rintro rfl
    exact attributeName_of_not_mem no_underscore

theorem hang_eq_iff_of_not_mem {m t line : Text} (one_line : '\n' ∉ line) :
    hang m t = line ↔ t = line := by
  constructor
  · rintro rfl
    have unbroken : '\n' ∉ t := fun member =>
      one_line (List.mem_flatMap.2 ⟨'\n', member, by simp⟩)
    rw [Text.hang_of_not_mem unbroken]
  · rintro rfl
    exact Text.hang_of_not_mem one_line

namespace Tag

/-- Whether the tag opens an element that can have a port. -/
def isPortElement (t : Tag) : Bool :=
  t.element = "table" || t.element = "td"

def portValue? (t : Tag) : Option Value :=
  if t.isPortElement then Entries.find? "port" t.attributes else none

/-- The text of the `port` attribute that is written in the tag. -/
def port? (t : Tag) : Option Text :=
  if t.isPortElement then (t.written.find? fun entry => entry.1 = "port".toList).map Prod.snd
  else none

theorem port?_eq (t : Tag) :
    t.port? = t.portValue?.map fun v => hang (margin t.depth) v.formatted := by
  obtain ⟨element, attributes, depth⟩ := t
  have found : ∀ attributes : List (String × Value),
      ((Tag.mk element attributes depth).written.find? fun entry => entry.1 = "port".toList).map
        Prod.snd
      = (Entries.find? "port" attributes).map fun v => hang (margin depth) v.formatted := by
    intro attributes
    induction attributes with
    | nil => rfl
    | cons entry rest ih =>
        obtain ⟨key, value⟩ := entry
        have named : hang (margin depth) (attributeName key.toList) = "port".toList ↔
            key = "port" := by
          rw [hang_eq_iff_of_not_mem (by decide), attributeName_eq_iff (by decide) (by decide),
            String.toList_inj]
        rw [written, List.map_cons, List.find?_cons, Entries.find?]
        by_cases here : key = "port"
        · have shown := named.2 here
          rw [if_pos here]
          simp only [shown, decide_true]
          rfl
        · have other : ¬hang (margin depth) (attributeName key.toList) = "port".toList :=
            fun same => here (named.1 same)
          rw [if_neg here, ← ih]
          simp only [other, decide_false]
          rfl
  unfold port? portValue?
  split
  · exact found attributes
  · rfl

/-- Whether a port that the tag names is written as it displays. -/
def WritesPortAsNamed (t : Tag) : Prop :=
  ∀ v, t.portValue? = some v → ¬v.IsTruthValue ∧ (t.depth = 0 ∨ '\n' ∉ v.display)

end Tag

/-- The ports that the tags among pieces name, as they display. -/
def namedPorts (pieces : List Piece) : List Text :=
  (Piece.tags pieces).filterMap fun t => t.portValue?.map Value.display

theorem namedPorts_append (first second : List Piece) :
    namedPorts (first ++ second) = namedPorts first ++ namedPorts second := by
  rw [namedPorts, Piece.tags_append, List.filterMap_append, ← namedPorts, ← namedPorts]

theorem namedPorts_between (text : Text) (rest : List Piece) :
    namedPorts (.between text :: rest) = namedPorts rest :=
  rfl

theorem namedPorts_port {t : Tag} (port : t.isPortElement = true) (rest : List Piece) :
    namedPorts (.tag t :: rest) = portOf t.attributes ++ namedPorts rest := by
  rw [namedPorts, Piece.tags_cons_tag, List.filterMap_cons, ← namedPorts, Tag.portValue?,
    if_pos port, portOf]
  cases Entries.find? "port" t.attributes <;> rfl

theorem namedPorts_other {t : Tag} (other : t.isPortElement = false) (rest : List Piece) :
    namedPorts (.tag t :: rest) = namedPorts rest := by
  rw [namedPorts, Piece.tags_cons_tag, List.filterMap_cons, ← namedPorts, Tag.portValue?,
    if_neg (by simp [other])]
  rfl

/-- The texts in the `port` attributes of the label, in the order of the tags. -/
def Table.writtenPorts (table : Table Value) : List Text :=
  table.tags.filterMap Tag.port?

mutual

theorem Content.ports_eq : (depth : Nat) → (content : Content Value) →
    content.ports = namedPorts (content.pieces depth)
  | _, .text _ => rfl
  | _, .lineBreak => rfl
  | depth, .font attributes content => by
      rw [Content.ports, content.ports_eq depth, Content.pieces, List.cons_append,
        namedPorts_other rfl, namedPorts_append, namedPorts_between]
      exact (List.append_nil _).symm
  | depth, .table table => table.ports_eq depth
  | depth, .sequence items => sequencePorts_eq depth items

theorem sequencePorts_eq : (depth : Nat) → (items : List (Content Value)) →
    sequencePorts items = namedPorts (sequencePieces depth items)
  | _, [] => rfl
  | depth, item :: rest => by
      rw [sequencePorts, item.ports_eq depth, sequencePorts_eq depth rest, sequencePieces,
        namedPorts_append]

theorem cellPorts_eq : (depth : Nat) → (cells : List (Cell Value)) →
    cellPorts cells = namedPorts (cellPieces depth cells)
  | _, [] => rfl
  | depth, ⟨attributes, content⟩ :: rest => by
      rw [cellPorts, content.ports_eq (depth + 1), cellPorts_eq depth rest, cellPieces, Cell.pieces,
        List.cons_append, namedPorts_between, namedPorts_append, List.cons_append,
        namedPorts_port rfl, namedPorts_append, namedPorts_between, List.append_assoc]
      simp [namedPorts]

theorem rowPorts_eq : (depth : Nat) → (rows : List (Row Value)) →
    rowPorts rows = namedPorts (rowPieces depth rows)
  | _, [] => rfl
  | depth, ⟨cells⟩ :: rest => by
      rw [rowPorts, cellPorts_eq (depth + 1) cells, rowPorts_eq depth rest, rowPieces, Row.pieces,
        List.cons_append, namedPorts_between, namedPorts_append, List.cons_append,
        namedPorts_other rfl, namedPorts_append, namedPorts_between]
      simp [namedPorts]

theorem Table.ports_eq : (depth : Nat) → (table : Table Value) →
    table.ports = namedPorts (table.pieces depth)
  | depth, ⟨attributes, rows⟩ => by
      rw [Table.ports, rowPorts_eq depth rows, Table.pieces, List.cons_append,
        namedPorts_port rfl, namedPorts_append, namedPorts_between]
      simp [namedPorts]

end

/-- Two texts for every value that some members have give one list only if they are equal for each
of these values. -/
theorem filterMap_map_eq_iff {α β γ : Type} {value? : α → Option β} {p q : α → β → γ}
    {members : List α} :
    (members.filterMap fun a => (value? a).map (p a))
        = (members.filterMap fun a => (value? a).map (q a)) ↔
      ∀ a ∈ members, ∀ b, value? a = some b → p a b = q a b := by
  induction members with
  | nil => simp
  | cons a rest ih =>
      cases here : value? a with
      | none => simp [here, ih]
      | some b => simp [here, ih]

theorem Table.ports_eq_writtenPorts_iff (t : Table Value) :
    t.ports = t.writtenPorts ↔ ∀ tag ∈ t.tags, tag.WritesPortAsNamed := by
  have written : t.writtenPorts
      = t.tags.filterMap fun tag =>
          tag.portValue?.map fun v => hang (margin tag.depth) v.formatted :=
    List.filterMap_congr fun tag _ => tag.port?_eq
  rw [t.ports_eq 0, written, eq_comm]
  refine filterMap_map_eq_iff.trans ?_
  simp only [Value.hang_formatted_eq_display_iff]
  rfl

/-! ## The check on ports -/

theorem firstRepeated_eq_none_iff {seen names : List Text} :
    firstRepeated seen names = none ↔ names.Nodup ∧ ∀ name ∈ names, name ∉ seen := by
  induction names generalizing seen with
  | nil => simp [firstRepeated]
  | cons name rest ih =>
      rw [firstRepeated]
      by_cases repeated : name ∈ seen
      · simp [repeated]
      · simp only [List.contains_eq_mem, repeated, decide_false, Bool.false_eq_true, if_false, ih,
          List.mem_cons, not_or, List.nodup_cons]
        constructor
        · rintro ⟨distinct, apart⟩
          refine ⟨⟨fun member => (apart name member).1 rfl, distinct⟩, ?_⟩
          rintro other (rfl | member)
          · exact repeated
          · exact (apart other member).2
        · rintro ⟨⟨new, distinct⟩, apart⟩
          refine ⟨distinct, fun other member => ⟨?_, apart other (.inr member)⟩⟩
          rintro rfl
          exact new member

theorem rowsOf_map_tableRow (rows : List (Row Value)) : rowsOf (rows.map .tableRow) = .ok rows := by
  induction rows with
  | nil => rfl
  | cons row rest ih =>
      rw [List.map_cons, rowsOf, ih]
      rfl

theorem checkPorts_cases (t : Table Value) :
    t.ports.Nodup ∧ checkPorts t = .ok t ∨
      ¬t.ports.Nodup ∧ ∃ name, checkPorts t = .error (.duplicatePort name) := by
  unfold checkPorts
  cases repeated : firstRepeated [] t.ports with
  | none =>
      have distinct := (firstRepeated_eq_none_iff.1 repeated).1
      exact .inl ⟨distinct, rfl⟩
  | some name =>
      refine .inr ⟨fun distinct => ?_, _, rfl⟩
      have unseen := firstRepeated_eq_none_iff.2 ⟨distinct, fun _ _ => List.not_mem_nil⟩
      exact Option.some_ne_none name (repeated.symm.trans unseen)

/-- A table with these ports in its tags is refused for a port exactly when one stands there twice,
and if it is built its ports are those in the tags. -/
def ChecksWrittenPorts (t : Table Value) (built : Except Error (Table Value)) : Prop :=
  ((∃ name, built = .error (.duplicatePort name)) ↔ ¬t.writtenPorts.Nodup) ∧
    ∀ t', built = .ok t' → t'.ports = t.writtenPorts

theorem checksWrittenPorts_iff (t : Table Value) :
    ChecksWrittenPorts t (checkPorts t) ↔
      t.ports = t.writtenPorts ∨ ¬t.ports.Nodup ∧ ¬t.writtenPorts.Nodup := by
  unfold ChecksWrittenPorts
  rcases checkPorts_cases t with ⟨distinct, built⟩ | ⟨repeated, name, refused⟩
  · have never_refused : ¬∃ name, Except.ok t = Except.error (Error.duplicatePort name) := by simp
    rw [built]
    constructor
    · rintro ⟨_, same⟩
      exact .inl (same t rfl)
    · rintro (same | ⟨repeated, _⟩)
      · have written_once : t.writtenPorts.Nodup := same ▸ distinct
        refine ⟨iff_of_false never_refused (not_not_intro written_once), ?_⟩
        rintro _ ⟨⟩
        exact same
      · exact absurd distinct repeated
  · rw [refused]
    constructor
    · rintro ⟨refused_iff, _⟩
      exact .inr ⟨repeated, refused_iff.1 ⟨name, rfl⟩⟩
    · intro either
      have written_twice : ¬t.writtenPorts.Nodup := by
        rcases either with same | ⟨_, twice⟩
        · exact same ▸ repeated
        · exact twice
      refine ⟨iff_of_true ⟨name, rfl⟩ written_twice, ?_⟩
      rintro _ ⟨⟩

/-- The table of rows under attributes, its ports not compared yet. -/
def assembled (rows : List (Row Value)) (attributes : Keywords) : Table Value :=
  ⟨attributes.entries, rows⟩

theorem table_of_rows {listed : Value} {rows : List (Row Value)} {attributes : Keywords}
    (items : items? listed = some (rows.map .tableRow))
    (accepted : attributes.clashesWith ["rows"] = false) :
    table listed attributes = checkPorts (assembled rows attributes) := by
  rw [table, if_neg (by simp [accepted]), items]
  change (rowsOf (rows.map .tableRow) >>= fun given => checkPorts ⟨attributes.entries, given⟩) = _
  rw [rowsOf_map_tableRow]
  rfl

/-- A table of rows is refused exactly when two of its ports display alike, and is built with these
rows and attributes otherwise.  The check is one on the `port` attributes in the tags of the label
exactly when each tag writes its port as it displays, or when a port is there twice both ways. -/
theorem port_check_matches_tags_iff {listed : Value} {rows : List (Row Value)}
    {attributes : Keywords} (items : items? listed = some (rows.map .tableRow))
    (accepted : attributes.clashesWith ["rows"] = false) :
    (assembled rows attributes).label = Piece.join ((assembled rows attributes).pieces 0) ∧
      ((∃ name, table listed attributes = .error (.duplicatePort name)) ↔
        ¬(assembled rows attributes).ports.Nodup) ∧
      ((assembled rows attributes).ports.Nodup →
        table listed attributes = .ok (assembled rows attributes)) ∧
      (ChecksWrittenPorts (assembled rows attributes) (table listed attributes) ↔
        (∀ tag ∈ (assembled rows attributes).tags, tag.WritesPortAsNamed) ∨
          ¬(assembled rows attributes).ports.Nodup ∧
            ¬(assembled rows attributes).writtenPorts.Nodup) := by
  rw [table_of_rows items accepted, checksWrittenPorts_iff, Table.ports_eq_writtenPorts_iff]
  refine ⟨Table.label_eq _, ?_, ?_, Iff.rfl⟩
  · rcases checkPorts_cases (assembled rows attributes) with ⟨distinct, ok⟩ | ⟨repeated, _, refused⟩
    · simp [ok, distinct]
    · simp [refused, repeated]
  · intro distinct
    rcases checkPorts_cases (assembled rows attributes) with ⟨_, ok⟩ | ⟨repeated, _⟩
    · exact ok
    · exact absurd distinct repeated

def portCell (name : Value) (content : Content Value) : Cell Value :=
  ⟨[("port", name)], content⟩

def deepRows : List (Row Value) :=
  [⟨[portCell (.str "a") (.sequence [.text "two\nlines", .font [("color", .str "red")]
    (.table ⟨[("port", .int 7)], [⟨[portCell (.str "b") .lineBreak]⟩]⟩)])]⟩]

def borderedPort : Keywords :=
  ⟨[("border", .bool false), ("port", .str "p")], by decide⟩

theorem deepRows_ports_checked :
    items? (.tuple (deepRows.map .tableRow)) = some (deepRows.map .tableRow) ∧
      borderedPort.clashesWith ["rows"] = false ∧
      table (.tuple (deepRows.map .tableRow)) borderedPort = .ok (assembled deepRows borderedPort) ∧
      (assembled deepRows borderedPort).writtenPorts
        = ["p".toList, "a".toList, "7".toList, "b".toList] ∧
      ChecksWrittenPorts (assembled deepRows borderedPort)
        (table (.tuple (deepRows.map .tableRow)) borderedPort) := by
  have items : items? (.tuple (deepRows.map .tableRow)) = some (deepRows.map .tableRow) := rfl
  have accepted : borderedPort.clashesWith ["rows"] = false := by decide
  obtain ⟨_, _, built, checks_iff⟩ := port_check_matches_tags_iff items accepted
  have same : (assembled deepRows borderedPort).ports
      = (assembled deepRows borderedPort).writtenPorts := by decide +kernel
  have as_named := (Table.ports_eq_writtenPorts_iff _).1 same
  exact ⟨items, accepted, built (by decide +kernel), by decide +kernel, checks_iff.2 (.inl as_named)⟩

/-- A cell whose port is a truth value beside one whose port is the text that this is written as. -/
def truthRows : List (Row Value) :=
  [⟨[portCell (.bool true) (.text "a"), portCell (.str "true") (.text "b")]⟩]

theorem truth_value_port_written_twice :
    table (.list (truthRows.map .tableRow)) .empty = .ok (assembled truthRows .empty) ∧
      (assembled truthRows .empty).ports = ["True".toList, "true".toList] ∧
      (assembled truthRows .empty).writtenPorts = ["true".toList, "true".toList] ∧
      (assembled truthRows .empty).label
        = "<table>\n  <tr>\n    <td port=\"true\">a</td>\n".toList
          ++ "    <td port=\"true\">b</td>\n  </tr>\n</table>".toList ∧
      ¬ChecksWrittenPorts (assembled truthRows .empty)
        (table (.list (truthRows.map .tableRow)) .empty) := by
  have built : table (.list (truthRows.map .tableRow)) .empty
      = .ok (assembled truthRows .empty) := rfl
  have ports_differ : (assembled truthRows .empty).ports
      ≠ (assembled truthRows .empty).writtenPorts := by decide
  refine ⟨built, by decide, by decide, by decide +kernel, ?_⟩
  rintro ⟨_, same⟩
  exact ports_differ (same _ built)

end Html
end DotDoc
