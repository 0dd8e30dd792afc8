import DotDoc.Graph.Document
import DotDoc.Graph.Vertices
import DotDoc.Proofs.Attribute.Stored

/-!
# Record labels between angle brackets

A label is taken for a table when its text opens one.  The text of a record can: a plain label may
start in any way, and a row whose first cell has a port starts with an angle bracket and the name
of the port.  Nothing behind the first cell matters, because the opening of a table has no blank in
it, and a group in front starts with a brace.  So the label of a record stands between quotes
except for the records that `Body.opensTable` tells from their first cell.
-/

set_option autoImplicit false

namespace DotDoc

section Prefixes

variable {p t rest : Text} {c : Char}

theorem prefix_append_cons_iff (absent : c ∉ p) : p <+: t ++ c :: rest ↔ p <+: t := by
  constructor
  · intro whole
    have front : t <+: t ++ c :: rest := List.prefix_append t (c :: rest)
    rcases List.prefix_or_prefix_of_prefix whole front with inside | beyond
    · exact inside
    · obtain ⟨more, rfl⟩ := beyond
      have next : more <+: c :: rest := (List.prefix_append_right_inj t).1 whole
      cases more with
      | nil => simp
      | cons d more =>
          obtain ⟨rfl, -⟩ := List.cons_prefix_cons.1 next
          exact absurd (by simp) absent
  · intro inside
    exact inside.trans (List.prefix_append t (c :: rest))

theorem opensTable_iff : opensTable t = true ↔ "<table".toList <+: t :=
  List.isPrefixOf_iff_prefix

theorem opensTable_append_cons (absent : c ∉ "<table".toList) :
    opensTable (t ++ c :: rest) = opensTable t := by
  rw [Bool.eq_iff_iff, opensTable_iff, opensTable_iff]
  exact prefix_append_cons_iff absent

theorem not_opensTable_of_head (other : c ≠ '<') : opensTable (c :: rest) = false := by
  rw [← Bool.not_eq_true, opensTable_iff]
  intro whole
  exact other (List.cons_prefix_cons.1 whole).1.symm

end Prefixes

namespace Record

/-- Whether the text of a cell opens a table: a text that does, or a port whose name goes on after
the angle bracket as the opening of a table does. -/
def Cell.opensTable : Cell Value → Bool
  | .text (.str s) => DotDoc.opensTable s.toList
  | .text _ => false
  | .port name _ => "table".toList.isPrefixOf name.display
  | .group _ _ => false

def Body.opensTable : Body Value → Bool
  | .plain label => DotDoc.opensTable label.toList
  | .group _ [] => false
  | .group isColumn (first :: _) => !isColumn.isTruthy && first.opensTable

theorem opensTable_portText (name text : Value) :
    DotDoc.opensTable (portText name text) = "table".toList.isPrefixOf name.display := by
  rw [Bool.eq_iff_iff, opensTable_iff, List.isPrefixOf_iff_prefix]
  have bracket : "<table".toList <+: portText name text ↔
      "table".toList <+: name.display ++ '>' :: ' ' :: text.display := by
    simp [portText, List.cons_prefix_cons]
  rw [bracket]
  exact prefix_append_cons_iff (by decide)

theorem opensTable_groupText_braced (labels : List Text) :
    DotDoc.opensTable (groupText false labels) = false :=
  not_opensTable_of_head (by decide)

theorem opensTable_text {cell : Cell Value} {text : Text} (compiles : cell.text? = .ok text) :
    DotDoc.opensTable text = cell.opensTable := by
  cases cell with
  | text shown =>
      cases shown with
      | str s => cases compiles; rfl
      | _ => cases compiles
  | port name shown => cases compiles; exact opensTable_portText name shown
  | group isColumn cells =>
      obtain ⟨labels, _, rest⟩ := bind_eq_ok_iff.1 compiles
      cases rest
      exact opensTable_groupText_braced labels

/-- Only the first label counts: a blank follows it. -/
theorem opensTable_joinWith_separator (first : Text) (others : List Text) :
    DotDoc.opensTable (Text.joinWith separator (first :: others)) = DotDoc.opensTable first := by
  cases others with
  | nil => rfl
  | cons next others =>
      have blank_behind : Text.joinWith separator (first :: next :: others)
          = first ++ ' ' :: '|' :: ' ' :: Text.joinWith separator (next :: others) := by
        simp [separator]
      rw [blank_behind]
      exact opensTable_append_cons (by decide)

/-- A label as an attribute of the vertex that shows the record. -/
def writtenLabel (label : Text) : Text :=
  writtenAttribute "label".toList (.str (String.ofList label))

theorem opensTable_label {record : Record Value} {label : Text}
    (compiles : record.label = .ok label) : DotDoc.opensTable label = record.body.opensTable := by
  obtain ⟨body, properties⟩ := record
  cases body with
  | plain text => cases compiles; rfl
  | group isColumn cells =>
      obtain ⟨labels, cells_compile, answer⟩ := bind_eq_ok_iff.1 compiles
      cases answer
      cases cells with
      | nil =>
          cases cells_compile
          cases isColumn.isTruthy <;> rfl
      | cons first others =>
          obtain ⟨text, first_compiles, rest⟩ := bind_eq_ok_iff.1 cells_compile
          obtain ⟨texts, _, rest⟩ := bind_eq_ok_iff.1 rest
          cases rest
          cases column : isColumn.isTruthy with
          | true => simpa [Body.opensTable, column] using opensTable_groupText_braced (text :: texts)
          | false =>
              have bare := opensTable_joinWith_separator text texts
              rw [opensTable_text first_compiles] at bare
              simpa [Body.opensTable, column, groupText] using bare

theorem build_eq_ok {body : Value} {properties : Keywords} {record : Record Value}
    (built : build body properties = .ok record) :
    properties.clashesWith ["body"] = false ∧ Body.ofValue body = .ok record.body ∧
      checkNames [] record.body.ports = .ok () ∧ record.properties = properties.entries := by
  unfold build at built
  split at built
  · cases built
  · rename_i no_clash
    obtain ⟨taken, of_body, rest⟩ := bind_eq_ok_iff.1 built
    obtain ⟨_, distinct, rest⟩ := bind_eq_ok_iff.1 rest
    cases rest
    exact ⟨by simpa using no_clash, of_body, distinct, rfl⟩

theorem vertexAttributes_accepted {body : Value} {properties : Keywords} {record : Record Value}
    (built : build body properties = .ok record) :
    (Keywords.ofEntries record.vertexAttributes).clashesWith ["label"] = false := by
  obtain ⟨no_clash, _, _, held⟩ := build_eq_ok built
  rw [Keywords.clashesWith_eq_false_iff] at no_clash ⊢
  intro name member
  have given : name ∈ Entries.keys record.vertexAttributes := by
    simpa using (Entries.mem_keys_putAll_iff name).1 member
  rw [vertexAttributes, held, Entries.keys_cons, List.mem_cons] at given
  rcases given with rfl | property
  · decide
  · obtain ⟨entry, kept, rfl⟩ := List.mem_map.1 property
    obtain ⟨stored, not_fixed⟩ := List.mem_filter.1 kept
    have not_label : entry.1 ≠ "label" := by
      intro same
      simp [same] at not_fixed
    exact ⟨(no_clash entry.1 (List.mem_map_of_mem stored)).1, by simpa using not_label⟩

end Record

namespace Graph

theorem written_of_label {v : Vertex} {value : Value} {rest : Entries Value}
    (labelled : v.attrs.entries = ("label", value) :: rest) :
    ∃ more, v.written = Text.indent ('v' :: Text.ofNat v.id ++ " [".toList
      ++ writtenAttribute "label".toList value ++ more) := by
  cases rest with
  | nil =>
      refine ⟨[']'], ?_⟩
      simp [Vertex.written, withList, writtenList, AttrList.texts, labelled]
  | cons next later =>
      refine ⟨',' :: Text.joinWith [','] ((next :: later).map fun entry =>
        writtenAttribute entry.1.toList entry.2) ++ [']'], ?_⟩
      simp [Vertex.written, withList, writtenList, AttrList.texts, labelled,
        Function.comp_def]

/-- A record that was built and has a label becomes a vertex that is written with this label.  The
label stands between quotes exactly when it opens no table, which its first cell tells, and between
angle brackets otherwise. -/
theorem record_label_quoted_iff (g : Graph) {body : Value} {properties : Keywords}
    {record : Record Value} {label : Text} (built : Record.build body properties = .ok record)
    (compiles : record.label = .ok label) :
    ∃ v after more,
      g.addRecord (.record record) = (.ok v.id, after) ∧ after.vertices = g.vertices ++ [v] ∧
      v.written = Text.indent ('v' :: Text.ofNat v.id ++ " [".toList
        ++ Record.writtenLabel label ++ more) ∧
      (Record.writtenLabel label = "label=\"".toList ++ Text.escape label ++ ['"'] ↔
        record.body.opensTable = false) ∧
      (Record.writtenLabel label = "label=<".toList ++ label ++ ['>'] ↔
        record.body.opensTable = true) := by
  have accepted := Record.vertexAttributes_accepted built
  have added : g.addRecord (.record record) = (.ok g.nextVertex, (g.insertVertex
      (.str (String.ofList label)) (.ofEntries record.vertexAttributes)).2) := by
    have found : labelOf (.record record) = .ok (.str (String.ofList label)) := by
      rw [labelOf, compiles]
      rfl
    rw [addRecord, Action.check_of_ok g found]
    exact addVertex_of_given accepted rfl g
  obtain ⟨more, written⟩ := written_of_label (v := ⟨g.nextVertex, _⟩)
    (AttrList.prepend_str "label" (.ofKeywords (.ofEntries record.vertexAttributes))
      (rfl : (Value.str (String.ofList label)).isUnset = false))
  refine ⟨_, _, more, added, rfl, written, ?_⟩
  rw [← Record.opensTable_label compiles]
  cases table : opensTable label <;>
    simp [Record.writtenLabel, writtenAttribute, table, quoted]

def portRow (first second : String) : Record Value :=
  ⟨.group (.bool false) [.port (.str first) (.str "x"), .port (.str second) (.str "y")], []⟩

def portPairs (first second : String) : Value :=
  .list [.tuple [.str first, .str "x"], .tuple [.str second, .str "y"]]

theorem port_behind_first_cell_quoted :
    Record.build (portPairs "tabl" "table") .empty = .ok (portRow "tabl" "table") ∧
      (portRow "tabl" "table").label = .ok "<tabl> x | <table> y".toList ∧
      ∃ (v : Vertex) (after : Graph),
        (ofLayers .empty .empty .empty).addRecord (.record (portRow "tabl" "table"))
          = (.ok v.id, after) ∧
        Record.writtenLabel "<tabl> x | <table> y".toList
          = "label=\"<tabl> x | <table> y\"".toList := by
  have built : Record.build (portPairs "tabl" "table") .empty = .ok (portRow "tabl" "table") := rfl
  have compiles : (portRow "tabl" "table").label = .ok "<tabl> x | <table> y".toList := rfl
  obtain ⟨v, after, more, added, _, _, quoted_iff, _⟩ :=
    record_label_quoted_iff (ofLayers .empty .empty .empty) built compiles
  have between_quotes := quoted_iff.2 (by decide)
  exact ⟨built, compiles, v, after, added, between_quotes⟩

theorem port_in_first_cell_bracketed :
    Record.build (portPairs "table" "p") .empty = .ok (portRow "table" "p") ∧
      (portRow "table" "p").label = .ok "<table> x | <p> y".toList ∧
      Record.writtenLabel "<table> x | <p> y".toList
        ≠ "label=\"".toList ++ Text.escape "<table> x | <p> y".toList ++ ['"'] ∧
      ∃ after : Graph,
        (ofLayers .empty .empty .empty).addRecord (.record (portRow "table" "p"))
          = (.ok 0, after) ∧
        after.document = "digraph G \x7b\n\n  v0 ".toList
          ++ "[label=<<table> x | <p> y>,shape=\"record\"]\n\n\x7d".toList :=
  ⟨rfl, rfl, by decide, _, rfl, by decide +kernel⟩

end Graph
end DotDoc
