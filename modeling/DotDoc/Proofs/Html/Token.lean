import DotDoc.Proofs.Graph.Containment
import DotDoc.Proofs.Graph.Verbatim
import DotDoc.Proofs.Record.Brackets
import DotDoc.Proofs.Text.Balance

/-!
# The label of a table is one token

Every element of a table opens as many angle brackets as it closes, and the texts that the caller
puts into a table stand inside its elements.  So a label is balanced as soon as these texts are:
the contents, the names of attributes and their values, at any depth of nesting.  The label then
stands between angle brackets that close exactly at its end, also where the document writes it with
the margin of a depth below its first line.
-/

set_option autoImplicit false

namespace DotDoc.Html

open Text (Balanced)

variable {attributes : List (String × Value)}

def attributeParts (attributes : List (String × Value)) : List Text :=
  attributes.flatMap fun entry => [entry.1.toList, entry.2.formatted]

mutual

def Content.parts : Content Value → List Text
  | .text text => [text.toList]
  | .lineBreak => []
  | .font attributes content => attributeParts attributes ++ content.parts
  | .table table => table.parts
  | .sequence items => sequenceParts items

def sequenceParts : List (Content Value) → List Text
  | [] => []
  | item :: rest => item.parts ++ sequenceParts rest

def Cell.parts : Cell Value → List Text
  | ⟨attributes, content⟩ => attributeParts attributes ++ content.parts

def cellParts : List (Cell Value) → List Text
  | [] => []
  | cell :: rest => cell.parts ++ cellParts rest

def Row.parts : Row Value → List Text
  | ⟨cells⟩ => cellParts cells

def rowParts : List (Row Value) → List Text
  | [] => []
  | row :: rest => row.parts ++ rowParts rest

def Table.parts : Table Value → List Text
  | ⟨attributes, rows⟩ => attributeParts attributes ++ rowParts rows

end

def AllBalanced (parts : List Text) : Prop :=
  ∀ part ∈ parts, Balanced part

instance (parts : List Text) : Decidable (AllBalanced parts) :=
  inferInstanceAs (Decidable (∀ part ∈ parts, Balanced part))

theorem allBalanced_append {first second : List Text} :
    AllBalanced (first ++ second) ↔ AllBalanced first ∧ AllBalanced second :=
  List.forall_mem_append

theorem filter_isBracket_attributeName (key : Text) :
    (attributeName key).filter Text.isBracket = key.filter Text.isBracket := by
  induction key with
  | nil => rfl
  | cons c rest ih =>
      rw [attributeName, List.map_cons, ← attributeName]
      by_cases underscore : c = '_'
      · rw [if_pos underscore, underscore, List.filter_cons_of_neg (by decide),
          List.filter_cons_of_neg (by decide), ih]
      · rw [if_neg underscore, List.filter_cons, List.filter_cons, ih]

theorem balanced_attributesText (balanced : AllBalanced (attributeParts attributes)) :
    Balanced (attributesText attributes) := by
  rw [attributesText, writtenAttributes, List.flatMap_map]
  apply Balanced.flatMap
  intro entry member
  have inside : ∀ part ∈ [entry.1.toList, entry.2.formatted], Balanced part :=
    fun part here => balanced part (List.mem_flatMap.2 ⟨entry, member, here⟩)
  have key : Balanced (attributeName entry.1.toList) :=
    (inside _ (by simp)).of_same_brackets (filter_isBracket_attributeName _)
  have value : Balanced entry.2.formatted := inside _ (by simp)
  have space : Balanced [' '] := Text.balanced_of_no_bracket rfl
  have equals : Balanced ['=', '"'] := Text.balanced_of_no_bracket rfl
  have quote : Balanced ['"'] := Text.balanced_of_no_bracket rfl
  simpa using (((space.append key).append equals).append value).append quote

theorem balanced_opening {name : String} (plain : name.toList.filter Text.isBracket = [])
    (balanced : AllBalanced (attributeParts attributes)) :
    Balanced (opening name attributes) := by
  have tag : opening name attributes = Text.bracketed (name.toList ++ attributesText attributes) :=
    by simp [opening, Text.bracketed]
  rw [tag]
  exact ((Text.balanced_of_no_bracket plain).append (balanced_attributesText balanced)).enclosed

theorem balanced_closing {name : String} (plain : name.toList.filter Text.isBracket = []) :
    Balanced (closing name) := by
  have tag : closing name = Text.bracketed ('/' :: name.toList) := by
    simp [closing, Text.bracketed]
  rw [tag]
  apply Balanced.enclosed
  apply Text.balanced_of_no_bracket
  rw [List.filter_cons_of_neg (by decide), plain]

theorem balanced_element {name : String} {inside : Text}
    (plain : name.toList.filter Text.isBracket = [])
    (attributes_balanced : AllBalanced (attributeParts attributes)) (balanced : Balanced inside) :
    Balanced (opening name attributes ++ inside ++ closing name) :=
  ((balanced_opening plain attributes_balanced).append balanced).append (balanced_closing plain)

theorem balanced_line {text rest : Text} (balanced : Balanced text) (later : Balanced rest) :
    Balanced (Text.indent text ++ '\n' :: rest) := by
  have feed : Balanced ['\n'] := Text.balanced_of_no_bracket rfl
  simpa using (balanced.indent.append feed).append later

theorem balanced_lines {text : Text} (balanced : Balanced text) : Balanced ('\n' :: text) := by
  have feed : Balanced ['\n'] := Text.balanced_of_no_bracket rfl
  exact feed.append balanced

mutual

theorem Content.balanced_label : (content : Content Value) → AllBalanced content.parts →
    Balanced content.label
  | .text text, balanced => by
      rw [Content.parts] at balanced
      exact balanced _ (List.mem_singleton_self _)
  | .lineBreak, _ => Balanced.enclosed (Text.balanced_of_no_bracket rfl : Balanced ['b', 'r', '/'])
  | .font attributes content, balanced => by
      rw [Content.parts, allBalanced_append] at balanced
      exact balanced_element rfl balanced.1 (content.balanced_label balanced.2)
  | .table table, balanced => table.balanced_label balanced
  | .sequence items, balanced => balanced_sequenceLabel items balanced

theorem balanced_sequenceLabel : (items : List (Content Value)) →
    AllBalanced (sequenceParts items) → Balanced (sequenceLabel items)
  | [], _ => .nil
  | item :: rest, balanced => by
      rw [sequenceParts, allBalanced_append] at balanced
      exact (item.balanced_label balanced.1).append (balanced_sequenceLabel rest balanced.2)

theorem Cell.balanced_label : (cell : Cell Value) → AllBalanced cell.parts → Balanced cell.label
  | ⟨attributes, content⟩, balanced => by
      rw [Cell.parts, allBalanced_append] at balanced
      exact balanced_element rfl balanced.1 (content.balanced_label balanced.2)

theorem balanced_cellLines : (cells : List (Cell Value)) → AllBalanced (cellParts cells) →
    Balanced (cellLines cells)
  | [], _ => .nil
  | cell :: rest, balanced => by
      rw [cellParts, allBalanced_append] at balanced
      exact balanced_line (cell.balanced_label balanced.1) (balanced_cellLines rest balanced.2)

theorem Row.balanced_label : (row : Row Value) → AllBalanced row.parts → Balanced row.label
  | ⟨cells⟩, balanced =>
      balanced_element rfl nofun (balanced_lines (balanced_cellLines cells balanced))

theorem balanced_rowLines : (rows : List (Row Value)) → AllBalanced (rowParts rows) →
    Balanced (rowLines rows)
  | [], _ => .nil
  | row :: rest, balanced => by
      rw [rowParts, allBalanced_append] at balanced
      exact balanced_line (row.balanced_label balanced.1) (balanced_rowLines rest balanced.2)

theorem Table.balanced_label : (table : Table Value) → AllBalanced table.parts →
    Balanced table.label
  | ⟨attributes, rows⟩, balanced => by
      rw [Table.parts, allBalanced_append] at balanced
      exact balanced_element rfl balanced.1 (balanced_lines (balanced_rowLines rows balanced.2))

end

def Table.labelValue (table : Table Value) : Value :=
  .str (String.ofList table.label)

theorem opensTable_label (table : Table Value) : opensTable table.label = true := by
  obtain ⟨attributes, rows⟩ := table
  rw [opensTable_iff, Table.label, opening, List.append_assoc, List.append_assoc]
  exact List.prefix_append ('<' :: "table".toList) _

theorem writtenAttribute_label (table : Table Value) :
    writtenAttribute "label".toList table.labelValue
      = "label=".toList ++ Text.bracketed table.label := by
  have text : table.labelValue.formatted = table.label := String.toList_ofList
  unfold writtenAttribute
  rw [text, if_pos ⟨rfl, opensTable_label table⟩]
  rfl

end DotDoc.Html

namespace DotDoc

open Text (hang margin)

/-! ## Labels in documents -/

/-- The statement of a vertex as it stands at a depth. -/
def Vertex.hungStatement (depth : Nat) (v : Vertex) : Text :=
  hang (margin depth) (withList ('v' :: Text.ofNat v.id) v.attrs.texts)

namespace Graph

/-- The depth at which a document writes a vertex: two levels in a block, else one. -/
inductive WritesVertex (g : Graph) (v : Vertex) : Nat → Prop
  | loose (loose : v ∈ g.looseVertices) : WritesVertex g v 1
  | block (s : Subgraph) (stored : s ∈ g.subgraphs) (inside : v ∈ g.verticesIn s) :
      WritesVertex g v 2

variable {g : Graph} {v : Vertex}

theorem exists_writesVertex (stored : v ∈ g.vertices) : ∃ depth, g.WritesVertex v depth := by
  by_cases grouped : ∃ s ∈ g.subgraphs, v ∈ g.verticesIn s
  · obtain ⟨s, s_stored, inside⟩ := grouped
    exact ⟨2, .block s s_stored inside⟩
  · refine ⟨1, .loose ?_⟩
    rw [looseVertices_eq_filter]
    simpa [mem_statedVertices, mem_verticesIn, stored] using grouped

theorem hungStatement_infix_section {vertices : List Vertex} (stored : v ∈ vertices) :
    ∃ whole ∈ sectionOf (writtenVertices vertices), v.hungStatement 1 <:+: whole := by
  apply infix_sectionOf
  refine ⟨v.written, ?_, Text.hang_infix_indent_once (List.infix_refl _)⟩
  exact List.mem_map_of_mem ((sortByNumber_perm _ _).mem_iff.2 stored)

theorem hungStatement_infix_block {s : Subgraph} (inside : v ∈ g.verticesIn s) :
    v.hungStatement 2 <:+: g.block s := by
  obtain ⟨whole, member, part⟩ := hungStatement_infix_section inside
  have section_member : whole ∈ g.blockSections s := by
    simp only [blockSections, List.mem_append]
    exact .inl (.inl (.inr member))
  exact (Text.hang_infix_indent part).trans
    (Text.infix_joinWith (List.mem_map_of_mem section_member))

theorem WritesVertex.infix_document {depth : Nat} (writes : g.WritesVertex v depth) :
    v.hungStatement depth <:+: g.document := by
  cases writes with
  | loose loose =>
      obtain ⟨whole, member, part⟩ := hungStatement_infix_section loose
      have section_member : whole ∈ g.documentSections := by
        simp only [documentSections, List.mem_append]
        exact .inl (.inl (.inr member))
      exact part.trans (Text.infix_joinWith section_member)
  | block s stored inside =>
      have section_member : g.block s ∈ g.documentSections := by
        simp only [documentSections, List.mem_append]
        exact .inl (.inl (.inl (.inr (List.mem_map_of_mem stored))))
      exact (hungStatement_infix_block inside).trans (Text.infix_joinWith section_member)

/-- The document has the statement of a vertex at a depth, and in it a label as one token: reading
from its opening bracket on gives the label and all that follows it. -/
def HoldsLabel (g : Graph) (v : Vertex) (label : Text) (depth : Nat) : Prop :=
  ∃ before front back after,
    g.document? = .ok (before ++ v.hungStatement depth ++ after) ∧
    v.hungStatement depth
      = front ++ "label=".toList ++ Text.bracketed (hang (margin depth) label) ++ back ∧
    Text.OneToken (Text.bracketed (hang (margin depth) label)) ∧
    Text.readBracketed (Text.bracketed (hang (margin depth) label) ++ back ++ after)
      = some (hang (margin depth) label, back ++ after)

theorem hungStatement_label {table : Html.Table Value} (depth : Nat)
    (labelled : ("label", table.labelValue) ∈ v.attrs.entries) :
    ∃ front back, v.hungStatement depth
      = front ++ "label=".toList ++ Text.bracketed (hang (margin depth) table.label) ++ back := by
  obtain ⟨front, back, statement⟩ := infix_withList ('v' :: Text.ofNat v.id) labelled
  have key : hang (margin depth) "label=".toList = "label=".toList :=
    Text.hang_of_not_mem (by decide)
  refine ⟨hang (margin depth) front, hang (margin depth) back, ?_⟩
  rw [Vertex.hungStatement, ← statement, Html.writtenAttribute_label]
  simp only [Text.hang_append, Text.hang_bracketed, key, List.append_assoc]

theorem WritesVertex.holdsLabel {table : Html.Table Value} {depth : Nat} (reached : Reachable g)
    (writes : g.WritesVertex v depth)
    (labelled : ("label", table.labelValue) ∈ v.attrs.entries)
    (balanced : Text.Balanced table.label) : g.HoldsLabel v table.label depth := by
  obtain ⟨before, after, document⟩ := writes.infix_document
  obtain ⟨front, back, statement⟩ := hungStatement_label depth labelled
  have hung := balanced.hang depth
  refine ⟨before, front, back, after, ?_, statement, hung.oneToken, ?_⟩
  · rw [document?, if_pos reached.consistent.isWritable, document]
  · rw [List.append_assoc]
    exact hung.read_back (back ++ after)

theorem addHtmlRecord_labelled {table : Html.Table Value} {attrs : Keywords} {id : Nat}
    {after : Graph} (added : g.addHtmlRecord (.table table) attrs = (.ok id, after)) :
    ∃ rest, after.vertices = g.vertices ++ [⟨id, ⟨("label", table.labelValue) :: rest⟩⟩] := by
  obtain ⟨rest, list⟩ : ∃ rest, (AttrList.ofKeywords (attrs.withDefault "shape"
      (.str "plaintext"))).prepend (.str "label") table.labelValue
        = ⟨("label", table.labelValue) :: rest⟩ :=
    ⟨_, congrArg AttrList.mk (AttrList.prepend_str "label" _ rfl)⟩
  obtain ⟨_, _, added⟩ := Action.check_eq_ok g added
  obtain ⟨label, found, added⟩ := Action.check_eq_ok g added
  obtain rfl := Except.ok.inj found
  obtain ⟨_, _, inserted⟩ := Action.check_eq_ok g added
  obtain ⟨same, rfl⟩ := Prod.mk.inj inserted
  obtain rfl := Except.ok.inj same
  refine ⟨rest, ?_⟩
  rw [← list]
  rfl

/-- The label of a table whose texts are balanced is one token: alone, as an attribute, and in the
document of every graph that has it on a vertex, loose or in a block. -/
theorem table_label_is_one_token (table : Html.Table Value)
    (balanced : Html.AllBalanced table.parts) :
    (writtenAttribute "label".toList table.labelValue
      = "label=".toList ++ Text.bracketed table.label ∧
      Text.OneToken (Text.bracketed table.label)) ∧
    (∀ (g after : Graph) (attrs : Keywords) (id : Nat),
      g.addHtmlRecord (.table table) attrs = (.ok id, after) →
        ∃ rest, after.vertices = g.vertices ++ [⟨id, ⟨("label", table.labelValue) :: rest⟩⟩]) ∧
    ∀ (g : Graph) (v : Vertex), Reachable g → v ∈ g.vertices →
      ("label", table.labelValue) ∈ v.attrs.entries →
        (∃ depth, g.WritesVertex v depth) ∧
          ∀ depth, g.WritesVertex v depth → g.HoldsLabel v table.label depth := by
  have label_balanced := table.balanced_label balanced
  refine ⟨⟨Html.writtenAttribute_label table, label_balanced.oneToken⟩, ?_, ?_⟩
  · intro g after attrs id added
    exact addHtmlRecord_labelled added
  · intro g v reached stored labelled
    refine ⟨exists_writesVertex stored, fun depth writes => ?_⟩
    exact writes.holdsLabel reached labelled label_balanced

/-- A font span with brackets of its own, a list and a table of two lines inside a table. -/
def nestedTable : Html.Table Value :=
  let inner : Html.Table Value := ⟨[("cell_border", .int 0)], [⟨[⟨[], .text "two\nlines"⟩]⟩]⟩
  ⟨[("port", .str "t")],
    [⟨[⟨[("title", .str "a<b>c")],
        .sequence [.font [("point_size", .int 8)] (.text "<b>x</b>"), .lineBreak, .table inner]⟩]⟩]⟩

def nestedTableGraph : Graph :=
  (ofLayers .empty .empty .empty).run
    [.addHtmlRecord (.table nestedTable) .empty,
      .addHtmlRecord (.table nestedTable) ⟨[("color", .str "red")], by decide⟩,
      .addCluster (.list [.int 1]) .empty]

theorem nestedTable_label_is_one_token :
    Html.AllBalanced nestedTable.parts ∧ Reachable nestedTableGraph ∧
    ∃ loose inside, nestedTableGraph.vertices = [loose, inside] ∧
      nestedTableGraph.HoldsLabel loose nestedTable.label 1 ∧
      nestedTableGraph.HoldsLabel inside nestedTable.label 2 := by
  have balanced : Html.AllBalanced nestedTable.parts := by decide +kernel
  have reached : Reachable nestedTableGraph := reachable_run_empty _
  have tokens := (table_label_is_one_token nestedTable balanced).2.2 nestedTableGraph
  refine ⟨balanced, reached, _, _, rfl, ?_, ?_⟩
  · refine (tokens _ reached (List.mem_cons_self ..) (List.mem_cons_self ..)).2 1 (.loose ?_)
    exact List.mem_cons_self ..
  · refine (tokens _ reached (List.mem_cons_of_mem _ (List.mem_cons_self ..))
      (List.mem_cons_self ..)).2 2 (.block _ (List.mem_cons_self ..) ?_)
    exact List.mem_cons_self ..

end Graph
end DotDoc
