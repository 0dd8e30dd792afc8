import DotDoc.Proofs.Graph.Consistent
import DotDoc.Proofs.Text.Indentation
import DotDoc.Proofs.Text.Quoting

/-!
# Attributes as the document holds them

`Writes` lists the places where a document writes an attribute, with their depth: one level for
what stands at the top, two for what stands in a block.  At each of them the document holds the
written attribute with the margin of that depth hung below its first line.  So an attribute of one
line is in the document as it was written, wherever it stands.  An attribute with a line feed is
not: already the graph that has no other attribute does not contain it.
-/

set_option autoImplicit false

namespace DotDoc

open Text (hang margin)

section Parts

variable {key : String} {value : Value} {l : AttrList}

/-- The written attribute as it stands at a depth. -/
def hungAttribute (depth : Nat) (key : String) (value : Value) : Text :=
  hang (margin depth) (writtenAttribute key.toList value)

theorem mem_texts (member : (key, value) ∈ l.entries) : (key.toList, value) ∈ l.texts :=
  List.mem_map.2 ⟨(key, value), member, rfl⟩

theorem infix_withList (word : Text) (member : (key, value) ∈ l.entries) :
    writtenAttribute key.toList value <:+: withList word l.texts := by
  have text_member := mem_texts member
  have nonempty : l.texts.isEmpty = false := by
    cases texts : l.texts with
    | nil => rw [texts] at text_member; cases text_member
    | cons first rest => rfl
  have item : writtenAttribute key.toList value ∈
      l.texts.map fun entry => writtenAttribute entry.1 entry.2 :=
    List.mem_map.2 ⟨(key.toList, value), text_member, rfl⟩
  have joined : writtenAttribute key.toList value <:+: Text.joinWith [','] _ :=
    Text.infix_joinWith item
  refine joined.trans ⟨word ++ [' ', '['], [']'], ?_⟩
  simp [withList, writtenList, nonempty]

theorem hung_infix_statement (word : Text) (member : (key, value) ∈ l.entries) :
    hungAttribute 1 key value <:+: Text.indent (withList word l.texts) :=
  Text.hang_infix_indent_once (infix_withList word member)

theorem hung_infix_line (member : (key, value) ∈ l.entries) :
    ∃ line ∈ l.lines, hungAttribute 1 key value <:+: line := by
  refine ⟨Text.indent (writtenAttribute key.toList value), ?_, ?_⟩
  · exact List.mem_map.2 ⟨(key.toList, value), mem_texts member, rfl⟩
  · exact Text.hang_infix_indent_once (List.infix_refl _)

theorem infix_sectionOf {part : Text} {lines : List Text}
    (held : ∃ line ∈ lines, part <:+: line) : ∃ whole ∈ sectionOf lines, part <:+: whole := by
  obtain ⟨line, member, inside⟩ := held
  have nonempty : lines.isEmpty = false := by
    cases lines with
    | nil => cases member
    | cons first rest => rfl
  refine ⟨Text.joinLines lines, ?_, inside.trans (Text.infix_joinWith member)⟩
  simp [sectionOf, nonempty]

theorem mem_defaultLine (kind : String) (member : (key, value) ∈ l.entries) :
    Text.indent (withList kind.toList l.texts) ∈ defaultLine kind l.texts := by
  have nonempty : l.texts ≠ [] := List.ne_nil_of_mem (mem_texts member)
  simp [defaultLine, nonempty]

theorem hung_infix_vertexDefaults (edgeDefaults : AttrList) (member : (key, value) ∈ l.entries) :
    ∃ line ∈ writtenDefaults l.texts edgeDefaults.texts, hungAttribute 1 key value <:+: line :=
  ⟨_, List.mem_append_left _ (mem_defaultLine "node" member), hung_infix_statement _ member⟩

theorem hung_infix_edgeDefaults (vertexDefaults : AttrList) (member : (key, value) ∈ l.entries) :
    ∃ line ∈ writtenDefaults vertexDefaults.texts l.texts, hungAttribute 1 key value <:+: line :=
  ⟨_, List.mem_append_right _ (mem_defaultLine "edge" member), hung_infix_statement _ member⟩

theorem hung_infix_vertices {vertices : List Vertex} {v : Vertex} (stored : v ∈ vertices)
    (member : (key, value) ∈ v.attrs.entries) :
    ∃ line ∈ writtenVertices vertices, hungAttribute 1 key value <:+: line :=
  ⟨v.written, List.mem_map_of_mem ((sortByNumber_perm _ _).mem_iff.2 stored),
    hung_infix_statement _ member⟩

theorem hung_infix_edges {edges : List Edge} {e : Edge} (stored : e ∈ edges)
    (member : (key, value) ∈ e.attrs.entries) :
    ∃ line ∈ writtenEdges edges, hungAttribute 1 key value <:+: line :=
  ⟨e.written, List.mem_map_of_mem ((sortByNumber_perm _ _).mem_iff.2 stored),
    hung_infix_statement _ member⟩

end Parts

namespace Graph

/-- An attribute that the block of a subgraph writes. -/
inductive WritesIn (g : Graph) (s : Subgraph) (key : String) (value : Value) : Prop
  | vertexDefault (member : (key, value) ∈ s.vertexDefaults.entries)
  | edgeDefault (member : (key, value) ∈ s.edgeDefaults.entries)
  | styling (cluster : s.isCluster = true) (member : (key, value) ∈ s.styling.entries)
  | vertex (v : Vertex) (stored : v ∈ g.verticesIn s) (member : (key, value) ∈ v.attrs.entries)
  | edge (e : Edge) (stored : e ∈ g.edgesIn s) (member : (key, value) ∈ e.attrs.entries)

/-- An attribute that the document writes at a depth. -/
inductive Writes (g : Graph) (key : String) (value : Value) : Nat → Prop
  | own (member : (key, value) ∈ g.attrs.entries) : Writes g key value 1
  | vertexDefault (member : (key, value) ∈ g.vertexDefaults.entries) : Writes g key value 1
  | edgeDefault (member : (key, value) ∈ g.edgeDefaults.entries) : Writes g key value 1
  | vertex (v : Vertex) (loose : v ∈ g.looseVertices)
      (member : (key, value) ∈ v.attrs.entries) : Writes g key value 1
  | edge (e : Edge) (loose : e ∈ g.looseEdges)
      (member : (key, value) ∈ e.attrs.entries) : Writes g key value 1
  | block (s : Subgraph) (stored : s ∈ g.subgraphs) (inside : g.WritesIn s key value) :
      Writes g key value 2

variable {g : Graph} {key : String} {value : Value}

theorem WritesIn.infix_section {s : Subgraph} (writes : g.WritesIn s key value) :
    ∃ whole ∈ g.blockSections s, hungAttribute 1 key value <:+: whole := by
  simp only [blockSections, List.mem_append, or_and_right, exists_or]
  cases writes with
  | vertexDefault member =>
      exact .inl (.inl (.inl (.inl (.inr (infix_sectionOf (hung_infix_vertexDefaults _ member))))))
  | edgeDefault member =>
      exact .inl (.inl (.inl (.inl (.inr (infix_sectionOf (hung_infix_edgeDefaults _ member))))))
  | styling cluster member =>
      rw [Subgraph.stylingLines, if_pos cluster]
      exact .inl (.inl (.inl (.inr (infix_sectionOf (hung_infix_line member)))))
  | vertex v stored member =>
      exact .inl (.inl (.inr (infix_sectionOf (hung_infix_vertices stored member))))
  | edge e stored member =>
      exact .inl (.inr (infix_sectionOf (hung_infix_edges stored member)))

theorem WritesIn.infix_block {s : Subgraph} (writes : g.WritesIn s key value) :
    hungAttribute 2 key value <:+: g.block s := by
  obtain ⟨whole, member, inside⟩ := writes.infix_section
  exact (Text.hang_infix_indent inside).trans
    (Text.infix_joinWith (List.mem_map_of_mem member))

theorem Writes.infix_section {depth : Nat} (writes : g.Writes key value depth) :
    ∃ whole ∈ g.documentSections, hungAttribute depth key value <:+: whole := by
  simp only [documentSections, List.mem_append, or_and_right, exists_or]
  cases writes with
  | own member =>
      exact .inl (.inl (.inl (.inl (.inl (.inr (infix_sectionOf (hung_infix_line member)))))))
  | vertexDefault member =>
      exact .inl (.inl (.inl (.inl (.inr (infix_sectionOf (hung_infix_vertexDefaults _ member))))))
  | edgeDefault member =>
      exact .inl (.inl (.inl (.inl (.inr (infix_sectionOf (hung_infix_edgeDefaults _ member))))))
  | vertex v loose member =>
      exact .inl (.inl (.inr (infix_sectionOf (hung_infix_vertices loose member))))
  | edge e loose member =>
      exact .inl (.inr (infix_sectionOf (hung_infix_edges loose member)))
  | block s stored inside =>
      exact .inl (.inl (.inl (.inr ⟨g.block s, List.mem_map_of_mem stored, inside.infix_block⟩)))

theorem Writes.infix_document {depth : Nat} (writes : g.Writes key value depth) :
    hungAttribute depth key value <:+: g.document := by
  obtain ⟨whole, member, inside⟩ := writes.infix_section
  exact inside.trans (Text.infix_joinWith member)

theorem Writes.depth_pos {depth : Nat} (writes : g.Writes key value depth) : 0 < depth := by
  cases writes <;> decide

/-- Whether an attribute stands between angle brackets: a label that opens a table. -/
def Bracketed (key : String) (value : Value) : Prop :=
  key = "label" ∧ opensTable value.formatted = true

instance (key : String) (value : Value) : Decidable (Bracketed key value) :=
  inferInstanceAs (Decidable (_ ∧ _))

theorem writtenAttribute_of_not_bracketed (plain : ¬Bracketed key value) :
    writtenAttribute key.toList value
      = key.toList ++ ['=', '"'] ++ Text.escape value.formatted ++ ['"'] := by
  have not_table : ¬(key.toList = "label".toList ∧ opensTable value.formatted = true) := by
    rw [String.toList_inj]
    exact plain
  unfold writtenAttribute
  rw [if_neg not_table]
  simp only [quoted, List.append_assoc, List.cons_append, List.nil_append]

theorem lineFeed_mem_writtenAttribute (plain : ¬Bracketed key value) :
    '\n' ∈ writtenAttribute key.toList value ↔ '\n' ∈ key.toList ∨ '\n' ∈ value.formatted := by
  rw [writtenAttribute_of_not_bracketed plain]
  simp [Text.mem_escape_iff]

def ofAttribute (key : String) (value : Value) : Graph :=
  ofLayers ⟨[(key, value)]⟩ .empty .empty

theorem reachable_ofAttribute (set : value.isUnset = false) :
    Reachable (ofAttribute key value) := by
  have layer : layerOf (.dict [(.str key, value)]) = .ok ⟨[(key, value)]⟩ := by
    simp [layerOf, AttrList.merge, AttrList.update, Value.mapping?, AttrList.storeAll,
      AttrList.store, set, AttrList.empty, Entries.put, Value.name, Keywords.empty, AttrList.putAll]
  have none : layerOf .null = .ok .empty := rfl
  have built : new (.dict [(.str key, value)]) .null .null = .ok (ofAttribute key value) := by
    rw [new, layer, none]
    rfl
  exact .new built

theorem document_ofAttribute (key : String) (value : Value) :
    (ofAttribute key value).document
      = "digraph G \x7b\n\n  ".toList ++ hungAttribute 1 key value ++ "\n\n\x7d".toList := by
  have one : margin 1 = Text.indentUnit := rfl
  simp [document, documentSections, ofAttribute, ofLayers, sectionOf, AttrList.lines,
    AttrList.texts, writtenDefaults, defaultLine, AttrList.empty, writtenVertices, writtenEdges,
    looseVertices, looseEdges, sortByNumber, joinSections, Text.joinLines, Text.indent,
    Text.indentBy_eq, hungAttribute, one, Text.indentUnit]

/-- The quote that ends the attribute is the last one of the document. -/
theorem not_infix_ofAttribute (plain : ¬Bracketed key value)
    (feed : '\n' ∈ writtenAttribute key.toList value) :
    ¬writtenAttribute key.toList value <:+: (ofAttribute key value).document := by
  rw [document_ofAttribute, hungAttribute]
  rw [writtenAttribute_of_not_bracketed plain] at feed ⊢
  have feed_before_quote : '\n' ∈ key.toList ++ ['=', '"'] ++ Text.escape value.formatted := by
    simpa using feed
  exact Text.not_infix_around_hang (Text.margin_ne_nil Nat.one_pos) (Text.not_mem_margin 1)
    (by decide) (by decide) (by decide) (by decide) feed_before_quote

/-- Every attribute that a document writes is in it with the margin of its depth after each line
feed.  So an attribute that stands between quotes is in every document that writes it as it was
written exactly when neither its key nor its value has a line feed. -/
theorem attribute_verbatim_iff (key : String) (value : Value) (plain : ¬Bracketed key value) :
    (∀ (g : Graph) (depth : Nat), Reachable g → g.Writes key value depth →
      (∃ text, g.document? = .ok text ∧ hungAttribute depth key value <:+: text) ∧
      (hungAttribute depth key value = writtenAttribute key.toList value ↔
        '\n' ∉ key.toList ∧ '\n' ∉ value.formatted)) ∧
    (value.isUnset = false →
      ((∀ (g : Graph) (depth : Nat), Reachable g → g.Writes key value depth →
          writtenAttribute key.toList value <:+: g.document) ↔
        '\n' ∉ key.toList ∧ '\n' ∉ value.formatted)) := by
  have one_line : '\n' ∉ writtenAttribute key.toList value ↔
      '\n' ∉ key.toList ∧ '\n' ∉ value.formatted := by
    rw [lineFeed_mem_writtenAttribute plain, not_or]
  rw [← one_line]
  refine ⟨fun g depth reached writes => ⟨?_, ?_⟩, fun set => ⟨fun all feed => ?_, ?_⟩⟩
  · exact ⟨g.document, if_pos reached.consistent.isWritable, writes.infix_document⟩
  · exact Text.hang_eq_self_iff (Text.margin_ne_nil writes.depth_pos)
  · exact not_infix_ofAttribute plain feed
      (all _ 1 (reachable_ofAttribute set) (.own (List.mem_singleton_self _)))
  · intro no_feed g depth _ writes
    have inside := writes.infix_document
    rwa [hungAttribute, Text.hang_of_not_mem no_feed] at inside

/-- A blue cluster around a vertex with a label of two lines. -/
def twoLineCluster : Graph :=
  (ofLayers .empty .empty .empty).run
    [.addVertex (.str "make a\nstring") .empty,
      .addCluster (.list [.int 0]) ⟨[("color", .str "blue")], by decide⟩]

theorem reachable_twoLineCluster : Reachable twoLineCluster :=
  Reachable.run (.new (rfl : Graph.new .null .null .null = .ok (ofLayers .empty .empty .empty))) _

theorem twoLineCluster_writes_color : twoLineCluster.Writes "color" (.str "blue") 2 := by
  obtain ⟨s, stored, cluster, styling⟩ : ∃ s, s ∈ twoLineCluster.subgraphs ∧
      s.isCluster = true ∧ s.styling.entries = [("color", .str "blue")] :=
    ⟨_, List.mem_singleton_self _, rfl, rfl⟩
  exact .block s stored (.styling cluster (styling ▸ List.mem_singleton_self _))

theorem twoLineCluster_writes_label :
    twoLineCluster.Writes "label" (.str "make a\nstring") 2 := by
  obtain ⟨s, stored, held⟩ : ∃ s, s ∈ twoLineCluster.subgraphs ∧
      twoLineCluster.verticesIn s = [⟨0, ⟨[("label", .str "make a\nstring")]⟩⟩] :=
    ⟨_, List.mem_singleton_self _, rfl⟩
  exact .block s stored (.vertex _ (held ▸ List.mem_singleton_self _) (List.mem_singleton_self _))

theorem twoLineCluster_color_verbatim :
    ¬Bracketed "color" (.str "blue") ∧ Reachable twoLineCluster ∧
      twoLineCluster.Writes "color" (.str "blue") 2 ∧
      writtenAttribute "color".toList (.str "blue") <:+: twoLineCluster.document := by
  have plain : ¬Bracketed "color" (.str "blue") := by decide
  have one_line : '\n' ∉ "color".toList ∧ '\n' ∉ (Value.str "blue").formatted := by decide
  have verbatim := ((attribute_verbatim_iff "color" (.str "blue") plain).2 rfl).2 one_line
  exact ⟨plain, reachable_twoLineCluster, twoLineCluster_writes_color,
    verbatim _ 2 reachable_twoLineCluster twoLineCluster_writes_color⟩

theorem twoLineCluster_label_not_verbatim :
    ¬Bracketed "label" (.str "make a\nstring") ∧ Reachable twoLineCluster ∧
      twoLineCluster.Writes "label" (.str "make a\nstring") 2 ∧
      twoLineCluster.document? = .ok twoLineCluster.document ∧
      ¬writtenAttribute "label".toList (.str "make a\nstring") <:+: twoLineCluster.document :=
  ⟨by decide, reachable_twoLineCluster, twoLineCluster_writes_label, rfl, by decide +kernel⟩

end Graph
end DotDoc
