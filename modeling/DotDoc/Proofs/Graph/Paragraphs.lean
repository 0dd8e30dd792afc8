import DotDoc.Proofs.Text.Statements

/-!
# The paragraphs of a document

A document is a list of paragraphs with a blank line between neighbours, and a paragraph is a list
of items at one depth: statements of vertices, statements of edges, and other lines.  The
paragraphs of a block stand among those of the document.  So what a block and a document write can
be read off their paragraphs.
-/

set_option autoImplicit false

namespace DotDoc

inductive Item where
  | line (text : Text)
  | vertex (v : Vertex)
  | edge (e : Edge)

namespace Item

def text : Item → Text
  | line text => text
  | vertex v => v.written
  | edge e => e.written

def vertex? : Item → Option Vertex
  | vertex v => some v
  | _ => none

def edge? : Item → Option Edge
  | edge e => some e
  | _ => none

end Item

structure Paragraph where
  depth : Nat
  items : List Item

namespace Paragraph

/-- The text of a paragraph, which is left out when it has no items. -/
def texts (p : Paragraph) : List Text :=
  sectionOf (p.items.map fun item => Text.indentBy (Text.margin p.depth) item.text)

/-- The paragraphs with blank lines between them. -/
def textOf (paragraphs : List Paragraph) : Text :=
  joinSections (paragraphs.flatMap texts)

def statedVertices (paragraphs : List Paragraph) : List Vertex :=
  paragraphs.flatMap fun p => p.items.filterMap Item.vertex?

def statedEdges (paragraphs : List Paragraph) : List Edge :=
  paragraphs.flatMap fun p => p.items.filterMap Item.edge?

theorem texts_zero (items : List Item) : texts ⟨0, items⟩ = sectionOf (items.map Item.text) := by
  simp [texts, Text.indentBy_eq]

theorem texts_one (items : List Item) :
    texts ⟨1, items⟩ = (sectionOf (items.map Item.text)).map Text.indent := by
  by_cases none : items = []
  · rw [none]
    rfl
  · have indented := Text.indent_joinLines (mt List.map_eq_nil_iff.1 none : items.map Item.text ≠ [])
    rw [List.map_map] at indented
    rw [texts, sectionOf, sectionOf, if_neg (by simp [none]), if_neg (by simp [none]),
      List.map_singleton, indented]
    rfl

theorem map_text_lines (lines : List Text) : (lines.map Item.line).map Item.text = lines := by
  rw [List.map_map]
  exact List.map_id lines

theorem map_text_vertices (vertices : List Vertex) :
    ((sortByNumber Vertex.id vertices).map Item.vertex).map Item.text
      = writtenVertices vertices := by
  rw [List.map_map]
  rfl

theorem map_text_edges (edges : List Edge) :
    ((sortByNumber Edge.id edges).map Item.edge).map Item.text = writtenEdges edges := by
  rw [List.map_map]
  rfl

end Paragraph

namespace Text

variable {separator : Text}

theorem joinWith_cons {item : Text} {items : List Text} (nonempty : items ≠ []) :
    joinWith separator (item :: items) = item ++ separator ++ joinWith separator items := by
  obtain ⟨next, rest, rfl⟩ := List.exists_cons_of_ne_nil nonempty
  rfl

theorem joinWith_group {group : List Text} (nonempty : group ≠ []) (before after : List Text) :
    joinWith separator (before ++ joinWith separator group :: after)
      = joinWith separator (before ++ group ++ after) := by
  induction before with
  | nil =>
      rw [List.nil_append, List.nil_append]
      induction group with
      | nil => exact absurd rfl nonempty
      | cons item rest ih =>
          by_cases last : rest = []
          · rw [last, joinWith_singleton, List.singleton_append]
          · have more : rest ++ after ≠ [] := List.append_ne_nil_of_left_ne_nil last after
            rw [joinWith_cons last, List.cons_append, joinWith_cons more, ← ih last]
            cases after with
            | nil => rfl
            | cons next later => simp
  | cons item rest ih =>
      rw [List.cons_append, joinWith_cons (by simp), ih, List.cons_append, List.cons_append,
        joinWith_cons (by simp [nonempty])]

theorem joinWith_groups {α : Type} (separator : Text) (groups : List α) (texts : α → List Text)
    (nonempty : ∀ a ∈ groups, texts a ≠ []) (before after : List Text) :
    joinWith separator (before ++ groups.map (fun a => joinWith separator (texts a)) ++ after)
      = joinWith separator (before ++ groups.flatMap texts ++ after) := by
  induction groups generalizing before with
  | nil => rfl
  | cons a rest ih =>
      have first := nonempty a (List.mem_cons_self ..)
      have rest_grouped := ih (fun b member => nonempty b (List.mem_cons_of_mem _ member))
        (before ++ texts a)
      have grouped (later : List Text) : joinWith separator (before ++ joinWith separator (texts a)
          :: later) = joinWith separator (before ++ texts a ++ later) :=
        joinWith_group first before later
      simp only [List.map_cons, List.flatMap_cons, List.append_assoc, List.cons_append]
        at grouped rest_grouped ⊢
      rw [grouped, rest_grouped]

end Text

namespace Graph

open Paragraph (textOf statedVertices statedEdges)

def blockParagraphs (s : Subgraph) (g : Graph) : List Paragraph :=
  [⟨1, [.line ("subgraph ".toList ++ s.name ++ [' ', '\x7b'])]⟩,
    ⟨1, (writtenDefaults s.vertexDefaults.texts s.edgeDefaults.texts).map .line⟩,
    ⟨1, s.stylingLines.map .line⟩,
    ⟨1, (sortByNumber Vertex.id (g.verticesIn s)).map .vertex⟩,
    ⟨1, (sortByNumber Edge.id (g.edgesIn s)).map .edge⟩,
    ⟨1, [.line ['\x7d']]⟩]

def paragraphs (g : Graph) : List Paragraph :=
  [⟨0, [.line "digraph G \x7b".toList]⟩,
    ⟨0, g.attrs.lines.map .line⟩,
    ⟨0, (writtenDefaults g.vertexDefaults.texts g.edgeDefaults.texts).map .line⟩]
    ++ g.subgraphs.flatMap (fun s => g.blockParagraphs s)
    ++ [⟨0, (sortByNumber Vertex.id g.looseVertices).map .vertex⟩,
      ⟨0, (sortByNumber Edge.id g.looseEdges).map .edge⟩,
      ⟨0, [.line ['\x7d']]⟩]

variable (g : Graph) (s : Subgraph)

theorem flatMap_texts_blockParagraphs :
    (g.blockParagraphs s).flatMap Paragraph.texts = (g.blockSections s).map Text.indent := by
  simp only [blockParagraphs, List.flatMap_cons, List.flatMap_nil, Paragraph.texts_one,
    Paragraph.map_text_lines, Paragraph.map_text_vertices, Paragraph.map_text_edges, blockSections,
    List.map_append, List.append_assoc, List.append_nil]
  rfl

theorem textOf_blockParagraphs : textOf (g.blockParagraphs s) = g.block s := by
  rw [textOf, flatMap_texts_blockParagraphs, block]

theorem textOf_paragraphs : textOf g.paragraphs = g.document := by
  have blocks : (g.subgraphs.flatMap fun s => g.blockParagraphs s).flatMap Paragraph.texts
      = g.subgraphs.flatMap fun s => (g.blockSections s).map Text.indent := by
    rw [List.flatMap_assoc]
    exact List.flatMap_congr fun s _ => g.flatMap_texts_blockParagraphs s
  have nonempty : ∀ s ∈ g.subgraphs, (g.blockSections s).map Text.indent ≠ [] :=
    fun s _ => by simp [blockSections]
  have grouped := Text.joinWith_groups ['\n', '\n'] g.subgraphs _ nonempty
    (["digraph G \x7b".toList] ++ sectionOf g.attrs.lines
      ++ sectionOf (writtenDefaults g.vertexDefaults.texts g.edgeDefaults.texts))
    (sectionOf (writtenVertices g.looseVertices) ++ sectionOf (writtenEdges g.looseEdges)
      ++ [['\x7d']])
  simp only [textOf, paragraphs, List.flatMap_append, List.flatMap_cons, List.flatMap_nil, blocks,
    Paragraph.texts_zero, Paragraph.map_text_lines, Paragraph.map_text_vertices,
    Paragraph.map_text_edges, List.append_nil]
  simp only [List.append_assoc] at grouped ⊢
  rw [document, documentSections]
  simp only [List.append_assoc]
  exact grouped.symm

theorem statedVertices_blockParagraphs :
    statedVertices (g.blockParagraphs s) = sortByNumber Vertex.id (g.verticesIn s) := by
  simp [statedVertices, blockParagraphs, Item.vertex?, List.filterMap_cons,
    List.filterMap_map, Function.comp_def]

theorem statedEdges_blockParagraphs :
    statedEdges (g.blockParagraphs s) = sortByNumber Edge.id (g.edgesIn s) := by
  simp [statedEdges, blockParagraphs, Item.edge?, List.filterMap_cons,
    List.filterMap_map, Function.comp_def]

theorem statedVertices_paragraphs :
    statedVertices g.paragraphs = g.subgraphs.flatMap (fun s => statedVertices (g.blockParagraphs s))
      ++ sortByNumber Vertex.id g.looseVertices := by
  simp [statedVertices, paragraphs, Item.vertex?, List.filterMap_cons,
    List.filterMap_map, Function.comp_def, List.flatMap_assoc]

theorem statedEdges_paragraphs :
    statedEdges g.paragraphs = g.subgraphs.flatMap (fun s => statedEdges (g.blockParagraphs s))
      ++ sortByNumber Edge.id g.looseEdges := by
  simp [statedEdges, paragraphs, Item.edge?, List.filterMap_cons,
    List.filterMap_map, Function.comp_def, List.flatMap_assoc]

end Graph
end DotDoc
