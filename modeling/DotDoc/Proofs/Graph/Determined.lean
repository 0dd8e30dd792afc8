import DotDoc.Proofs.Graph.Containment
import DotDoc.Proofs.Graph.Outline

/-!
# The document determines the graph

The outline of a graph holds what its document says, and the lines of a plain graph's document that
are not blank are the texts of the lines of the outline.  So two plain graphs with one document have
one outline.  In a consistent graph the vertices of a block are the members of its subgraph, and all
vertices together are those of the blocks and of the top level, so the outline gives back the
members and the table of vertices as well.
-/

set_option autoImplicit false

namespace DotDoc

namespace Line

def textsAt (depth : Nat) (statements : List Statement) : List Text :=
  statements.map fun s => text ⟨depth, s⟩

theorem indent_text {s : Statement} (plain : s.Plain) (depth : Nat) :
    Text.indent (text ⟨depth, s⟩) = text ⟨depth + 1, s⟩ := by
  have one_line : '\n' ∉ text ⟨depth, s⟩ := not_mem_text (l := ⟨depth, s⟩) plain
  rw [Text.indent, Text.indentBy_of_not_mem _ _ one_line, text, text, Text.margin_succ,
    List.append_assoc]

variable {statements : List Statement}

theorem flatMap_textsAt (plain : ∀ s ∈ statements, s.Plain) (depth : Nat) :
    (textsAt depth statements).flatMap Text.statements = textsAt depth statements := by
  refine Text.flatMap_statements_of_lines fun line member => ?_
  obtain ⟨s, stored, rfl⟩ := List.mem_map.1 member
  exact ⟨not_mem_text (l := ⟨depth, s⟩) (plain s stored),
    text_ne_nil (l := ⟨depth, s⟩) (plain s stored)⟩

theorem indent_textsAt (plain : ∀ s ∈ statements, s.Plain) (depth : Nat) :
    (textsAt depth statements).map Text.indent = textsAt (depth + 1) statements := by
  rw [textsAt, List.map_map]
  refine List.map_congr_left fun s stored => ?_
  exact indent_text (plain s stored) depth

theorem statements_section (plain : ∀ s ∈ statements, s.Plain) :
    (sectionOf (textsAt 1 statements)).flatMap Text.statements = textsAt 1 statements ∧
      ((sectionOf (textsAt 1 statements)).map Text.indent).flatMap Text.statements
        = textsAt 2 statements := by
  constructor
  · rw [Text.flatMap_statements_sectionOf, flatMap_textsAt plain]
  · rw [Text.flatMap_statements_indent_sectionOf, indent_textsAt plain, flatMap_textsAt plain]

end Line

def Endpoint.texts (e : Endpoint) : WrittenEnd :=
  ⟨e.vertex, e.id.display, e.port.map Value.display⟩

theorem Endpoint.Named.texts {e : Endpoint} (named : e.Named) : e.texts.Named :=
  ⟨e.id, named, rfl⟩

def Vertex.listed (v : Vertex) : Nat × Listing :=
  (v.id, v.attrs.listing)

def Edge.listed (e : Edge) : WrittenEdge :=
  ⟨e.tail.texts, e.head.texts, e.attrs.listing⟩

namespace Graph

def listedVertices (vertices : List Vertex) : List (Nat × Listing) :=
  (sortByNumber Vertex.id vertices).map Vertex.listed

/-- The edges as a section lists them, in the order of their numbers but without these. -/
def listedEdges (edges : List Edge) : List WrittenEdge :=
  (sortByNumber Edge.id edges).map Edge.listed

def levelOf (settings : Listing) (nodes arcs : AttrList) (vertices : List Vertex)
    (edges : List Edge) : Level :=
  ⟨settings, nodes.listing, arcs.listing, listedVertices vertices, listedEdges edges⟩

def stylingListing (s : Subgraph) : Listing :=
  if s.isCluster then s.styling.listing else []

def blockOf (s : Subgraph) (g : Graph) : Block where
  name := s.name
  level := levelOf (stylingListing s) s.vertexDefaults s.edgeDefaults (g.verticesIn s)
    (g.edgesIn s)

def outline (g : Graph) : Outline where
  top := levelOf g.attrs.listing g.vertexDefaults g.edgeDefaults g.looseVertices g.looseEdges
  blocks := g.subgraphs.map fun s => g.blockOf s

/-- Every attribute that the document writes is plain, and every port is an identifier. -/
structure Plain (g : Graph) : Prop where
  attrs : g.attrs.Plain
  vertexDefaults : g.vertexDefaults.Plain
  edgeDefaults : g.edgeDefaults.Plain
  layers : ∀ s ∈ g.subgraphs, s.vertexDefaults.Plain ∧ s.edgeDefaults.Plain
  styling : ∀ s ∈ g.subgraphs, s.isCluster = true → s.styling.Plain
  vertices : ∀ v ∈ g.vertices, v.attrs.Plain
  edges : ∀ e ∈ g.edges, e.tail.texts.Plain ∧ e.head.texts.Plain ∧ e.attrs.Plain

variable {g h : Graph}

theorem mem_listedVertices {vertices : List Vertex} {listed : Nat × Listing} :
    listed ∈ listedVertices vertices ↔ ∃ v ∈ vertices, v.listed = listed := by
  simp only [listedVertices, List.mem_map, (sortByNumber_perm _ _).mem_iff]

theorem mem_listedEdges {edges : List Edge} {listed : WrittenEdge} :
    listed ∈ listedEdges edges ↔ ∃ e ∈ edges, e.listed = listed := by
  simp only [listedEdges, List.mem_map, (sortByNumber_perm _ _).mem_iff]

section Level

variable {settings : Listing} {nodes arcs : AttrList} {vertices : List Vertex}
  {edges : List Edge}

theorem Plain.level (plain : g.Plain) (c : g.Consistent) (settings_plain : settings.Plain)
    (nodes_plain : nodes.Plain) (arcs_plain : arcs.Plain)
    (some_vertices : vertices ⊆ g.vertices) (some_edges : edges ⊆ g.edges) :
    (levelOf settings nodes arcs vertices edges).Plain where
  settings := settings_plain
  vertexDefaults := nodes_plain.listing
  edgeDefaults := arcs_plain.listing
  vertices := by
    intro listed member
    obtain ⟨v, stored, rfl⟩ := mem_listedVertices.1 member
    exact (plain.vertices v (some_vertices stored)).listing
  edges := by
    intro listed member
    obtain ⟨e, stored, rfl⟩ := mem_listedEdges.1 member
    obtain ⟨tail, head, attrs⟩ := plain.edges e (some_edges stored)
    obtain ⟨tail_named, head_named⟩ := c.ends_named e (some_edges stored)
    exact ⟨⟨⟨tail, tail_named.texts⟩, head, head_named.texts⟩, attrs.listing⟩

end Level

theorem name_chars (s : Subgraph) : ∀ c ∈ s.name, Subject.isChar c = true := by
  have digit {n : Nat} {c : Char} (member : c ∈ Text.ofNat n) : Subject.isChar c = true :=
    Subject.isChar_of_isWordChar (Subject.isWordChar_of_mem_ofNat member)
  have words (cluster : Bool) :
      (if cluster then "cluster" else "subgraph").toList.all Subject.isChar = true := by
    cases cluster <;> decide
  intro c member
  rcases List.mem_append.1 member with in_word | in_number
  · exact List.all_eq_true.1 (words s.isCluster) c in_word
  · cases number : s.number with
    | ofNat n =>
        rw [number] at in_number
        exact digit in_number
    | negSucc n =>
        rw [number] at in_number
        rcases List.mem_cons.1 in_number with rfl | in_digits
        · decide
        · exact digit in_digits

theorem Plain.stylingListing (plain : g.Plain) {s : Subgraph} (stored : s ∈ g.subgraphs) :
    (stylingListing s).Plain := by
  unfold Graph.stylingListing
  by_cases cluster : s.isCluster = true
  · rw [if_pos cluster]
    exact (plain.styling s stored cluster).listing
  · rw [if_neg cluster]
    intro entry member
    cases member

theorem Plain.block (plain : g.Plain) (c : g.Consistent) {s : Subgraph}
    (stored : s ∈ g.subgraphs) : (g.blockOf s).level.Plain := by
  obtain ⟨nodes, arcs⟩ := plain.layers s stored
  exact plain.level c (plain.stylingListing stored) nodes arcs List.filter_sublist.subset
    List.filter_sublist.subset

theorem Plain.outline (plain : g.Plain) (c : g.Consistent) : g.outline.Plain where
  top := plain.level c plain.attrs.listing plain.vertexDefaults plain.edgeDefaults
    List.filter_sublist.subset List.filter_sublist.subset
  blocks := by
    intro b member
    obtain ⟨s, stored, rfl⟩ := List.mem_map.1 member
    exact ⟨name_chars s, plain.block c stored⟩

open Line (textsAt)

theorem lines_eq {l : AttrList} (plain : l.Plain) :
    l.lines = textsAt 1 (l.listing.map .setting) := by
  have written := plain.written_eq
  have indented := congrArg (List.map Text.indent) written
  rw [List.map_map, List.map_map] at indented
  rw [textsAt, List.map_map]
  refine indented.trans (List.map_congr_left fun entry stored => ?_)
  have entry_plain : Statement.Plain (.setting entry) := plain.listing entry stored
  have text : Line.text ⟨0, .setting entry⟩ = Listing.entryText entry := by
    simp [Line.text, Statement.text, Statement.front, Statement.back, Listing.entryText]
  rw [Function.comp_apply, Function.comp_apply, ← Line.indent_text entry_plain 0, text]

theorem indent_withList {l : AttrList} (plain : l.Plain) (subject : Subject)
    (subject_plain : subject.Plain) :
    Text.indent (withList subject.text l.texts)
      = Line.text ⟨1, .element subject l.listing⟩ := by
  have statement_plain : Statement.Plain (.element subject l.listing) :=
    ⟨subject_plain, plain.listing⟩
  rw [← Line.indent_text statement_plain 0, plain.withList_eq]
  rfl

theorem defaultLine_eq {l : AttrList} (plain : l.Plain) {kind : String} (subject : Subject)
    (subject_plain : subject.Plain) (word : kind.toList = subject.text) :
    defaultLine kind l.texts = textsAt 1 (Level.listed subject l.listing) := by
  have emptiness : l.texts.isEmpty = true ↔ l.listing = [] := by
    simp [AttrList.texts, AttrList.listing]
  unfold defaultLine Level.listed
  by_cases none : l.listing = []
  · rw [if_pos (emptiness.2 none), if_pos none]
    rfl
  · rw [if_neg (mt emptiness.1 none), if_neg none, word, indent_withList plain subject subject_plain]
    rfl

theorem writtenVertices_eq {vertices : List Vertex} (plain : ∀ v ∈ vertices, v.attrs.Plain) :
    writtenVertices vertices
      = textsAt 1 ((listedVertices vertices).map fun v => .element (.vertex v.1) v.2) := by
  rw [writtenVertices, listedVertices, textsAt, List.map_map, List.map_map]
  refine List.map_congr_left fun v member => ?_
  have stored : v ∈ vertices := (sortByNumber_perm _ _).mem_iff.1 member
  exact indent_withList (plain v stored) (.vertex v.id) trivial

theorem written_end (e : Endpoint) : e.written = e.texts.text := by
  cases port : e.port <;>
    simp [Endpoint.written, endpointText, Endpoint.texts, WrittenEnd.text, WrittenEnd.portSuffix,
      port]

theorem writtenEdges_eq (plain : g.Plain) (c : g.Consistent) {edges : List Edge}
    (some_edges : edges ⊆ g.edges) :
    writtenEdges edges
      = textsAt 1 ((listedEdges edges).map fun e => .element (.edge e.tail e.head) e.attrs) := by
  rw [writtenEdges, listedEdges, textsAt, List.map_map, List.map_map]
  refine List.map_congr_left fun e member => ?_
  have stored : e ∈ g.edges := some_edges ((sortByNumber_perm _ _).mem_iff.1 member)
  obtain ⟨tail, head, attrs⟩ := plain.edges e stored
  obtain ⟨tail_named, head_named⟩ := c.ends_named e stored
  have written := indent_withList attrs (.edge e.tail.texts e.head.texts)
    ⟨⟨tail, tail_named.texts⟩, head, head_named.texts⟩
  rw [Edge.written, written_end, written_end]
  exact written

theorem writtenDefaults_eq {l : Level} {nodes arcs : AttrList} (nodes_plain : nodes.Plain)
    (arcs_plain : arcs.Plain) (nodes_eq : l.vertexDefaults = nodes.listing)
    (arcs_eq : l.edgeDefaults = arcs.listing) :
    writtenDefaults nodes.texts arcs.texts = textsAt 1 l.defaultStatements := by
  rw [writtenDefaults, defaultLine_eq nodes_plain .vertexDefaults trivial rfl,
    defaultLine_eq arcs_plain .edgeDefaults trivial rfl, Level.defaultStatements,
    nodes_eq, arcs_eq, textsAt, textsAt, textsAt, List.map_append]

theorem stylingLines_eq (plain : g.Plain) {s : Subgraph} (stored : s ∈ g.subgraphs) :
    s.stylingLines = textsAt 1 (g.blockOf s).level.settingStatements := by
  have settings : (g.blockOf s).level.settings = stylingListing s := rfl
  rw [Level.settingStatements, settings, Subgraph.stylingLines, stylingListing]
  by_cases cluster : s.isCluster = true
  · rw [if_pos cluster, if_pos cluster, lines_eq (plain.styling s stored cluster)]
  · rw [if_neg cluster, if_neg cluster]
    rfl

/-! ## The statements of a document -/

theorem statements_indent {s : Statement} (plain : s.Plain) :
    Text.statements (Text.indent s.text) = textsAt 1 [s] := by
  have one_line := Line.not_mem_text (l := ⟨1, s⟩) plain
  have nonempty := Line.text_ne_nil (l := ⟨1, s⟩) plain
  have indented : Text.indent s.text = Line.text ⟨1, s⟩ := Line.indent_text plain 0
  rw [indented, Text.statements_of_line one_line nonempty]
  rfl

theorem statements_block (plain : g.Plain) (c : g.Consistent) {s : Subgraph}
    (stored : s ∈ g.subgraphs) :
    Text.statements (g.block s) = (g.blockOf s).lines.map Line.text := by
  obtain ⟨nodes, arcs⟩ := plain.layers s stored
  have sections {part : List Statement} (inside : part ⊆ (g.blockOf s).level.statements) :
      ((sectionOf (textsAt 1 part)).map Text.indent).flatMap Text.statements = textsAt 2 part :=
    (Line.statements_section fun t member => (plain.block c stored).statement t (inside member)).2
  have defaults : writtenDefaults s.vertexDefaults.texts s.edgeDefaults.texts
      = textsAt 1 (g.blockOf s).level.defaultStatements := writtenDefaults_eq nodes arcs rfl rfl
  have vertices : writtenVertices (g.verticesIn s)
      = textsAt 1 (g.blockOf s).level.vertexStatements :=
    writtenVertices_eq fun v member => plain.vertices v (List.mem_of_mem_filter member)
  have edges : writtenEdges (g.edgesIn s) = textsAt 1 (g.blockOf s).level.edgeStatements :=
    writtenEdges_eq plain c List.filter_sublist.subset
  have opening : "subgraph ".toList ++ s.name ++ [' ', '\x7b']
      = (Statement.opening s.name).text := by
    have word : "subgraph ".toList = Statement.blockOpening := rfl
    rw [word]
    simp [Statement.text, Statement.front, Statement.back]
  have closing : ['\x7d'] = Statement.closing.text := rfl
  rw [block, Text.statements_joinSections, blockSections, defaults, stylingLines_eq plain stored,
    vertices, edges, opening, closing]
  simp only [List.map_append, List.flatMap_append, List.map_singleton, List.flatMap_singleton,
    sections (Level.defaultStatements_subset _), sections (Level.settingStatements_subset _),
    sections (Level.vertexStatements_subset _), sections (Level.edgeStatements_subset _),
    statements_indent (s := .opening s.name) (name_chars s), statements_indent (s := .closing) trivial]
  simp [Block.lines, Level.statements, Level.body, textsAt, Function.comp_def, blockOf]

/-- The lines of a plain document that are not blank: the opening line, the lines of its outline,
and the closing brace. -/
theorem statements_document (plain : g.Plain) (c : g.Consistent) :
    Text.statements g.document
      = "digraph G \x7b".toList :: (g.outline.lines.map Line.text ++ [['\x7d']]) := by
  have sections {part : List Statement} (inside : part ⊆ g.outline.top.statements) :
      (sectionOf (textsAt 1 part)).flatMap Text.statements = textsAt 1 part :=
    (Line.statements_section fun t member => (plain.outline c).top.statement t (inside member)).1
  have settings : g.attrs.lines = textsAt 1 g.outline.top.settingStatements := lines_eq plain.attrs
  have defaults : writtenDefaults g.vertexDefaults.texts g.edgeDefaults.texts
      = textsAt 1 g.outline.top.defaultStatements :=
    writtenDefaults_eq plain.vertexDefaults plain.edgeDefaults rfl rfl
  have vertices : writtenVertices g.looseVertices
      = textsAt 1 g.outline.top.vertexStatements :=
    writtenVertices_eq fun v member => plain.vertices v (List.mem_of_mem_filter member)
  have edges : writtenEdges g.looseEdges = textsAt 1 g.outline.top.edgeStatements :=
    writtenEdges_eq plain c List.filter_sublist.subset
  have blocks : (g.subgraphs.map fun s => g.block s).flatMap Text.statements
      = (g.outline.blocks.flatMap Block.lines).map Line.text := by
    rw [List.flatMap_map, outline, List.flatMap_map, List.map_flatMap]
    exact List.flatMap_congr fun s stored => statements_block plain c stored
  have opening : Text.statements "digraph G \x7b".toList = ["digraph G \x7b".toList] := by
    decide
  have closing : Text.statements ['\x7d'] = [['\x7d']] := by decide
  rw [document, Text.statements_joinSections, documentSections, settings, defaults, vertices, edges]
  simp only [List.flatMap_append, List.flatMap_singleton, blocks, opening, closing,
    sections (Level.defaultStatements_subset _), sections (Level.settingStatements_subset _),
    sections (Level.vertexStatements_subset _), sections (Level.edgeStatements_subset _)]
  simp [Outline.lines, Level.heading, Level.body, textsAt, Function.comp_def]

theorem outline_eq (g_plain : g.Plain) (h_plain : h.Plain) (g_consistent : g.Consistent)
    (h_consistent : h.Consistent) (same : g.document = h.document) :
    g.outline = h.outline := by
  have lines := congrArg Text.statements same
  rw [statements_document g_plain g_consistent,
    statements_document h_plain h_consistent] at lines
  have texts := List.append_cancel_right (List.cons.inj lines).2
  exact Outline.texts_inj (g_plain.outline g_consistent) (h_plain.outline h_consistent) texts

/-- Two subgraphs that the documents of their graphs describe alike. -/
structure SameBlock (g h : Graph) (s t : Subgraph) : Prop where
  name : s.name = t.name
  vertexDefaults : s.vertexDefaults.listing = t.vertexDefaults.listing
  edgeDefaults : s.edgeDefaults.listing = t.edgeDefaults.listing
  members : ∀ m, m ∈ s.members ↔ m ∈ t.members
  styling : s.isCluster = true → s.styling.listing = t.styling.listing
  edges : listedEdges (g.edgesIn s) = listedEdges (h.edgesIn t)

/-- Two graphs that agree on all that is written of them. -/
structure SameContent (g h : Graph) : Prop where
  attrs : g.attrs.listing = h.attrs.listing
  vertexDefaults : g.vertexDefaults.listing = h.vertexDefaults.listing
  edgeDefaults : g.edgeDefaults.listing = h.edgeDefaults.listing
  subgraphs : List.Forall₂ (SameBlock g h) g.subgraphs h.subgraphs
  vertices : g.vertices.map Vertex.listed = h.vertices.map Vertex.listed
  looseEdges : listedEdges g.looseEdges = listedEdges h.looseEdges

theorem Consistent.mem_members_iff (c : g.Consistent) {s : Subgraph} (stored : s ∈ g.subgraphs)
    {m : Value} :
    m ∈ s.members ↔ ∃ listed ∈ (g.blockOf s).level.vertices, m = .int listed.1 := by
  constructor
  · intro member
    obtain ⟨v, v_stored, rfl⟩ := c.members_stored s stored m member
    have held : s.holdsVertex v = true := (c.contains_iff stored v.id).2 member
    exact ⟨v.listed, mem_listedVertices.2 ⟨v, mem_verticesIn.2 ⟨v_stored, held⟩, rfl⟩, rfl⟩
  · rintro ⟨listed, member, rfl⟩
    obtain ⟨v, inside, rfl⟩ := mem_listedVertices.1 member
    exact (c.contains_iff stored v.id).1 (mem_verticesIn.1 inside).2

theorem map_listed_vertexOrder (g : Graph) :
    g.vertexOrder.map Vertex.listed
      = g.outline.blocks.flatMap (fun b => b.level.vertices) ++ g.outline.top.vertices := by
  simp [vertexOrder, outline, blockOf, levelOf, listedVertices, List.map_flatMap,
    List.flatMap_map]

theorem Consistent.vertices_eq (c : g.Consistent) (d : h.Consistent)
    (same : g.outline = h.outline) : g.vertices.map Vertex.listed = h.vertices.map Vertex.listed := by
  have orders : g.vertexOrder.map Vertex.listed = h.vertexOrder.map Vertex.listed := by
    rw [map_listed_vertexOrder, map_listed_vertexOrder, same]
  have g_perm := c.vertexOrder_perm.map Vertex.listed
  have h_perm := d.vertexOrder_perm.map Vertex.listed
  rw [orders] at g_perm
  have ascending {k : Graph} (e : k.Consistent) :
      (k.vertices.map Vertex.listed).Pairwise fun a b => a.1 < b.1 :=
    List.pairwise_map.2 e.vertices_ascending
  -- a rearrangement in strictly ascending order of ids is the list itself
  refine (g_perm.symm.trans h_perm).eq_of_pairwise ?_ (ascending c) (ascending d)
  intro a b _ _ below above
  omega

theorem forall₂_of_map_eq {α β γ : Type} {R : α → β → Prop} {f : α → γ} {f' : β → γ}
    {as : List α} {bs : List β} (same : as.map f = bs.map f')
    (related : ∀ a ∈ as, ∀ b ∈ bs, f a = f' b → R a b) : List.Forall₂ R as bs := by
  induction as generalizing bs with
  | nil =>
      obtain rfl := List.map_eq_nil_iff.1 same.symm
      exact .nil
  | cons a rest ih =>
      cases bs with
      | nil => cases same
      | cons b later =>
          obtain ⟨first, rests⟩ := List.cons.inj same
          refine .cons (related a (List.mem_cons_self ..) b (List.mem_cons_self ..) first) ?_
          apply ih rests
          intro a' a'_later b' b'_later
          exact related a' (List.mem_cons_of_mem _ a'_later) b' (List.mem_cons_of_mem _ b'_later)

theorem Consistent.sameBlock (c : g.Consistent) (d : h.Consistent) {s t : Subgraph}
    (s_stored : s ∈ g.subgraphs) (t_stored : t ∈ h.subgraphs)
    (same : g.blockOf s = h.blockOf t) : SameBlock g h s t := by
  have level : (g.blockOf s).level = (h.blockOf t).level := congrArg Block.level same
  have name : s.name = t.name := congrArg Block.name same
  have settings : stylingListing s = stylingListing t := congrArg Level.settings level
  have sorts : s.isCluster = t.isCluster := (Subgraph.name_inj name).1
  exact {
    name := name
    vertexDefaults := congrArg Level.vertexDefaults level
    edgeDefaults := congrArg Level.edgeDefaults level
    members := by
      intro m
      rw [c.mem_members_iff s_stored, d.mem_members_iff t_stored, level]
    styling := by
      intro cluster
      rw [stylingListing, stylingListing, ← sorts, if_pos cluster, if_pos cluster] at settings
      exact settings
    edges := congrArg Level.edges level }

/-- Two graphs that calls lead to have the same document only if they agree on all that is written
of them, as long as their keys and ports are identifiers and no value has a line feed or opens a
table. -/
theorem document_determines_graph (g_reached : Reachable g) (h_reached : Reachable h)
    (g_plain : g.Plain) (h_plain : h.Plain) (same : g.document? = h.document?) :
    SameContent g h := by
  have c := g_reached.consistent
  have d := h_reached.consistent
  have documents : g.document = h.document := by
    rw [document?, document?, if_pos c.isWritable, if_pos d.isWritable] at same
    exact Except.ok.inj same
  have outlines := outline_eq g_plain h_plain c d documents
  have tops : g.outline.top = h.outline.top := congrArg Outline.top outlines
  have blocks : g.subgraphs.map (fun s => g.blockOf s) = h.subgraphs.map (fun t => h.blockOf t) :=
    congrArg Outline.blocks outlines
  exact {
    attrs := congrArg Level.settings tops
    vertexDefaults := congrArg Level.vertexDefaults tops
    edgeDefaults := congrArg Level.edgeDefaults tops
    subgraphs := forall₂_of_map_eq blocks fun s s_stored t t_stored =>
      c.sameBlock d s_stored t_stored
    vertices := c.vertices_eq d outlines
    looseEdges := congrArg Level.edges tops }

def quotedGraph : Graph :=
  (ofLayers .empty .empty .empty).run
    [.addVertex (.str "a\"b") .empty, .addVertex (.bool true) .empty,
      .addCluster (.list [.int 0, .int 1]) ⟨[("bgcolor", .str "grey")], by decide⟩,
      .addEdge (.tuple [.int 0, .str "p"]) (.int 1) .empty]

/-- The same cluster with its members in another order, an edge of another number, and the quote
escaped by the caller. -/
def escapedGraph : Graph :=
  (ofLayers .empty .empty .empty).run
    [.addVertex (.str "a\\\"b") .empty, .addVertex (.str "true") .empty,
      .addCluster (.list [.int 1, .int 0]) ⟨[("bgcolor", .str "grey")], by decide⟩,
      .addEdge (.int 1) (.int 1) .empty, .removeEdge (.int 0),
      .addEdge (.tuple [.int 0, .str "p"]) (.int 1) .empty]

theorem quotedGraph_determined :
    (Reachable quotedGraph ∧ Reachable escapedGraph ∧ quotedGraph.Plain ∧ escapedGraph.Plain ∧
      quotedGraph.document? = escapedGraph.document?) ∧
    quotedGraph.edges.map Edge.id = [0] ∧ escapedGraph.edges.map Edge.id = [1] ∧
      SameContent quotedGraph escapedGraph := by
  have built : Graph.new .null .null .null = .ok (ofLayers .empty .empty .empty) := rfl
  have quoted_reached : Reachable quotedGraph := Reachable.run (.new built) _
  have escaped_reached : Reachable escapedGraph := Reachable.run (.new built) _
  have quoted_plain : quotedGraph.Plain :=
    ⟨by decide, by decide, by decide, by decide, by decide, by decide, by decide⟩
  have escaped_plain : escapedGraph.Plain :=
    ⟨by decide, by decide, by decide, by decide, by decide, by decide, by decide⟩
  have same : quotedGraph.document? = escapedGraph.document? := by
    have texts : quotedGraph.document = escapedGraph.document := by decide +kernel
    rw [document?, document?, if_pos quoted_reached.consistent.isWritable,
      if_pos escaped_reached.consistent.isWritable, texts]
  exact ⟨⟨quoted_reached, escaped_reached, quoted_plain, escaped_plain, same⟩, rfl, rfl,
    document_determines_graph quoted_reached escaped_reached quoted_plain escaped_plain same⟩

end Graph
end DotDoc
