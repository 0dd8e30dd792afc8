import DotDoc.Proofs.Graph.Containment

/-!
# A graph without one of its vertices

Removing a vertex takes its edges and its memberships with it.  Everything else stays: the other
vertices and edges are the same and in the same order, and the subgraphs keep all but the one
member.

No survivor changes its place in the document either.  Whether a subgraph contains a vertex depends
on its members of this number only, so dropping another number from the members moves no vertex and
no edge between a block and the top level.  `documentKeeping` is the document with some of its
statements left out where they stand, and the document after the removal is the one before it
without the statements of the vertex and of its edges.
-/

set_option autoImplicit false

namespace DotDoc.Graph

variable {g : Graph}

/-- The graph without a vertex, its edges and its memberships. -/
def withoutVertex (n : Nat) (g : Graph) : Graph :=
  { g with
    edges := g.edges.filter fun e => !e.touches n
    subgraphs := g.subgraphs.map (Subgraph.without [.int n])
    vertices := g.vertices.filter fun v => v.id ≠ n }

theorem Consistent.withoutVertex (c : g.Consistent) (n : Nat) : (g.withoutVertex n).Consistent :=
  consistent_removeVertex c rfl

theorem Consistent.perform_removeVertex (c : g.Consistent) {v : Vertex} (stored : v ∈ g.vertices)
    {id : Value} (named : id.integer? = some (v.id : Int)) :
    g.perform (.removeVertex id) = ⟨.ok .done, g.withoutVertex v.id⟩ := by
  have subgraphs : g.subgraphs.map (Subgraph.without [id])
      = g.subgraphs.map (Subgraph.without [.int v.id]) :=
    List.map_congr_left fun s s_stored =>
      Subgraph.without_of_integer (c.members_int s_stored) named
  have found := c.vertex_of_named stored named
  rw [perform_map rfl, removeVertex_of_found c.isWritable found, subgraphs]
  rfl

open Classical in
theorem members_without {s : Subgraph} (ints : ∀ m ∈ s.members, ∃ k, m = .int k) (n : Int) :
    (s.without [.int n]).members = s.members.filter fun m => m ≠ .int n := by
  refine List.filter_congr fun m member => ?_
  obtain ⟨k, rfl⟩ := ints m member
  simp [Value.occursIn, eq_comm]

theorem any_congr_of_mem {α : Type} {items : List α} {p q : α → Bool}
    (alike : ∀ a ∈ items, p a = q a) : items.any p = items.any q := by
  rw [Bool.eq_iff_iff, List.any_eq_true, List.any_eq_true]
  exact exists_congr fun a => and_congr_right fun member => by rw [alike a member]

namespace Consistent

variable (c : g.Consistent) {s : Subgraph} (stored : s ∈ g.subgraphs)

include c stored

theorem contains_without {n m : Int} (other : m ≠ n) :
    (s.without [.int n]).contains (.int m) = s.contains (.int m) := by
  have ints := c.members_int stored
  have fewer_ints : ∀ k ∈ (s.without [.int n]).members, ∃ i, k = .int i :=
    fun k member => ints k (List.mem_of_mem_filter member)
  rw [Bool.eq_iff_iff, Subgraph.contains, Subgraph.contains, Value.occursIn_iff_of_ints fewer_ints,
    Value.occursIn_iff_of_ints ints, members_without ints, List.mem_filter]
  simp [other]

theorem holdsVertex_without {n : Nat} {v : Vertex} (other : v.id ≠ n) :
    (s.without [.int n]).holdsVertex v = s.holdsVertex v :=
  c.contains_without stored (by omega)

theorem holdsEdge_without {n : Nat} {e : Edge} (apart : e.touches n = false) :
    (s.without [.int n]).holdsEdge e = s.holdsEdge e := by
  have ends : e.tail.vertex ≠ n ∧ e.head.vertex ≠ n := by
    simpa [Edge.touches] using apart
  rw [Subgraph.holdsEdge, Subgraph.holdsEdge, c.contains_without stored (by omega),
    c.contains_without stored (by omega)]

theorem verticesIn_withoutVertex (n : Nat) :
    (g.withoutVertex n).verticesIn (s.without [.int n])
      = (g.verticesIn s).filter fun v => v.id ≠ n := by
  simp only [verticesIn, Graph.withoutVertex, List.filter_filter, Bool.and_comm]
  refine List.filter_congr fun v _ => ?_
  by_cases here : v.id = n
  · simp [here]
  · rw [c.holdsVertex_without stored here]

theorem edgesIn_withoutVertex (n : Nat) :
    (g.withoutVertex n).edgesIn (s.without [.int n])
      = (g.edgesIn s).filter fun e => !e.touches n := by
  simp only [edgesIn, Graph.withoutVertex, List.filter_filter, Bool.and_comm]
  refine List.filter_congr fun e _ => ?_
  cases apart : e.touches n with
  | true => simp
  | false => rw [c.holdsEdge_without stored apart]

omit stored

theorem looseVertices_withoutVertex (n : Nat) :
    (g.withoutVertex n).looseVertices = g.looseVertices.filter fun v => v.id ≠ n := by
  simp only [looseVertices_eq, Graph.withoutVertex, List.filter_filter, Bool.and_comm, List.any_map,
    Function.comp_def]
  refine List.filter_congr fun v _ => ?_
  by_cases here : v.id = n
  · simp [here]
  · rw [any_congr_of_mem fun s stored => c.holdsVertex_without stored here]

theorem looseEdges_withoutVertex (n : Nat) :
    (g.withoutVertex n).looseEdges = g.looseEdges.filter fun e => !e.touches n := by
  simp only [looseEdges, Graph.withoutVertex, List.filter_filter, Bool.and_comm, List.any_map,
    Function.comp_def]
  refine List.filter_congr fun e _ => ?_
  cases apart : e.touches n with
  | true => simp
  | false => rw [any_congr_of_mem fun s stored => c.holdsEdge_without stored apart]

end Consistent

section Keeping

variable (vertex : Vertex → Bool) (edge : Edge → Bool)

def blockKeeping (s : Subgraph) (g : Graph) : Text :=
  joinSections ((["subgraph ".toList ++ s.name ++ [' ', '\x7b']]
    ++ sectionOf (writtenDefaults s.vertexDefaults.texts s.edgeDefaults.texts)
    ++ sectionOf s.stylingLines
    ++ sectionOf (writtenVertices ((g.verticesIn s).filter vertex))
    ++ sectionOf (writtenEdges ((g.edgesIn s).filter edge))
    ++ [['\x7d']]).map Text.indent)

/-- The document with only those statements whose vertices and edges pass a test. -/
def documentKeeping (g : Graph) : Text :=
  joinSections (["digraph G \x7b".toList]
    ++ sectionOf g.attrs.lines
    ++ sectionOf (writtenDefaults g.vertexDefaults.texts g.edgeDefaults.texts)
    ++ g.subgraphs.map (fun s => g.blockKeeping vertex edge s)
    ++ sectionOf (writtenVertices (g.looseVertices.filter vertex))
    ++ sectionOf (writtenEdges (g.looseEdges.filter edge))
    ++ [['\x7d']])

end Keeping

theorem documentKeeping_all (g : Graph) :
    g.documentKeeping (fun _ => true) (fun _ => true) = g.document := by
  simp [documentKeeping, blockKeeping, document, documentSections, block, blockSections]

theorem Consistent.document_withoutVertex (c : g.Consistent) (n : Nat) :
    (g.withoutVertex n).document
      = g.documentKeeping (fun v => v.id ≠ n) (fun e => !e.touches n) := by
  have blocks : (g.withoutVertex n).subgraphs.map (fun s => (g.withoutVertex n).block s)
      = g.subgraphs.map fun s =>
          g.blockKeeping (fun v => v.id ≠ n) (fun e => !e.touches n) s := by
    have subgraphs : (g.withoutVertex n).subgraphs
        = g.subgraphs.map (Subgraph.without [.int n]) := rfl
    rw [subgraphs, List.map_map]
    refine List.map_congr_left fun s stored => ?_
    rw [Function.comp_apply, block, blockSections, c.verticesIn_withoutVertex stored n,
      c.edgesIn_withoutVertex stored n]
    rfl
  rw [document, documentSections, blocks, c.looseVertices_withoutVertex n,
    c.looseEdges_withoutVertex n]
  rfl

open Classical in
/-- Removing a stored vertex takes away the vertex, the edges at it and its memberships.  All other
parts of the graph are as before, and so is the order of what is left.  Blocks and top level keep
the rest of what they had, and the document is the one before with the statements of the vertex and
of its edges left out. -/
theorem removeVertex_keeps_others (reached : Reachable g) {v : Vertex} (stored : v ∈ g.vertices)
    {id : Value} (named : id.integer? = some (v.id : Int)) :
    ∃ after : Graph, g.perform (.removeVertex id) = ⟨.ok .done, after⟩ ∧
      after = { g with
        vertices := g.vertices.filter fun w => w.id ≠ v.id
        edges := g.edges.filter fun e => !e.touches v.id
        subgraphs := g.subgraphs.map (Subgraph.without [.int v.id]) } ∧
      (∀ w, w ∈ after.vertices ↔ w ∈ g.vertices ∧ w ≠ v) ∧
      (∀ e, e ∈ after.edges ↔
        e ∈ g.edges ∧ e.tail.vertex ≠ v.id ∧ e.head.vertex ≠ v.id) ∧
      (∀ s ∈ g.subgraphs,
        (s.without [.int v.id]).members = s.members.filter (fun m => m ≠ .int v.id) ∧
        after.verticesIn (s.without [.int v.id])
          = (g.verticesIn s).filter (fun w => w.id ≠ v.id) ∧
        after.edgesIn (s.without [.int v.id]) = (g.edgesIn s).filter fun e => !e.touches v.id) ∧
      after.looseVertices = g.looseVertices.filter (fun w => w.id ≠ v.id) ∧
      after.looseEdges = g.looseEdges.filter (fun e => !e.touches v.id) ∧
      g.document? = .ok (g.documentKeeping (fun _ => true) fun _ => true) ∧
      after.document?
        = .ok (g.documentKeeping (fun w => w.id ≠ v.id) fun e => !e.touches v.id) := by
  have c := reached.consistent
  have after_writable := (c.withoutVertex v.id).isWritable
  refine ⟨g.withoutVertex v.id, c.perform_removeVertex stored named, rfl, ?_, ?_, ?_,
    c.looseVertices_withoutVertex v.id, c.looseEdges_withoutVertex v.id, ?_, ?_⟩
  · intro w
    rw [Graph.withoutVertex, List.mem_filter]
    refine and_congr_right fun held => ?_
    have same_id : w.id = v.id ↔ w = v :=
      ⟨List.inj_on_of_nodup_map c.vertex_ids_nodup held stored, fun same => by rw [same]⟩
    simp [same_id]
  · intro e
    simp [Graph.withoutVertex, Edge.touches]
  · intro s s_stored
    exact ⟨members_without (c.members_int s_stored) v.id, c.verticesIn_withoutVertex s_stored v.id,
      c.edgesIn_withoutVertex s_stored v.id⟩
  · rw [document?, if_pos c.isWritable, documentKeeping_all]
  · rw [document?, if_pos after_writable, c.document_withoutVertex v.id]

/-- A member that edges connect with its group and with other vertices is removed. -/
theorem removeVertex_groupedGraph :
    Reachable groupedGraph ∧ (∃ v ∈ groupedGraph.vertices, v.id = 0) ∧
    ∃ after : Graph, groupedGraph.perform (.removeVertex (.int 0)) = ⟨.ok .done, after⟩ ∧
      after.vertices.map Vertex.id = [1, 2, 3] ∧ after.edges.map Edge.id = [2, 3, 4, 5] ∧
      after.document?
        = .ok (groupedGraph.documentKeeping (fun w => w.id ≠ 0) fun e => !e.touches 0) := by
  have reached : Reachable groupedGraph := reachable_run_empty _
  have holds_zero : ∃ v ∈ groupedGraph.vertices, v.id = 0 := by decide +kernel
  refine ⟨reached, holds_zero, ?_⟩
  obtain ⟨v, stored, number⟩ := holds_zero
  have named : (Value.int 0).integer? = some (v.id : Int) := by
    rw [number]
    rfl
  obtain ⟨after, performed, shape, -, -, -, -, -, -, document⟩ :=
    removeVertex_keeps_others reached stored named
  rw [number] at shape document
  refine ⟨after, performed, ?_, ?_, document⟩
  · rw [shape]
    decide +kernel
  · rw [shape]
    decide +kernel

end DotDoc.Graph
