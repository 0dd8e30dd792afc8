import DotDoc.Proofs.Graph.Consistent
import DotDoc.Proofs.Graph.Paragraphs
import Mathlib.Data.List.Perm.Basic

/-!
# Every element is written once

A block states the stored vertices that are members and the stored edges between two members, in
the order of their numbers.  What the top level of a document states is exactly what no block
states, whatever the member lists are.  In a consistent graph no two blocks share an element, so
the blocks and the top level together state every vertex and every edge once.
-/

set_option autoImplicit false

namespace DotDoc

/-- Filters that no item passes two of, and the filter for the rest, share the items out. -/
theorem filters_perm {α β : Type} (items : List α) (groups : List β) (inside : β → α → Bool)
    (apart : groups.Pairwise fun s t => ∀ a ∈ items, inside s a = true → inside t a = false) :
    (groups.flatMap (fun s => items.filter (inside s))
      ++ items.filter (fun a => !groups.any fun s => inside s a)).Perm items := by
  induction groups with
  | nil => simp
  | cons s rest ih =>
      obtain ⟨first_apart, rest_apart⟩ := List.pairwise_cons.1 apart
      have outside (a : α) : (!(s :: rest).any fun t => inside t a)
          = ((!rest.any fun t => inside t a) && !inside s a) := by
        simp [Bool.and_comm]
      have first : items.filter (fun a => (!rest.any fun t => inside t a) && inside s a)
          = items.filter (inside s) := by
        refine List.filter_congr fun a member => ?_
        cases here : inside s a with
        | false => simp
        | true =>
            have elsewhere : ∀ t ∈ rest, inside t a = false :=
              fun t t_later => first_apart t t_later a member here
            simpa using elsewhere
      have split := List.filter_append_perm (inside s)
        (items.filter fun a => !rest.any fun t => inside t a)
      simp only [List.filter_filter, Bool.and_comm (inside s _), Bool.and_comm (!inside s _)]
        at split
      rw [first] at split
      simp only [List.flatMap_cons, outside, List.append_assoc]
      calc (items.filter (inside s) ++ (rest.flatMap (fun t => items.filter (inside t))
              ++ items.filter fun a => (!rest.any fun t => inside t a) && !inside s a)).Perm
            (rest.flatMap (fun t => items.filter (inside t)) ++ (items.filter (inside s)
              ++ items.filter fun a => (!rest.any fun t => inside t a) && !inside s a)) := by
              simpa only [List.append_assoc] using List.perm_append_comm.append_right _
        List.Perm _ (rest.flatMap (fun t => items.filter (inside t))
              ++ items.filter fun a => !rest.any fun t => inside t a) := split.append_left _
        List.Perm _ items := ih rest_apart

namespace Graph

variable {g : Graph}

open Paragraph (textOf statedVertices statedEdges)

theorem mem_verticesIn {s : Subgraph} {v : Vertex} :
    v ∈ g.verticesIn s ↔ v ∈ g.vertices ∧ s.holdsVertex v = true :=
  List.mem_filter

theorem mem_edgesIn {s : Subgraph} {e : Edge} :
    e ∈ g.edgesIn s ↔ e ∈ g.edges ∧ s.holdsEdge e = true :=
  List.mem_filter

theorem mem_statedVertices {s : Subgraph} {v : Vertex} :
    v ∈ statedVertices (g.blockParagraphs s) ↔ v ∈ g.vertices ∧ s.holdsVertex v = true := by
  rw [statedVertices_blockParagraphs, (sortByNumber_perm _ _).mem_iff, mem_verticesIn]

theorem mem_statedEdges {s : Subgraph} {e : Edge} :
    e ∈ statedEdges (g.blockParagraphs s) ↔ e ∈ g.edges ∧ s.holdsEdge e = true := by
  rw [statedEdges_blockParagraphs, (sortByNumber_perm _ _).mem_iff, mem_edgesIn]

theorem occursIn_grouped (v : Value) :
    v.occursIn g.grouped = g.subgraphs.any fun s => s.contains v := by
  simp [Value.occursIn, grouped, Subgraph.contains, List.any_flatMap]

theorem looseVertices_eq :
    g.looseVertices = g.vertices.filter fun v => !g.subgraphs.any fun s => s.holdsVertex v := by
  simp [looseVertices, occursIn_grouped, Subgraph.holdsVertex]

open Classical in
theorem looseVertices_eq_filter :
    g.looseVertices = g.vertices.filter fun v =>
      ∀ s ∈ g.subgraphs, v ∉ statedVertices (g.blockParagraphs s) := by
  rw [looseVertices_eq]
  refine List.filter_congr fun v stored => ?_
  rw [Bool.eq_iff_iff]
  simp [mem_statedVertices, stored]

open Classical in
theorem looseEdges_eq_filter :
    g.looseEdges = g.edges.filter fun e =>
      ∀ s ∈ g.subgraphs, e ∉ statedEdges (g.blockParagraphs s) := by
  refine List.filter_congr fun e stored => ?_
  rw [Bool.eq_iff_iff]
  simp [mem_statedEdges, stored]

/-- The vertices in the order of their statements: block after block, then the top level. -/
def vertexOrder (g : Graph) : List Vertex :=
  g.subgraphs.flatMap (fun s => sortByNumber Vertex.id (g.verticesIn s))
    ++ sortByNumber Vertex.id g.looseVertices

/-- The edges in the order of their statements: block after block, then the top level. -/
def edgeOrder (g : Graph) : List Edge :=
  g.subgraphs.flatMap (fun s => sortByNumber Edge.id (g.edgesIn s))
    ++ sortByNumber Edge.id g.looseEdges

theorem statedVertices_eq (g : Graph) : statedVertices g.paragraphs = g.vertexOrder := by
  rw [statedVertices_paragraphs, vertexOrder]
  simp only [statedVertices_blockParagraphs]

theorem statedEdges_eq (g : Graph) : statedEdges g.paragraphs = g.edgeOrder := by
  rw [statedEdges_paragraphs, edgeOrder]
  simp only [statedEdges_blockParagraphs]

namespace Consistent

theorem contains_iff (c : g.Consistent) {s : Subgraph} (stored : s ∈ g.subgraphs) (n : Int) :
    s.contains (.int n) = true ↔ .int n ∈ s.members :=
  Value.occursIn_iff_of_ints (c.members_int stored)

theorem holdsEdge_iff (c : g.Consistent) {s : Subgraph} (stored : s ∈ g.subgraphs) (e : Edge) :
    s.holdsEdge e = true ↔
      .int e.tail.vertex ∈ s.members ∧ .int e.head.vertex ∈ s.members := by
  simp only [Subgraph.holdsEdge, Bool.and_eq_true, c.contains_iff stored]

theorem contains_apart (c : g.Consistent) :
    g.subgraphs.Pairwise fun s t =>
      ∀ n : Nat, s.contains (.int n) = true → t.contains (.int n) = false := by
  refine c.subgraphs_disjoint.imp_of_mem ?_
  intro s t s_stored t_stored disjoint n in_s
  rw [← Bool.not_eq_true, c.contains_iff t_stored]
  exact disjoint ((c.contains_iff s_stored n).1 in_s)

theorem vertexOrder_perm (c : g.Consistent) : g.vertexOrder.Perm g.vertices := by
  have shared_out := filters_perm g.vertices g.subgraphs Subgraph.holdsVertex
    (c.contains_apart.imp fun apart (v : Vertex) _ in_s => apart v.id in_s)
  rw [← looseVertices_eq] at shared_out
  refine List.Perm.trans ?_ shared_out
  exact (List.Perm.flatMap_left _ fun s _ => sortByNumber_perm _ _).append
    (sortByNumber_perm _ _)

theorem edgeOrder_perm (c : g.Consistent) : g.edgeOrder.Perm g.edges := by
  have shared_out := filters_perm g.edges g.subgraphs Subgraph.holdsEdge
    (c.contains_apart.imp fun apart (e : Edge) _ in_s => by
      have tail_in_s := (Bool.and_eq_true_iff.1 in_s).1
      rw [Subgraph.holdsEdge, apart e.tail.vertex tail_in_s, Bool.false_and])
  refine List.Perm.trans ?_ shared_out
  exact (List.Perm.flatMap_left _ fun s _ => sortByNumber_perm _ _).append
    (sortByNumber_perm _ _)

theorem vertex_ids_nodup (c : g.Consistent) : (g.vertices.map Vertex.id).Nodup := by
  rw [List.Nodup, List.pairwise_map]
  exact c.vertices_ascending.imp fun ascending => Nat.ne_of_lt ascending

theorem edge_ids_nodup (c : g.Consistent) : (g.edges.map Edge.id).Nodup := by
  rw [List.Nodup, List.pairwise_map]
  exact c.edges_ascending.imp fun ascending => Nat.ne_of_lt ascending

theorem vertex_of_named (c : g.Consistent) {id : Value} {v : Vertex} (stored : v ∈ g.vertices)
    (named : id.integer? = some (v.id : Int)) : g.vertex id = .ok v := by
  have key := Value.lookupId_eq_some_iff.2 named
  cases search : g.vertices.find? (fun u => (u.id : Int) = v.id) with
  | none =>
      have passed_over := List.find?_eq_none.1 search v stored
      simp at passed_over
  | some u =>
      have same : (u.id : Int) = v.id := by simpa using List.find?_some search
      have only : u = v := List.inj_on_of_nodup_map c.vertex_ids_nodup
        (List.mem_of_find?_eq_some search) stored (Int.ofNat.inj same)
      unfold vertex findVertex
      simp only [key, bind, Except.bind, search, only]
      rfl

theorem vertex_of_mem (c : g.Consistent) {v : Vertex} (stored : v ∈ g.vertices) :
    g.vertex (.int v.id) = .ok v :=
  c.vertex_of_named stored rfl

end Consistent

/-- A graph with a loop, an edge into another group, edges with one end in a group, and a group
without members. -/
def groupedGraph : Graph :=
  (ofLayers .empty .empty .empty).run
    [.addVertex (.str "a") .empty, .addVertex (.str "b") .empty, .addVertex (.str "c") .empty,
      .addVertex (.str "d") .empty, .addCluster (.list [.int 2, .int 0]) .empty,
      .addSubgraph (.list []) .empty, .addSubgraph (.list [.int 1]) .empty,
      .chain (.list [.int 3, .int 0, .int 2, .int 1, .int 1, .int 3, .int 3]) .empty]

/-- The same graph after a vertex and a missing one were added to every group unchecked. -/
def overlappingGraph : Graph :=
  { groupedGraph with
    subgraphs := groupedGraph.subgraphs.map fun s => s.addMembers [.int 1, .int 9] }

end Graph
end DotDoc
