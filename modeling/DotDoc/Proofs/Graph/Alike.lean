import DotDoc.Proofs.Graph.Containment
import Mathlib.Data.List.Forall2

/-!
# Graphs that are written alike

Two subgraphs are alike when their members are the same up to order and nothing else differs, save
the styling of a subgraph that is no cluster.  Two graphs are alike when they differ only in
subgraphs that are alike, one by one.  What is asked of members is only whether something is among
them, and only clusters write their styling, so alike graphs have the same document.
-/

set_option autoImplicit false

namespace DotDoc

namespace Value

variable {items others : List Value}

theorem occursIn_perm (same : items.Perm others) (v : Value) :
    v.occursIn items = v.occursIn others := by
  rw [Bool.eq_iff_iff, occursIn, occursIn, List.any_eq_true, List.any_eq_true]
  exact exists_congr fun item => and_congr_left fun _ => same.mem_iff

theorem allHashable_perm (same : items.Perm others) :
    allHashable items = allHashable others := by
  rw [Bool.eq_iff_iff, allHashable_iff, allHashable_iff]
  exact forall_congr' fun item => imp_congr_left same.mem_iff

end Value

section

variable {α β γ : Type} {R : α → β → Prop} {items : List α} {others : List β}

theorem map_eq_of_forall₂ (related : List.Forall₂ R items others) {f : α → γ} {g : β → γ}
    (same : ∀ a b, R a b → f a = g b) : items.map f = others.map g := by
  induction related with
  | nil => rfl
  | cons first _ ih => rw [List.map_cons, List.map_cons, same _ _ first, ih]

theorem any_eq_of_forall₂ (related : List.Forall₂ R items others) {p : α → Bool} {q : β → Bool}
    (same : ∀ a b, R a b → p a = q b) : items.any p = others.any q := by
  induction related with
  | nil => rfl
  | cons first _ ih => rw [List.any_cons, List.any_cons, same _ _ first, ih]

theorem find?_of_forall₂ (related : List.Forall₂ R items others) {p : α → Bool} {q : β → Bool}
    (same : ∀ a b, R a b → p a = q b) :
    (items.find? p = none ∧ others.find? q = none) ∨
      ∃ a b, items.find? p = some a ∧ others.find? q = some b ∧ R a b := by
  induction related with
  | nil => exact .inl ⟨rfl, rfl⟩
  | @cons a b _ _ first _ ih =>
      rw [List.find?_cons, List.find?_cons, ← same a b first]
      cases p a with
      | true => exact .inr ⟨a, b, rfl, rfl, first⟩
      | false => exact ih

end

namespace Subgraph

/-- The same up to the order of members and, without a boundary, the styling. -/
structure Alike (s t : Subgraph) : Prop where
  number : s.number = t.number
  isCluster : s.isCluster = t.isCluster
  members : s.members.Perm t.members
  vertexDefaults : s.vertexDefaults = t.vertexDefaults
  edgeDefaults : s.edgeDefaults = t.edgeDefaults
  styling : s.isCluster = true → s.styling = t.styling

variable {r s t : Subgraph}

theorem Alike.refl (s : Subgraph) : s.Alike s :=
  ⟨rfl, rfl, .refl _, rfl, rfl, fun _ => rfl⟩

theorem Alike.symm (alike : s.Alike t) : t.Alike s :=
  ⟨alike.number.symm, alike.isCluster.symm, alike.members.symm, alike.vertexDefaults.symm,
    alike.edgeDefaults.symm, fun cluster => (alike.styling (alike.isCluster.trans cluster)).symm⟩

theorem Alike.trans (first : r.Alike s) (second : s.Alike t) : r.Alike t where
  number := first.number.trans second.number
  isCluster := first.isCluster.trans second.isCluster
  members := first.members.trans second.members
  vertexDefaults := first.vertexDefaults.trans second.vertexDefaults
  edgeDefaults := first.edgeDefaults.trans second.edgeDefaults
  styling := fun cluster =>
    (first.styling cluster).trans (second.styling (first.isCluster.symm.trans cluster))

theorem Alike.name (alike : s.Alike t) : s.name = t.name := by
  rw [Subgraph.name, Subgraph.name, alike.number, alike.isCluster]

theorem Alike.contains (alike : s.Alike t) (v : Value) : s.contains v = t.contains v :=
  Value.occursIn_perm alike.members v

theorem Alike.holdsVertex (alike : s.Alike t) : s.holdsVertex = t.holdsVertex :=
  funext fun v => alike.contains (.int v.id)

theorem Alike.holdsEdge (alike : s.Alike t) (e : Edge) : s.holdsEdge e = t.holdsEdge e := by
  rw [Subgraph.holdsEdge, Subgraph.holdsEdge, alike.contains, alike.contains]

theorem Alike.isWritable (alike : s.Alike t) : s.isWritable = t.isWritable :=
  Value.allHashable_perm alike.members

theorem Alike.stylingLines (alike : s.Alike t) : s.stylingLines = t.stylingLines := by
  unfold Subgraph.stylingLines
  rw [← alike.isCluster]
  split
  · rename_i cluster
    rw [alike.styling cluster]
  · rfl

end Subgraph

namespace Graph

/-- The same up to subgraphs that are alike. -/
structure Alike (g h : Graph) : Prop where
  attrs : g.attrs = h.attrs
  vertexDefaults : g.vertexDefaults = h.vertexDefaults
  edgeDefaults : g.edgeDefaults = h.edgeDefaults
  vertices : g.vertices = h.vertices
  edges : g.edges = h.edges
  subgraphs : List.Forall₂ Subgraph.Alike g.subgraphs h.subgraphs
  nextVertex : g.nextVertex = h.nextVertex
  nextEdge : g.nextEdge = h.nextEdge
  nextSubgraph : g.nextSubgraph = h.nextSubgraph

variable {f g h : Graph}

theorem Alike.refl (g : Graph) : g.Alike g :=
  ⟨rfl, rfl, rfl, rfl, rfl, List.forall₂_same.2 fun s _ => .refl s, rfl, rfl, rfl⟩

theorem forall₂_alike_trans {first second third : List Subgraph}
    (before : List.Forall₂ Subgraph.Alike first second)
    (after : List.Forall₂ Subgraph.Alike second third) :
    List.Forall₂ Subgraph.Alike first third := by
  induction before generalizing third with
  | nil => exact after
  | cons here _ ih =>
      cases after with
      | cons there later => exact .cons (here.trans there) (ih later)

theorem Alike.trans (first : f.Alike g) (second : g.Alike h) : f.Alike h where
  attrs := first.attrs.trans second.attrs
  vertexDefaults := first.vertexDefaults.trans second.vertexDefaults
  edgeDefaults := first.edgeDefaults.trans second.edgeDefaults
  vertices := first.vertices.trans second.vertices
  edges := first.edges.trans second.edges
  subgraphs := forall₂_alike_trans first.subgraphs second.subgraphs
  nextVertex := first.nextVertex.trans second.nextVertex
  nextEdge := first.nextEdge.trans second.nextEdge
  nextSubgraph := first.nextSubgraph.trans second.nextSubgraph

theorem Alike.exists_subgraphs (alike : g.Alike h) :
    ∃ others, List.Forall₂ Subgraph.Alike g.subgraphs others ∧
      h = { g with subgraphs := others } := by
  refine ⟨h.subgraphs, alike.subgraphs, ?_⟩
  cases g
  cases h
  simp only [Graph.mk.injEq]
  exact ⟨alike.attrs.symm, alike.vertexDefaults.symm, alike.edgeDefaults.symm,
    alike.vertices.symm, alike.edges.symm, trivial, alike.nextVertex.symm, alike.nextEdge.symm,
    alike.nextSubgraph.symm⟩

theorem alike_subgraphs {others : List Subgraph}
    (related : List.Forall₂ Subgraph.Alike g.subgraphs others) :
    g.Alike { g with subgraphs := others } :=
  ⟨rfl, rfl, rfl, rfl, rfl, related, rfl, rfl, rfl⟩

theorem Alike.block (alike : g.Alike h) {s t : Subgraph} (same : s.Alike t) :
    g.block s = h.block t := by
  have vertices : g.verticesIn s = h.verticesIn t := by
    rw [verticesIn, verticesIn, alike.vertices, same.holdsVertex]
  have edges : g.edgesIn s = h.edgesIn t := by
    rw [edgesIn, edgesIn, alike.edges]
    exact List.filter_congr fun e _ => same.holdsEdge e
  rw [Graph.block, Graph.block, blockSections, blockSections, same.name, same.vertexDefaults,
    same.edgeDefaults, same.stylingLines, vertices, edges]

theorem Alike.looseVertices (alike : g.Alike h) : g.looseVertices = h.looseVertices := by
  rw [looseVertices_eq, looseVertices_eq, alike.vertices]
  refine List.filter_congr fun v _ => ?_
  rw [any_eq_of_forall₂ alike.subgraphs fun s t same => congrFun same.holdsVertex v]

theorem Alike.looseEdges (alike : g.Alike h) : g.looseEdges = h.looseEdges := by
  rw [Graph.looseEdges, Graph.looseEdges, alike.edges]
  refine List.filter_congr fun e _ => ?_
  rw [any_eq_of_forall₂ alike.subgraphs fun s t same => same.holdsEdge e]

theorem Alike.document (alike : g.Alike h) : g.document = h.document := by
  have blocks : g.subgraphs.map (fun s => g.block s) = h.subgraphs.map fun s => h.block s :=
    map_eq_of_forall₂ alike.subgraphs fun s t same => alike.block same
  rw [Graph.document, Graph.document, documentSections, documentSections, alike.attrs,
    alike.vertexDefaults, alike.edgeDefaults, blocks, alike.looseVertices, alike.looseEdges]

theorem Alike.isWritable (alike : g.Alike h) : g.isWritable = h.isWritable := by
  have tested : g.subgraphs.map Subgraph.isWritable = h.subgraphs.map Subgraph.isWritable :=
    map_eq_of_forall₂ alike.subgraphs fun s t same => same.isWritable
  simpa [Graph.isWritable] using congrArg (fun tests => tests.all id) tested

theorem Alike.document? (alike : g.Alike h) : g.document? = h.document? := by
  rw [Graph.document?, Graph.document?, alike.isWritable, alike.document]

end Graph
end DotDoc
