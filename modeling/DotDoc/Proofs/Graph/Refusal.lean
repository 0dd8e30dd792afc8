import DotDoc.Proofs.Graph.Consistent

/-!
# Refused calls

A call that is refused leaves the graph as it was.  Only a chain and an update of a subgraph keep
what they did before the refusal, and a new subgraph that is refused for one of its layers has
taken its number already.

No operation undoes anything, so this is about the order of its steps: where a call can be refused
it has changed nothing yet.  A fan comes closest to a change before a refusal.  It looks its ends up
and then adds its edges one by one, each of which looks its ends up once more; these lookups find
what the first ones found, so no fan stops halfway, whichever of its ends is missing.
-/

set_option autoImplicit false

namespace DotDoc.Graph

variable {g : Graph}

theorem Connects.length_edges {numbers : List Nat} {g' : Graph} (connected : Connects g numbers g') :
    g'.edges.length = g.edges.length + numbers.length := by
  induction connected with
  | none g => rfl
  | @insert g g' numbers tail head attrs _ _ _ ih =>
      have one_more : (g.insertEdge tail head attrs).2.edges.length = g.edges.length + 1 :=
        List.length_append
      rw [ih, one_more, List.length_cons]
      omega

/-- Nothing is changed by a refused call that keeps no part, except that a subgraph refused for a
layer uses up its number.  So a fan adds an edge for every head or none. -/
theorem refused_call_keeps_graph (reached : Reachable g) :
    (∀ (call : Call) (e : Error), call.keepsPart = false →
      (g.perform call).result = .error e →
        ((g.perform call).graph = g ∧ (call.purpose = .group → e.aboutLayer = false)) ∨
        (call.purpose = .group ∧ Subgraph.LayerFault call.properties e ∧
          (g.perform call).graph = { g with nextSubgraph := g.nextSubgraph + 1 })) ∧
    ∀ tail heads attrs,
      (∃ e, g.fanOut tail heads attrs = (.error e, g)) ∨
      ∃ items numbers grown, heads.elements = .ok items ∧
        g.fanOut tail heads attrs = (.ok numbers, grown) ∧ numbers.length = items.length ∧
        grown.edges.length = g.edges.length + items.length := by
  constructor
  · intro call e whole refused
    have effect := perform_effect reached.consistent.isWritable call
    rw [refused] at effect
    generalize (g.perform call).graph = after at effect ⊢
    cases effect with
    | refused fault => exact .inl ⟨rfl, fault⟩
    | numberLost purpose fault => exact .inr ⟨purpose, fault, rfl⟩
    | edgesAdded purpose connected answered part =>
        have kept := part e rfl
        rw [whole] at kept
        cases kept
    | brokenOff purpose part revision =>
        rw [whole] at part
        cases part
  · intro tail heads attrs
    have fan := fanOut_whole tail heads attrs g
    generalize g.fanOut tail heads attrs = ends at fan ⊢
    cases fan with
    | refused e => exact .inl ⟨e, rfl⟩
    | @done numbers grown added =>
        obtain ⟨items, listed, as_many, connected⟩ := added
        refine .inr ⟨items, numbers, grown, listed, rfl, as_many, ?_⟩
        rw [connected.length_edges, as_many]

def pairGraph : Graph :=
  (ofLayers .empty .empty .empty).run
    [.addVertex (.str "a") .empty, .addVertex (.str "b") .empty,
      .addCluster (.list [.int 0]) .empty]

theorem pairGraph_kept : Reachable pairGraph ∧
    ((pairGraph.perform (.fanOut (.int 0) (.list [.int 1, .int 0, .int 7]) .empty)).result
        = .error (.vertexNotFound (.int 7)) ∧
      (pairGraph.perform (.fanOut (.int 0) (.list [.int 1, .int 0, .int 7]) .empty)).graph
        = pairGraph) ∧
    (pairGraph.perform (.addSubgraph (.list [.int 1]) ⟨[("node", .int 3)], by decide⟩)).result
        = .error (.layerNotMapping "node" (.int 3)) ∧
      (pairGraph.perform (.addSubgraph (.list [.int 1]) ⟨[("node", .int 3)], by decide⟩)).graph
        = { pairGraph with nextSubgraph := 2 } := by
  have built : Graph.new .null .null .null = .ok (ofLayers .empty .empty .empty) := rfl
  have reached : Reachable pairGraph := Reachable.run (.new built) _
  have kept := (refused_call_keeps_graph reached).1
  refine ⟨reached, ⟨rfl, ?_⟩, rfl, ?_⟩
  · rcases kept (.fanOut (.int 0) (.list [.int 1, .int 0, .int 7]) .empty) _ rfl rfl with
      ⟨same, _⟩ | ⟨purpose, _⟩
    · exact same
    · cases purpose
  · rcases kept (.addSubgraph (.list [.int 1]) ⟨[("node", .int 3)], by decide⟩) _ rfl rfl with
      ⟨_, no_layer⟩ | ⟨_, _, numbered⟩
    · cases no_layer rfl
    · exact numbered

end DotDoc.Graph
