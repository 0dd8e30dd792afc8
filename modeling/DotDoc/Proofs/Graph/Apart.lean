import DotDoc.Proofs.Attribute.Stored
import DotDoc.Proofs.Graph.Consistent

/-!
# What is kept apart from attributes

Ports come in among the attributes of an edge, and layers of defaults among the properties of a
subgraph.  Both are stored in places of their own: no edge has an attribute with the name of a
port, and the styling of a subgraph has no attribute with the name of a layer.  With the other
attribute lists of a graph these make up `TidyLists`, which every elementary change keeps.
-/

set_option autoImplicit false

namespace DotDoc

def portNames : List String := ["outport", "inport"]

def layerNames : List String := ["node", "edge"]

theorem Keywords.not_mem_portNames {k : Keywords} :
    ∀ entry ∈ ((k.erase "outport").erase "inport").entries, entry.1 ∉ portNames := by
  intro entry member
  obtain ⟨rest, not_inport⟩ := Keywords.mem_erase_iff.1 member
  obtain ⟨_, not_outport⟩ := Keywords.mem_erase_iff.1 rest
  simp [portNames, not_outport, not_inport]

namespace Subgraph

/-- The layers are tidy, and the styling is besides without the names of layers. -/
structure TidyLists (s : Subgraph) : Prop where
  vertexDefaults : s.vertexDefaults.Tidy []
  edgeDefaults : s.edgeDefaults.Tidy []
  styling : s.styling.Tidy layerNames

variable {s t : Subgraph}

theorem tidyLists_empty (number : Int) (isCluster : Bool) : (empty number isCluster).TidyLists :=
  ⟨AttrList.tidy_empty _, AttrList.tidy_empty _, AttrList.tidy_empty _⟩

theorem TidyLists.addMember (tidy : s.TidyLists) (v : Value) : (s.addMember v).TidyLists := by
  unfold Subgraph.addMember
  split
  · exact tidy
  · exact { tidy with }

theorem TidyLists.addMembers (tidy : s.TidyLists) (vs : List Value) :
    (s.addMembers vs).TidyLists := by
  induction vs generalizing s with
  | nil => exact tidy
  | cons v rest ih => exact ih (tidy.addMember v)

theorem tidy_layerWith {value : Value} {layer changed : AttrList} (tidy : layer.Tidy [])
    (fit : layerWith value layer = some changed) : changed.Tidy [] := by
  unfold layerWith at fit
  split at fit
  · cases fit
    exact AttrList.tidy_empty _
  · obtain ⟨entries, _, rfl⟩ := Option.map_eq_some_iff.1 fit
    exact tidy.storeAll entries

theorem TidyLists.setProperty (tidy : s.TidyLists) {key : String} {value : Value}
    (changed : s.setProperty key value = .ok t) : t.TidyLists := by
  unfold Subgraph.setProperty at changed
  split at changed
  · split at changed
    · rename_i fit
      cases changed
      exact { tidy with vertexDefaults := tidy_layerWith tidy.vertexDefaults fit }
    · cases changed
  · rename_i not_node
    split at changed
    · split at changed
      · rename_i fit
        cases changed
        exact { tidy with edgeDefaults := tidy_layerWith tidy.edgeDefaults fit }
      · cases changed
    · rename_i not_edge
      cases changed
      have free : key ∉ layerNames := by simp [layerNames, not_node, not_edge]
      exact { tidy with styling := tidy.styling.put free value }

theorem TidyLists.setProperties (tidy : s.TidyLists) (properties : Entries Value) :
    (Subgraph.setProperties properties s).2.TidyLists := by
  induction properties generalizing s with
  | nil => exact tidy
  | cons entry rest ih =>
      obtain ⟨key, value⟩ := entry
      rw [Subgraph.setProperties]
      cases result : s.setProperty key value with
      | ok changed => exact ih (tidy.setProperty result)
      | error e => exact tidy

theorem create_tidyLists {number : Int} {isCluster : Bool} {members : List Value}
    {properties : Keywords} (created : create number isCluster members properties = .ok s) :
    s.TidyLists := by
  have tidy := ((tidyLists_empty number isCluster).addMembers members).setProperties
    properties.entries
  unfold create at created
  split at created
  · rename_i made result
    cases created
    rwa [result] at tidy
  · cases created

end Subgraph

namespace Graph

/-- All attribute lists of a graph are tidy, those of edges without the names of ports. -/
structure TidyLists (g : Graph) : Prop where
  attrs : g.attrs.Tidy []
  vertexDefaults : g.vertexDefaults.Tidy []
  edgeDefaults : g.edgeDefaults.Tidy []
  vertices : ∀ v ∈ g.vertices, v.attrs.Tidy []
  edges : ∀ e ∈ g.edges, e.attrs.Tidy portNames
  subgraphs : ∀ s ∈ g.subgraphs, s.TidyLists

variable {g g' : Graph}

theorem layerOf_tidy {source : Value} {layer : AttrList} (built : layerOf source = .ok layer) :
    layer.Tidy [] :=
  (AttrList.tidy_empty []).merge built

theorem new_tidyLists {attrs vertexDefaults edgeDefaults : Value}
    (built : Graph.new attrs vertexDefaults edgeDefaults = .ok g) : g.TidyLists := by
  obtain ⟨a, v, e, a_built, v_built, e_built, rfl⟩ := new_eq_ok built
  exact ⟨layerOf_tidy a_built, layerOf_tidy v_built, layerOf_tidy e_built, nofun, nofun, nofun⟩

theorem forall_mem_append_singleton {α : Type} {P : α → Prop} {items : List α} {a : α}
    (old : ∀ b ∈ items, P b) (new : P a) : ∀ b ∈ items ++ [a], P b := by
  intro b member
  rcases List.mem_append.1 member with earlier | last
  · exact old b earlier
  · rw [List.mem_singleton.1 last]
    exact new

theorem TidyLists.replaceSubgraph (tidy : g.TidyLists) {changed : Subgraph}
    (lists : changed.TidyLists) : (g.replaceSubgraph changed).TidyLists := by
  refine { tidy with subgraphs := ?_ }
  intro t member
  obtain ⟨s, stored, rfl⟩ := List.mem_map.1 member
  split
  · exact lists
  · exact tidy.subgraphs s stored

theorem Change.tidyLists (change : Change g g') (tidy : g.TidyLists) : g'.TidyLists := by
  cases change with
  | storeAttribute key value =>
      exact { tidy with attrs := tidy.attrs.store List.not_mem_nil value }
  | storeVertexDefaults added =>
      exact { tidy with vertexDefaults := tidy.vertexDefaults.putAll fun _ _ => List.not_mem_nil }
  | storeEdgeDefaults added =>
      exact { tidy with edgeDefaults := tidy.edgeDefaults.putAll fun _ _ => List.not_mem_nil }
  | insertVertex label attrs given =>
      have list : (AttrList.ofKeywords attrs).Tidy [] := .ofKeywords fun _ _ => List.not_mem_nil
      have new : (AttrList.prepend (.str "label") label (.ofKeywords attrs)).Tidy [] :=
        list.prepend List.not_mem_nil label
      exact { tidy with vertices := forall_mem_append_singleton tidy.vertices new }
  | updateVertex v stored added =>
      refine { tidy with vertices := ?_ }
      intro w member
      obtain ⟨u, stored, rfl⟩ := List.mem_map.1 member
      dsimp only
      split
      · exact (tidy.vertices u stored).putAll fun _ _ => List.not_mem_nil
      · exact tidy.vertices u stored
  | insertEdge tail head attrs tail_found head_found =>
      have new : AttrList.Tidy portNames (.ofKeywords ((attrs.erase "outport").erase "inport")) :=
        .ofKeywords Keywords.not_mem_portNames
      exact { tidy with edges := forall_mem_append_singleton tidy.edges new }
  | updateEdge e stored attrs =>
      refine { tidy with edges := ?_ }
      intro f member
      obtain ⟨d, stored, rfl⟩ := List.mem_map.1 member
      dsimp only
      split
      · exact (tidy.edges d stored).putAll Keywords.not_mem_portNames
      · exact tidy.edges d stored
  | removeEdge e stored =>
      exact { tidy with edges := fun f member => tidy.edges f (List.mem_of_mem_filter member) }
  | skipNumber => exact { tidy with }
  | insertSubgraph isCluster ids properties s free created =>
      have new := Subgraph.create_tidyLists created
      exact { tidy with subgraphs := forall_mem_append_singleton tidy.subgraphs new }
  | addMembers s stored ids free =>
      exact tidy.replaceSubgraph ((tidy.subgraphs s stored).addMembers (ids.map Value.plain))
  | removeMembers s stored members =>
      exact tidy.replaceSubgraph { tidy.subgraphs s stored with }
  | setProperties s stored properties =>
      exact tidy.replaceSubgraph ((tidy.subgraphs s stored).setProperties properties)
  | removeSubgraph s stored =>
      exact { tidy with
        subgraphs := fun t member => tidy.subgraphs t (List.mem_of_mem_filter member) }
  | removeVertex v stored id named =>
      refine { tidy with vertices := ?_, edges := ?_, subgraphs := ?_ }
      · exact fun u member => tidy.vertices u (List.mem_of_mem_filter member)
      · exact fun e member => tidy.edges e (List.mem_of_mem_filter member)
      · intro t member
        obtain ⟨s, stored, rfl⟩ := List.mem_map.1 member
        exact { tidy.subgraphs s stored with }

theorem Changes.tidyLists (changes : Changes g g') (tidy : g.TidyLists) : g'.TidyLists := by
  induction changes with
  | refl => exact tidy
  | tail _ change ih => exact change.tidyLists ih

/-- Whatever calls are made, refused or not, ports and layers are in no attribute list, and no
list has an unset value or a name twice. -/
theorem lists_tidy_of_reachable (reached : Reachable g) : g.TidyLists := by
  induction reached with
  | new built => exact new_tidyLists built
  | perform call reached ih =>
      exact (perform_changes reached.consistent.isWritable call).tidyLists ih

/-- Ports and layers on every way into a graph, with unset values among them, and with a chain
and an update that are refused halfway. -/
def portCalls : List Call :=
  [.addVertex (.str "a") ⟨[("color", .null), ("shape", .str "box")], by decide⟩,
    .addVertex (.str "b") .empty,
    .addEdge (.int 0) (.int 1) ⟨[("outport", .str "p"), ("color", .str "red")], by decide⟩,
    .chain (.list [.int 0, .int 1, .int 7])
      ⟨[("inport", .str "q"), ("style", .unset), ("label", .str "x")], by decide⟩,
    .fanOut (.int 1) (.list [.int 0]) ⟨[("outport", .null), ("inport", .str "r")], by decide⟩,
    .updateEdge (.int 0)
      ⟨[("inport", .str "s"), ("color", .null), ("weight", .int 2)], by decide⟩,
    .addCluster (.list [.int 0])
      ⟨[("node", .dict [(.str "shape", .str "box"), (.str "color", .null)]),
        ("color", .str "blue"), ("bgcolor", .null)], by decide⟩,
    .updateSubgraph (.str "cluster0")
      ⟨[("style", .str "filled"), ("edge", .dict [(.int 1, .int 2)]), ("node", .int 3)],
        by decide⟩,
    .setGlobalProperties (.str "node") ⟨[("shape", .str "box"), ("color", .unset)], by decide⟩]

theorem portCalls_lists_tidy :
    ∃ g, Reachable g ∧ g = (ofLayers .empty .empty .empty).run portCalls ∧
      g.edges.map (fun e => (e.tail.port.isSome, e.head.port.isSome, e.attrs.keys))
        = [(true, true, ["weight"]), (false, true, ["label"]), (false, true, [])] ∧
      g.subgraphs.map (fun s => (s.vertexDefaults.keys, s.edgeDefaults.keys, s.styling.keys))
        = [(["shape"], ["1"], ["color", "style"])] ∧
      g.TidyLists := by
  have reached := reachable_run_empty portCalls
  exact ⟨_, reached, rfl, by decide, by decide, lists_tidy_of_reachable reached⟩

end Graph
end DotDoc
