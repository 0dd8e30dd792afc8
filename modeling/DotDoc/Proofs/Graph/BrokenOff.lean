import DotDoc.Proofs.Graph.Chain

/-!
# What an operation leaves that is broken off

A chain adds its edges one after the other, and an update of a subgraph stores its properties in
their order.  Both stop at the first item that is refused and keep what was done before it.  What
they leave is what the same operation leaves on the items in front of that one: for a chain the
values up to the first that names no end, for an update the properties up to the first layer that
is neither unset nor a mapping.
-/

set_option autoImplicit false

namespace DotDoc

namespace Subgraph

variable {s : Subgraph}

/-- A property for a layer whose value is neither unset nor a mapping. -/
structure Unfit (entry : String × Value) : Prop where
  is_layer : entry.1 = "node" ∨ entry.1 = "edge"
  is_set : entry.2.isUnset = false
  no_mapping : entry.2.mapping? = none

theorem layerWith_of_unfit {value : Value} (is_set : value.isUnset = false)
    (no_mapping : value.mapping? = none) (layer : AttrList) : layerWith value layer = none := by
  rw [layerWith, if_neg (by simp [is_set]), no_mapping]
  rfl

theorem setProperty_eq_error_iff {key : String} {value : Value} {e : Error} :
    s.setProperty key value = .error e ↔ Unfit (key, value) ∧ e = .layerNotMapping key value := by
  constructor
  · intro refused
    cases setProperty_fault refused with
    | intro layer given member is_layer unfit =>
        cases List.mem_singleton.1 member
        exact ⟨⟨is_layer, unfit.1, unfit.2⟩, rfl⟩
  · rintro ⟨unfit, rfl⟩
    have no_layer := layerWith_of_unfit unfit.is_set unfit.no_mapping
    rcases unfit.is_layer with rfl | rfl
    · rw [setProperty, if_pos rfl, no_layer]
    · rw [setProperty, if_neg (by decide), if_pos rfl, no_layer]

theorem setProperty_of_fit {key : String} {value : Value} (fit : ¬Unfit (key, value))
    (s : Subgraph) : ∃ t, s.setProperty key value = .ok t := by
  cases result : s.setProperty key value with
  | ok t => exact ⟨t, rfl⟩
  | error e => exact absurd (setProperty_eq_error_iff.1 result).1 fit

theorem setProperties_cases (properties : Entries Value) (s : Subgraph) :
    (∀ entry ∈ properties, ¬Unfit entry) ∨
    ∃ before key value later, properties = before ++ (key, value) :: later ∧
      (∀ entry ∈ before, ¬Unfit entry) ∧ Unfit (key, value) ∧
      setProperties properties s
        = (.error (.layerNotMapping key value), (setProperties before s).2) := by
  induction properties generalizing s with
  | nil => exact .inl nofun
  | cons entry rest ih =>
      obtain ⟨key, value⟩ := entry
      by_cases unfit : Unfit (key, value)
      · have refused : s.setProperty key value = .error (.layerNotMapping key value) :=
          setProperty_eq_error_iff.2 ⟨unfit, rfl⟩
        have stopped : setProperties ((key, value) :: rest) s
            = (.error (.layerNotMapping key value), s) := by
          rw [setProperties, refused]
        exact .inr ⟨[], key, value, rest, rfl, nofun, unfit, stopped⟩
      · obtain ⟨changed, stored⟩ := setProperty_of_fit unfit s
        have step (more : Entries Value) :
            setProperties ((key, value) :: more) s = setProperties more changed := by
          rw [setProperties, stored]
        rcases ih changed with all_fit | ⟨before, bad, held, later, rfl, before_fit, bad_unfit,
          broken⟩
        · exact .inl (List.forall_mem_cons.2 ⟨unfit, all_fit⟩)
        · refine .inr ⟨(key, value) :: before, bad, held, later, rfl,
            List.forall_mem_cons.2 ⟨unfit, before_fit⟩, bad_unfit, ?_⟩
          rw [step, step, broken]

/-- A layer of defaults after the property for it, if one is given. -/
def layerAfter (property : Option Value) (layer : AttrList) : AttrList :=
  match property with
  | none => layer
  | some value => (layerWith value layer).getD layer

/-- The subgraph with fit properties: each layer after its property, the others as styling. -/
def withProperties (properties : Entries Value) (s : Subgraph) : Subgraph :=
  { s with
    vertexDefaults := layerAfter (Entries.find? "node" properties) s.vertexDefaults
    edgeDefaults := layerAfter (Entries.find? "edge" properties) s.edgeDefaults
    styling := s.styling.putAll (properties.filter fun entry => entry.1 ∉ layerNames) }

theorem layerWith_of_fit {key : String} {value : Value} (is_layer : key = "node" ∨ key = "edge")
    (fit : ¬Unfit (key, value)) (layer : AttrList) :
    ∃ changed, layerWith value layer = some changed := by
  cases result : layerWith value layer with
  | some changed => exact ⟨changed, rfl⟩
  | none =>
      obtain ⟨is_set, no_mapping⟩ := layerWith_eq_none result
      exact absurd ⟨is_layer, is_set, no_mapping⟩ fit

theorem setProperties_of_fit {properties : Entries Value}
    (distinct : (Entries.keys properties).Nodup) (fit : ∀ entry ∈ properties, ¬Unfit entry)
    (s : Subgraph) : setProperties properties s = (.ok (), s.withProperties properties) := by
  induction properties generalizing s with
  | nil => rfl
  | cons entry rest ih =>
      obtain ⟨key, value⟩ := entry
      obtain ⟨new, rest_distinct⟩ := List.nodup_cons.1 distinct
      obtain ⟨first_fit, rest_fit⟩ := List.forall_mem_cons.1 fit
      rw [setProperties]
      by_cases is_node : key = "node"
      · subst is_node
        obtain ⟨layer, changed⟩ := layerWith_of_fit (.inl rfl) first_fit s.vertexDefaults
        rw [setProperty, if_pos rfl, changed]
        dsimp only
        rw [ih rest_distinct rest_fit]
        simp [withProperties, layerAfter, Entries.find?, Entries.find?_of_not_mem new, changed,
          layerNames]
      by_cases is_edge : key = "edge"
      · subst is_edge
        obtain ⟨layer, changed⟩ := layerWith_of_fit (.inr rfl) first_fit s.edgeDefaults
        rw [setProperty, if_neg is_node, if_pos rfl, changed]
        dsimp only
        rw [ih rest_distinct rest_fit]
        simp [withProperties, layerAfter, Entries.find?, Entries.find?_of_not_mem new, changed,
          layerNames]
      · rw [setProperty, if_neg is_node, if_neg is_edge]
        dsimp only
        rw [ih rest_distinct rest_fit]
        simp [withProperties, Entries.find?, is_node, is_edge, layerNames, AttrList.putAll]

end Subgraph

namespace Graph

variable {g : Graph}

/-- How an update of a subgraph ends.  It is refused exactly when a property for a layer is neither
unset nor a mapping, and it leaves then what the update by the properties in front of the first
such one leaves.  Otherwise it stores all properties. -/
structure UpdateKeepsPrefix (g : Graph) (id : Value) (s : Subgraph) (properties : Keywords) :
    Prop where
  refused_iff : (∃ e, (g.updateSubgraph id properties).1 = .error e ∧ e.kind = .value) ↔
    ∃ entry ∈ properties.entries, Subgraph.Unfit entry
  prefix_left : ∀ e, (g.updateSubgraph id properties).1 = .error e →
    ∃ (before : Keywords) (key : String) (value : Value) (later : Entries Value),
      properties.entries = before.entries ++ (key, value) :: later ∧
      (∀ entry ∈ before.entries, ¬Subgraph.Unfit entry) ∧ Subgraph.Unfit (key, value) ∧
      e = .layerNotMapping key value ∧
      (g.updateSubgraph id properties).2 = (g.updateSubgraph id before).2
  stored : (∀ entry ∈ properties.entries, ¬Subgraph.Unfit entry) →
    g.updateSubgraph id properties
      = (.ok (), g.replaceSubgraph (s.withProperties properties.entries))

theorem updateSubgraph_of_found {id : Value} {s : Subgraph} {properties : Keywords}
    (found : g.findSubgraph id = some s) (free : properties.clashesWith ["sid"] = false) :
    g.updateSubgraph id properties
      = ((s.setProperties properties.entries).1,
        g.replaceSubgraph (s.setProperties properties.entries).2) := by
  have looked_up : g.subgraph id = .ok s := by rw [subgraph, found]
  rw [updateSubgraph, Action.check_of_ok g (Keywords.checkNames_of_free free),
    Action.ask_of_ok g looked_up]
  rfl

theorem updateKeepsPrefix_of_found {id : Value} {s : Subgraph} {properties : Keywords}
    (found : g.findSubgraph id = some s) (free : properties.clashesWith ["sid"] = false) :
    UpdateKeepsPrefix g id s properties := by
  have whole := updateSubgraph_of_found found free
  rcases s.setProperties_cases properties.entries with all_fit |
    ⟨before, key, value, later, split, before_fit, unfit, broken⟩
  · rw [Subgraph.setProperties_of_fit properties.distinct all_fit] at whole
    refine ⟨⟨?_, ?_⟩, ?_, fun _ => whole⟩
    · rintro ⟨e, refused, _⟩
      rw [whole] at refused
      cases refused
    · rintro ⟨entry, member, unfit⟩
      exact absurd unfit (all_fit entry member)
    · intro e refused
      rw [whole] at refused
      cases refused
  · rw [broken] at whole
    have names : Entries.keys properties.entries
        = Entries.keys before ++ Entries.keys ((key, value) :: later) := by
      rw [split, Entries.keys, List.map_append]
      rfl
    have distinct : (Entries.keys before).Nodup :=
      (names ▸ properties.distinct).of_append_left
    have before_free : (⟨before, distinct⟩ : Keywords).clashesWith ["sid"] = false := by
      rw [Keywords.clashesWith_eq_false_iff] at free ⊢
      exact fun name member => free name (names ▸ List.mem_append_left _ member)
    have kept : g.updateSubgraph id ⟨before, distinct⟩
        = ((s.setProperties before).1, g.replaceSubgraph (s.setProperties before).2) :=
      updateSubgraph_of_found found before_free
    have unfit_member : (key, value) ∈ properties.entries := by rw [split]; simp
    refine ⟨iff_of_true ⟨_, by rw [whole], rfl⟩ ⟨_, unfit_member, unfit⟩, ?_, ?_⟩
    · intro e refused
      rw [whole] at refused ⊢
      cases refused
      exact ⟨⟨before, distinct⟩, key, value, later, split, before_fit, unfit, rfl, by rw [kept]⟩
    · intro all_fit
      exact absurd unfit (all_fit _ unfit_member)

/-- A chain and an update of a subgraph that are broken off leave what they leave on the items in
front of the first that is refused. -/
theorem broken_off_keeps_prefix (reached : Reachable g) :
    (∀ endpoints items attrs, endpoints.elements = .ok items →
      attrs.clashesWith ["endpoints", "tail", "head"] = false →
        ChainKeepsPrefix g endpoints items attrs) ∧
    ∀ id s properties, g.findSubgraph id = some s →
      (properties.clashesWith ["sid"] = false → UpdateKeepsPrefix g id s properties) ∧
      (properties.clashesWith ["sid"] = true →
        g.updateSubgraph id properties = (.error .wrongType, g)) := by
  constructor
  · intro endpoints items attrs listed no_clash
    exact reached.consistent.chainKeepsPrefix listed no_clash
  · intro id s properties found
    refine ⟨updateKeepsPrefix_of_found found, fun clash => ?_⟩
    rw [updateSubgraph, Action.check_bind, Keywords.checkNames, if_pos clash]

def clusteredGraph : Graph :=
  (ofLayers .empty .empty .empty).run
    [.addVertex (.str "a") .empty, .addVertex (.str "b") .empty, .addVertex (.str "c") .empty,
      .addCluster (.list [.int 0]) .empty]

/-- A chain whose second item is a truth value and whose third is missing, and styling with a layer
that is no mapping in between. -/
theorem clusteredGraph_keeps_prefix :
    Reachable clusteredGraph ∧
    ((clusteredGraph.chain
          (.list [.int 0, .tuple [.bool true, .str "p"], .int 7, .int 2]) .empty).1
        = .error (.vertexNotFound (.int 7)) ∧
      (clusteredGraph.chain
          (.list [.int 0, .tuple [.bool true, .str "p"], .int 7, .int 2]) .empty).2
        = (clusteredGraph.chain (.list [.int 0, .tuple [.bool true, .str "p"]]) .empty).2 ∧
      ChainKeepsPrefix clusteredGraph
        (.list [.int 0, .tuple [.bool true, .str "p"], .int 7, .int 2])
        [.int 0, .tuple [.bool true, .str "p"], .int 7, .int 2] .empty) ∧
    ∃ s, clusteredGraph.findSubgraph (.str "cluster0") = some s ∧
      (clusteredGraph.updateSubgraph (.str "cluster0")
          ⟨[("color", .str "red"), ("edge", .int 3), ("label", .str "x")], by decide⟩).1
        = .error (.layerNotMapping "edge" (.int 3)) ∧
      UpdateKeepsPrefix clusteredGraph (.str "cluster0") s
        ⟨[("color", .str "red"), ("edge", .int 3), ("label", .str "x")], by decide⟩ := by
  have reached : Reachable clusteredGraph := reachable_run_empty _
  obtain ⟨chains, updates⟩ := broken_off_keeps_prefix reached
  refine ⟨reached, ⟨rfl, rfl, chains _ _ _ rfl rfl⟩, _, rfl, rfl, ?_⟩
  exact (updates _ _ _ rfl).1 rfl

end Graph
end DotDoc
