import DotDoc.Proofs.Graph.Effect
import Mathlib.Data.List.Lattice
import Mathlib.Data.List.Pairwise

/-!
# The tables of a graph fit together

`Consistent` ties the tables of vertices, edges and subgraphs and the three counters together:
each table is in ascending order of numbers below its counter, edges end at stored vertices, and
the members of subgraphs are distinct stored vertices that no two subgraphs share.  Every
elementary change keeps it, so it holds of every graph that calls lead to.
-/

set_option autoImplicit false

namespace DotDoc.Graph

/-- The tables are in order and refer only to what is stored. -/
structure Consistent (g : Graph) : Prop where
  vertices_ascending : g.vertices.Pairwise fun v w => v.id < w.id
  vertices_below : ∀ v ∈ g.vertices, v.id < g.nextVertex
  edges_ascending : g.edges.Pairwise fun e f => e.id < f.id
  edges_below : ∀ e ∈ g.edges, e.id < g.nextEdge
  ends_stored : ∀ e ∈ g.edges, g.HasVertex e.tail.vertex ∧ g.HasVertex e.head.vertex
  ends_named : ∀ e ∈ g.edges, e.tail.Named ∧ e.head.Named
  members_stored : ∀ s ∈ g.subgraphs, ∀ m ∈ s.members, ∃ v ∈ g.vertices, m = .int v.id
  members_distinct : ∀ s ∈ g.subgraphs, s.members.Nodup
  subgraphs_disjoint : g.subgraphs.Pairwise fun s t => s.members.Disjoint t.members
  subgraphs_ascending : g.subgraphs.Pairwise fun s t => s.number < t.number
  subgraphs_below : ∀ s ∈ g.subgraphs, s.number < g.nextSubgraph

namespace Consistent

variable {g : Graph}

theorem members_int (c : g.Consistent) {s : Subgraph} (stored : s ∈ g.subgraphs) :
    ∀ m ∈ s.members, ∃ n, m = .int n := by
  intro m member
  obtain ⟨v, _, same⟩ := c.members_stored s stored m member
  exact ⟨v.id, same⟩

theorem isWritable (c : g.Consistent) : g.isWritable = true :=
  List.all_eq_true.2 fun _ stored => Value.allHashable_of_ints (c.members_int stored)

theorem names_distinct (c : g.Consistent) : (g.subgraphs.map Subgraph.name).Nodup := by
  rw [List.Nodup, List.pairwise_map]
  refine c.subgraphs_ascending.imp fun {s t} ascending same => ?_
  have numbers := (Subgraph.name_inj same).2
  omega

theorem disjoint_of_ne (c : g.Consistent) {s t : Subgraph} (s_stored : s ∈ g.subgraphs)
    (t_stored : t ∈ g.subgraphs) (different : s ≠ t) : s.members.Disjoint t.members := by
  have symmetric : Std.Symm fun s t : Subgraph => s.members.Disjoint t.members :=
    ⟨fun _ _ apart => apart.symm⟩
  exact c.subgraphs_disjoint.forall s_stored t_stored different

theorem eq_of_name_eq (c : g.Consistent) {s t : Subgraph} (s_stored : s ∈ g.subgraphs)
    (t_stored : t ∈ g.subgraphs) (same : s.name = t.name) : s = t :=
  List.inj_on_of_nodup_map c.names_distinct s_stored t_stored same

theorem findSubgraph_eq_some_iff (c : g.Consistent) {id : Value} {s : Subgraph} :
    g.findSubgraph id = some s ↔ s ∈ g.subgraphs ∧ id = .str (String.ofList s.name) := by
  constructor
  · exact findSubgraph_eq_some
  · rintro ⟨stored, rfl⟩
    cases search : g.findSubgraph (.str (String.ofList s.name)) with
    | none =>
        have passed_over := List.find?_eq_none.1 search s stored
        simp at passed_over
    | some t =>
        obtain ⟨t_stored, same⟩ := findSubgraph_eq_some search
        have names : s.name = t.name := String.ofList_injective (Value.str.inj same)
        rw [c.eq_of_name_eq stored t_stored names]

end Consistent

theorem consistent_ofLayers (attrs vertexDefaults edgeDefaults : AttrList) :
    (ofLayers attrs vertexDefaults edgeDefaults).Consistent := by
  constructor <;> simp [ofLayers]

variable {g g' : Graph}

theorem HasVertex.of_subset {n : Nat} (held : g.HasVertex n)
    (subset : ∀ v ∈ g.vertices, ∃ w ∈ g'.vertices, w.id = v.id) : g'.HasVertex n := by
  obtain ⟨v, stored, rfl⟩ := held
  exact subset v stored

theorem pairwise_append_singleton {α : Type} {number : α → Nat} {items : List α} {a : α}
    (ascending : items.Pairwise fun b c => number b < number c)
    (below : ∀ b ∈ items, number b < number a) :
    (items ++ [a]).Pairwise fun b c => number b < number c := by
  refine List.pairwise_append.2 ⟨ascending, by simp, ?_⟩
  intro b earlier c last
  rw [List.mem_singleton.1 last]
  exact below b earlier

theorem consistent_insertVertex (c : g.Consistent) (label : Value) (attrs : Keywords) :
    (g.insertVertex label attrs).2.Consistent := by
  have kept : ∀ v ∈ g.vertices, v ∈ (g.insertVertex label attrs).2.vertices :=
    fun v stored => List.mem_append_left _ stored
  have held : ∀ n, g.HasVertex n → (g.insertVertex label attrs).2.HasVertex n :=
    fun n h => h.of_subset fun v stored => ⟨v, kept v stored, rfl⟩
  refine { c with
    vertices_ascending := pairwise_append_singleton c.vertices_ascending c.vertices_below
    vertices_below := ?_, ends_stored := ?_, members_stored := ?_ }
  · intro v member
    rcases List.mem_append.1 member with old | new
    · exact Nat.lt_succ_of_lt (c.vertices_below v old)
    · rw [List.mem_singleton.1 new]
      exact Nat.lt_succ_self _
  · intro e member
    obtain ⟨tail, head⟩ := c.ends_stored e member
    exact ⟨held _ tail, held _ head⟩
  · intro s stored m member
    obtain ⟨v, v_stored, same⟩ := c.members_stored s stored m member
    exact ⟨v, kept v v_stored, same⟩

theorem consistent_modifyVertex (c : g.Consistent) (id : Nat) {f : Vertex → Vertex}
    (number_kept : ∀ v, (f v).id = v.id) : (g.modifyVertex id f).Consistent := by
  have same_number : ∀ v : Vertex, (if v.id = id then f v else v).id = v.id := by
    intro v
    split
    · exact number_kept v
    · rfl
  have kept : ∀ v ∈ g.vertices, ∃ w ∈ (g.modifyVertex id f).vertices, w.id = v.id :=
    fun v stored => ⟨_, List.mem_map_of_mem stored, same_number v⟩
  refine { c with
    vertices_ascending := ?_, vertices_below := ?_, ends_stored := ?_, members_stored := ?_ }
  · rw [modifyVertex, List.pairwise_map]
    simpa only [same_number] using c.vertices_ascending
  · intro w member
    obtain ⟨v, stored, rfl⟩ := List.mem_map.1 member
    rw [same_number]
    exact c.vertices_below v stored
  · intro e member
    obtain ⟨tail, head⟩ := c.ends_stored e member
    exact ⟨tail.of_subset kept, head.of_subset kept⟩
  · intro s stored m member
    obtain ⟨v, v_stored, rfl⟩ := c.members_stored s stored m member
    obtain ⟨w, w_stored, same⟩ := kept v v_stored
    exact ⟨w, w_stored, by rw [same]⟩

@[simp] theorem withDefaultPort_vertex (port : Option Value) (e : Endpoint) :
    (e.withDefaultPort port).vertex = e.vertex := by
  unfold Endpoint.withDefaultPort
  split <;> rfl

@[simp] theorem withDefaultPort_id (port : Option Value) (e : Endpoint) :
    (e.withDefaultPort port).id = e.id := by
  unfold Endpoint.withDefaultPort
  split <;> rfl

theorem consistent_insertEdge (c : g.Consistent) {tail head : Endpoint} (attrs : Keywords)
    (tail_found : g.EndsAt tail) (head_found : g.EndsAt head) :
    (g.insertEdge tail head attrs).2.Consistent := by
  refine { c with
    edges_ascending := pairwise_append_singleton c.edges_ascending c.edges_below
    edges_below := ?_, ends_stored := ?_, ends_named := ?_ }
  · intro e member
    rcases List.mem_append.1 member with old | new
    · exact Nat.lt_succ_of_lt (c.edges_below e old)
    · rw [List.mem_singleton.1 new]
      exact Nat.lt_succ_self _
  · intro e member
    rcases List.mem_append.1 member with old | new
    · exact c.ends_stored e old
    · rw [List.mem_singleton.1 new]
      simp only [withDefaultPort_vertex]
      exact ⟨tail_found.stored, head_found.stored⟩
  · intro e member
    rcases List.mem_append.1 member with old | new
    · exact c.ends_named e old
    · rw [List.mem_singleton.1 new]
      simp only [Endpoint.Named, withDefaultPort_vertex, withDefaultPort_id]
      exact ⟨tail_found.named, head_found.named⟩

@[simp] theorem repoint_vertex (argument : Option Value) (e : Endpoint) :
    (Edge.repoint argument e).vertex = e.vertex := by
  unfold Edge.repoint
  split <;> rfl

@[simp] theorem repoint_id (argument : Option Value) (e : Endpoint) :
    (Edge.repoint argument e).id = e.id := by
  unfold Edge.repoint
  split <;> rfl

theorem consistent_updateEdge (c : g.Consistent) (id : Nat) (attrs : Keywords) :
    (g.modifyEdge id fun e => e.update attrs).Consistent := by
  have number_kept : ∀ e : Edge, (if e.id = id then e.update attrs else e).id = e.id := by
    intro e
    split <;> rfl
  have tail_kept : ∀ e : Edge, (if e.id = id then e.update attrs else e).tail.vertex
        = e.tail.vertex ∧
      (if e.id = id then e.update attrs else e).tail.id = e.tail.id := by
    intro e
    split
    · simp [Edge.update]
    · exact ⟨rfl, rfl⟩
  have head_kept : ∀ e : Edge, (if e.id = id then e.update attrs else e).head.vertex
        = e.head.vertex ∧
      (if e.id = id then e.update attrs else e).head.id = e.head.id := by
    intro e
    split
    · simp [Edge.update]
    · exact ⟨rfl, rfl⟩
  refine { c with
    edges_ascending := ?_, edges_below := ?_, ends_stored := ?_, ends_named := ?_ }
  · rw [modifyEdge, List.pairwise_map]
    simpa only [number_kept] using c.edges_ascending
  · intro f member
    obtain ⟨e, stored, rfl⟩ := List.mem_map.1 member
    rw [number_kept e]
    exact c.edges_below e stored
  · intro f member
    obtain ⟨e, stored, rfl⟩ := List.mem_map.1 member
    rw [(tail_kept e).1, (head_kept e).1]
    exact c.ends_stored e stored
  · intro f member
    obtain ⟨e, stored, rfl⟩ := List.mem_map.1 member
    rw [Endpoint.Named, Endpoint.Named, (tail_kept e).1, (tail_kept e).2, (head_kept e).1,
      (head_kept e).2]
    exact c.ends_named e stored

theorem consistent_filterEdges (c : g.Consistent) (keep : Edge → Bool) :
    ({ g with edges := g.edges.filter keep } : Graph).Consistent :=
  { c with
    edges_ascending := c.edges_ascending.filter keep
    edges_below := fun e member => c.edges_below e (List.mem_of_mem_filter member)
    ends_stored := fun e member => c.ends_stored e (List.mem_of_mem_filter member)
    ends_named := fun e member => c.ends_named e (List.mem_of_mem_filter member) }

theorem consistent_replaceSubgraph (c : g.Consistent) {s changed : Subgraph}
    (stored : s ∈ g.subgraphs) (number : changed.number = s.number)
    (sort : changed.isCluster = s.isCluster)
    (members_stored : ∀ m ∈ changed.members, ∃ v ∈ g.vertices, m = .int v.id)
    (distinct : changed.members.Nodup)
    (apart : ∀ t ∈ g.subgraphs, t ≠ s → changed.members.Disjoint t.members) :
    (g.replaceSubgraph changed).Consistent := by
  have name : changed.name = s.name := by rw [Subgraph.name, Subgraph.name, number, sort]
  have replaced : ∀ t ∈ g.subgraphs,
      (t = s ∧ (if t.name = changed.name then changed else t) = changed) ∨
      (t ≠ s ∧ (if t.name = changed.name then changed else t) = t) := by
    intro t t_stored
    by_cases here : t = s
    · exact .inl ⟨here, if_pos (by rw [here, name])⟩
    · exact .inr ⟨here, if_neg fun same =>
        here (c.eq_of_name_eq t_stored stored (same.trans name))⟩
  have number_kept : ∀ t ∈ g.subgraphs,
      (if t.name = changed.name then changed else t).number = t.number := by
    intro t t_stored
    rcases replaced t t_stored with ⟨rfl, result⟩ | ⟨_, result⟩
    · rw [result, number]
    · rw [result]
  refine { c with
    members_stored := ?_, members_distinct := ?_, subgraphs_disjoint := ?_,
    subgraphs_ascending := ?_, subgraphs_below := ?_ }
  · intro u member
    obtain ⟨t, t_stored, rfl⟩ := List.mem_map.1 member
    rcases replaced t t_stored with ⟨_, result⟩ | ⟨_, result⟩
    · rw [result]; exact members_stored
    · rw [result]; exact c.members_stored t t_stored
  · intro u member
    obtain ⟨t, t_stored, rfl⟩ := List.mem_map.1 member
    rcases replaced t t_stored with ⟨_, result⟩ | ⟨_, result⟩
    · rw [result]; exact distinct
    · rw [result]; exact c.members_distinct t t_stored
  · rw [replaceSubgraph, List.pairwise_map]
    refine (c.subgraphs_ascending.and c.subgraphs_disjoint).imp_of_mem ?_
    rintro t u t_stored u_stored ⟨ascending, disjoint⟩
    rcases replaced t t_stored with ⟨t_here, t_result⟩ | ⟨t_other, t_result⟩ <;>
      rcases replaced u u_stored with ⟨u_here, u_result⟩ | ⟨u_other, u_result⟩ <;>
      rw [t_result, u_result]
    · rw [t_here, u_here] at ascending
      exact absurd ascending (Int.lt_irrefl _)
    · exact apart u u_stored u_other
    · exact (apart t t_stored t_other).symm
    · exact disjoint
  · rw [replaceSubgraph, List.pairwise_map]
    refine c.subgraphs_ascending.imp_of_mem ?_
    intro t u t_stored u_stored ascending
    rw [number_kept t t_stored, number_kept u u_stored]
    exact ascending
  · intro u member
    obtain ⟨t, t_stored, rfl⟩ := List.mem_map.1 member
    rw [number_kept t t_stored]
    exact c.subgraphs_below t t_stored

theorem free_of_checked {owner : Option Text} {ids : List Value} {m : Value}
    (checked : g.checkMembers owner ids = .ok ()) (member : m ∈ ids.map Value.plain) :
    ∃ v ∈ g.vertices, m = .int v.id ∧
      ∀ s ∈ g.subgraphs, owner ≠ some s.name → m ∉ s.members := by
  obtain ⟨id, given, rfl⟩ := List.mem_map.1 member
  obtain ⟨⟨v, stored, named⟩, elsewhere⟩ := checkMembers_eq_ok checked id given
  rw [Value.plain_of_integer named]
  exact ⟨v, stored, rfl, fun s s_stored other =>
    Subgraph.not_mem_of_contains_eq_false named (elsewhere s s_stored other)⟩

theorem consistent_addMembers (c : g.Consistent) {s : Subgraph} (stored : s ∈ g.subgraphs)
    {ids : List Value} (free : g.checkMembers (some s.name) ids = .ok ()) :
    (g.replaceSubgraph (s.addMembers (ids.map Value.plain))).Consistent := by
  refine consistent_replaceSubgraph c stored (Subgraph.addMembers_number _)
    (Subgraph.addMembers_isCluster _) ?_ ?_ ?_
  · intro m member
    rcases Subgraph.mem_addMembers member with old | new
    · exact c.members_stored s stored m old
    · obtain ⟨v, v_stored, same, _⟩ := free_of_checked free new
      exact ⟨v, v_stored, same⟩
  · exact Subgraph.nodup_addMembers (ints_of_checked free) (c.members_distinct s stored)
  · intro t t_stored different m in_changed in_t
    rcases Subgraph.mem_addMembers in_changed with old | new
    · exact c.disjoint_of_ne stored t_stored (Ne.symm different) old in_t
    · obtain ⟨_, _, _, elsewhere⟩ := free_of_checked free new
      have other_name : some s.name ≠ some t.name := fun same =>
        different (c.eq_of_name_eq t_stored stored (Option.some.inj same).symm)
      exact elsewhere t t_stored other_name in_t

theorem consistent_shrinkSubgraph (c : g.Consistent) {s changed : Subgraph}
    (stored : s ∈ g.subgraphs) (number : changed.number = s.number)
    (sort : changed.isCluster = s.isCluster) (members : changed.members.Sublist s.members) :
    (g.replaceSubgraph changed).Consistent := by
  refine consistent_replaceSubgraph c stored number sort ?_ ?_ ?_
  · exact fun m member => c.members_stored s stored m (members.subset member)
  · exact (c.members_distinct s stored).sublist members
  · intro t t_stored different m in_changed
    exact c.disjoint_of_ne stored t_stored (Ne.symm different) (members.subset in_changed)

theorem consistent_insertSubgraph (c : g.Consistent) {isCluster : Bool} {ids : List Value}
    {properties : Keywords} {s : Subgraph} (free : g.checkMembers none ids = .ok ())
    (created : Subgraph.create g.nextSubgraph isCluster (ids.map Value.plain) properties = .ok s) :
    ({ g with nextSubgraph := g.nextSubgraph + 1, subgraphs := g.subgraphs ++ [s] } :
      Graph).Consistent := by
  obtain ⟨number, _, members⟩ := Subgraph.create_sameGroup created
  have number : s.number = g.nextSubgraph := by
    rw [number, Subgraph.addMembers_number]; rfl
  have member_given : ∀ m ∈ s.members, m ∈ ids.map Value.plain := by
    intro m member
    rw [members] at member
    rcases Subgraph.mem_addMembers member with old | given
    · cases old
    · exact given
  refine { c with
    members_stored := ?_, members_distinct := ?_, subgraphs_disjoint := ?_,
    subgraphs_ascending := ?_, subgraphs_below := ?_ }
  · intro t stored
    rcases List.mem_append.1 stored with old | new
    · exact c.members_stored t old
    · rw [List.mem_singleton.1 new]
      intro m member
      obtain ⟨v, v_stored, same, _⟩ := free_of_checked free (member_given m member)
      exact ⟨v, v_stored, same⟩
  · intro t stored
    rcases List.mem_append.1 stored with old | new
    · exact c.members_distinct t old
    · rw [List.mem_singleton.1 new, members]
      exact Subgraph.nodup_addMembers (ints_of_checked free) List.nodup_nil
  · refine List.pairwise_append.2 ⟨c.subgraphs_disjoint, List.pairwise_singleton _ _, ?_⟩
    intro t old u new m in_t in_new
    rw [List.mem_singleton.1 new] at in_new
    obtain ⟨_, _, _, elsewhere⟩ := free_of_checked free (member_given m in_new)
    exact elsewhere t old nofun in_t
  · refine List.pairwise_append.2 ⟨c.subgraphs_ascending, List.pairwise_singleton _ _, ?_⟩
    intro t old u new
    rw [List.mem_singleton.1 new, number]
    exact c.subgraphs_below t old
  · intro t stored
    rcases List.mem_append.1 stored with old | new
    · have := c.subgraphs_below t old
      push_cast
      omega
    · rw [List.mem_singleton.1 new, number]
      push_cast
      omega

theorem consistent_removeSubgraph (c : g.Consistent) (keep : Subgraph → Bool) :
    ({ g with subgraphs := g.subgraphs.filter keep } : Graph).Consistent :=
  { c with
    members_stored := fun s stored => c.members_stored s (List.mem_of_mem_filter stored)
    members_distinct := fun s stored => c.members_distinct s (List.mem_of_mem_filter stored)
    subgraphs_disjoint := c.subgraphs_disjoint.filter keep
    subgraphs_ascending := c.subgraphs_ascending.filter keep
    subgraphs_below := fun s stored => c.subgraphs_below s (List.mem_of_mem_filter stored) }

theorem consistent_removeVertex (c : g.Consistent) {id : Value} {n : Nat}
    (named : id.integer? = some (n : Int)) :
    ({ g with
      edges := g.edges.filter fun e => !e.touches n
      subgraphs := g.subgraphs.map (Subgraph.without [id])
      vertices := g.vertices.filter fun v => v.id ≠ n } : Graph).Consistent := by
  have fewer : ∀ s : Subgraph, (s.without [id]).members.Sublist s.members :=
    fun _ => List.filter_sublist
  refine { vertices_ascending := c.vertices_ascending.filter _
           edges_ascending := c.edges_ascending.filter _
           vertices_below := fun v stored => c.vertices_below v (List.mem_of_mem_filter stored)
           edges_below := fun e stored => c.edges_below e (List.mem_of_mem_filter stored)
           ends_named := fun e stored => c.ends_named e (List.mem_of_mem_filter stored)
           ends_stored := ?_, members_stored := ?_, members_distinct := ?_,
           subgraphs_disjoint := ?_, subgraphs_ascending := ?_, subgraphs_below := ?_ }
  · intro e member
    obtain ⟨stored, untouched⟩ := List.mem_filter.1 member
    have ends : e.tail.vertex ≠ n ∧ e.head.vertex ≠ n := by
      simpa [Edge.touches] using untouched
    obtain ⟨⟨v, v_stored, v_number⟩, ⟨w, w_stored, w_number⟩⟩ := c.ends_stored e stored
    refine ⟨⟨v, List.mem_filter.2 ⟨v_stored, ?_⟩, v_number⟩,
      ⟨w, List.mem_filter.2 ⟨w_stored, ?_⟩, w_number⟩⟩
    · rw [v_number]; exact decide_eq_true ends.1
    · rw [w_number]; exact decide_eq_true ends.2
  · intro t t_stored m member
    obtain ⟨s, stored, rfl⟩ := List.mem_map.1 t_stored
    obtain ⟨held, dropped⟩ := List.mem_filter.1 member
    obtain ⟨v, v_stored, rfl⟩ := c.members_stored s stored m held
    have other : ¬ (n : Int) = v.id := by
      simpa [Value.occursIn_singleton_int, Value.isInteger, named] using dropped
    refine ⟨v, List.mem_filter.2 ⟨v_stored, decide_eq_true ?_⟩, rfl⟩
    omega
  · intro t t_stored
    obtain ⟨s, stored, rfl⟩ := List.mem_map.1 t_stored
    exact (c.members_distinct s stored).sublist (fewer s)
  · rw [List.pairwise_map]
    refine c.subgraphs_disjoint.imp ?_
    intro s t disjoint m in_s in_t
    exact disjoint ((fewer s).subset in_s) ((fewer t).subset in_t)
  · rw [List.pairwise_map]
    exact c.subgraphs_ascending
  · intro t t_stored
    obtain ⟨s, stored, rfl⟩ := List.mem_map.1 t_stored
    exact c.subgraphs_below s stored

/-! ## Runs -/

theorem Change.consistent (change : Change g g') (c : g.Consistent) : g'.Consistent := by
  cases change with
  | storeAttribute key value => exact { c with }
  | storeVertexDefaults added => exact { c with }
  | storeEdgeDefaults added => exact { c with }
  | insertVertex label attrs given => exact consistent_insertVertex c label attrs
  | updateVertex v stored added => exact consistent_modifyVertex c v.id fun _ => rfl
  | insertEdge tail head attrs tail_found head_found =>
      exact consistent_insertEdge c attrs tail_found head_found
  | updateEdge e stored attrs => exact consistent_updateEdge c e.id attrs
  | removeEdge e stored => exact consistent_filterEdges c _
  | skipNumber =>
      refine { c with subgraphs_below := fun s stored => ?_ }
      have := c.subgraphs_below s stored
      push_cast
      omega
  | insertSubgraph isCluster ids properties s free created =>
      exact consistent_insertSubgraph c free created
  | addMembers s stored ids free => exact consistent_addMembers c stored free
  | removeMembers s stored members =>
      exact consistent_shrinkSubgraph c stored rfl rfl List.filter_sublist
  | setProperties s stored properties =>
      obtain ⟨number, sort, members⟩ := Subgraph.setProperties_sameGroup (s := s) properties
      exact consistent_shrinkSubgraph c stored number sort (by rw [members])
  | removeSubgraph s stored => exact consistent_removeSubgraph c _
  | removeVertex v stored id named => exact consistent_removeVertex c named

theorem Changes.consistent (changes : Changes g g') (c : g.Consistent) : g'.Consistent := by
  induction changes with
  | refl => exact c
  | tail _ change ih => exact change.consistent ih

theorem Consistent.perform (c : g.Consistent) (call : Call) : (g.perform call).graph.Consistent :=
  (perform_changes c.isWritable call).consistent c

theorem new_eq_ok {attrs vertexDefaults edgeDefaults : Value}
    (built : Graph.new attrs vertexDefaults edgeDefaults = .ok g) :
    ∃ a v e, layerOf attrs = .ok a ∧ layerOf vertexDefaults = .ok v ∧
      layerOf edgeDefaults = .ok e ∧ g = ofLayers a v e := by
  obtain ⟨a, a_built, rest⟩ := bind_eq_ok_iff.1 built
  obtain ⟨v, v_built, rest⟩ := bind_eq_ok_iff.1 rest
  obtain ⟨e, e_built, rest⟩ := bind_eq_ok_iff.1 rest
  exact ⟨a, v, e, a_built, v_built, e_built, (Except.ok.inj rest).symm⟩

theorem Reachable.consistent (reached : Reachable g) : g.Consistent := by
  induction reached with
  | new built =>
      obtain ⟨a, v, e, _, _, _, rfl⟩ := new_eq_ok built
      exact consistent_ofLayers a v e
  | perform call _ ih => exact ih.perform call

/-- Whatever calls are made, refused or not, the tables fit together and a name denotes one
subgraph. -/
theorem tables_fit_of_reachable (reached : Reachable g) :
    g.Consistent ∧ (g.subgraphs.map Subgraph.name).Nodup ∧
      ∀ id s, g.findSubgraph id = some s ↔
        s ∈ g.subgraphs ∧ id = .str (String.ofList s.name) :=
  ⟨reached.consistent, reached.consistent.names_distinct,
    fun _ _ => reached.consistent.findSubgraph_eq_some_iff⟩

/-- Calls of which the chain, the second group and the update are refused halfway. -/
def interruptedCalls : List Call :=
  [.addVertex (.str "a") .empty, .addVertex (.str "b") .empty, .addVertex (.str "c") .empty,
    .addCluster (.list [.int 1, .int 0, .int 1]) .empty,
    .chain (.list [.int 0, .int 1, .int 2, .int 7]) .empty,
    .addSubgraph (.list [.int 2]) ⟨[("edge", .int 3)], by decide⟩,
    .addSubgraph (.list [.int 2]) .empty,
    .updateSubgraph (.str "cluster0") ⟨[("color", .str "red"), ("node", .int 3)], by decide⟩,
    .removeVertex (.int 0)]

theorem tables_fit_after_interruptions :
    ∃ g, Reachable g ∧ g = (ofLayers .empty .empty .empty).run interruptedCalls ∧
      g.vertices.map Vertex.id = [1, 2] ∧ g.edges.map Edge.id = [1] ∧
      g.subgraphs.map Subgraph.number = [0, 2] ∧
      g.Consistent ∧ (g.subgraphs.map Subgraph.name).Nodup ∧
      ∀ id s, g.findSubgraph id = some s ↔
        s ∈ g.subgraphs ∧ id = .str (String.ofList s.name) := by
  have built : Graph.new .null .null .null = .ok (ofLayers .empty .empty .empty) := rfl
  have reached : Reachable ((ofLayers .empty .empty .empty).run interruptedCalls) :=
    Reachable.run (.new built) interruptedCalls
  exact ⟨_, reached, rfl, by decide, by decide, by decide, tables_fit_of_reachable reached⟩

end DotDoc.Graph
