import DotDoc.Proofs.Graph.Numbering
import DotDoc.Proofs.Graph.Removed

/-!
# Removing a vertex undoes what was attached to it

A vertex is added, and then calls only change this vertex, put edges at it, change these edges or
make it a member of a subgraph.  Removing it leads back to the graph before, but for the counters
of vertices and edges, which never go back.

`GrownFrom` says what every graph on the way has on top of the graph before: one vertex at the end,
edges at this vertex behind the old edges, and its memberships.  Each of the calls keeps this, and
removing the vertex from such a graph takes away exactly what it has on top.
-/

set_option autoImplicit false

namespace DotDoc

theorem Subgraph.without_addMembers {n : Nat} {members : List Value} {s : Subgraph}
    (only : ∀ m ∈ members, m = .int n) :
    (s.addMembers members).without [.int n] = s.without [.int n] := by
  induction members generalizing s with
  | nil => rfl
  | cons m rest ih =>
      have first : (s.addMember m).without [.int n] = s.without [.int n] := by
        rw [only m List.mem_cons_self]
        unfold addMember
        split
        · rfl
        · simp [without, List.filter_append, Value.occursIn]
      rw [addMembers_cons, ih fun k member => only k (List.mem_cons_of_mem _ member), first]

namespace Graph

variable {g full : Graph}

/-- Every edge that a call adds starts or ends at a vertex. -/
def NewEdgesTouch (n : Nat) (call : Call) (g : Graph) : Prop :=
  ∀ e ∈ (g.perform call).graph.edges, g.nextEdge ≤ e.id → e.touches n = true

instance (n : Nat) (call : Call) (g : Graph) : Decidable (g.NewEdgesTouch n call) :=
  inferInstanceAs (Decidable (∀ e ∈ (g.perform call).graph.edges, _ → _))

/-- A call that changes a vertex, adds edges at it, changes an edge that is not older than a number,
or makes the vertex a member of a subgraph. -/
inductive Attaches (n firstEdge : Nat) (g : Graph) : Call → Prop
  | updateVertex (id : Value) (attrs : Keywords) (named : id.integer? = some (n : Int)) :
      Attaches n firstEdge g (.updateVertex id attrs)
  | addEdge (tail head : Value) (attrs : Keywords)
      (touching : g.NewEdgesTouch n (.addEdge tail head attrs)) :
      Attaches n firstEdge g (.addEdge tail head attrs)
  | fanOut (tail heads : Value) (attrs : Keywords)
      (touching : g.NewEdgesTouch n (.fanOut tail heads attrs)) :
      Attaches n firstEdge g (.fanOut tail heads attrs)
  | updateEdge (id : Value) (k : Nat) (attrs : Keywords) (named : id.integer? = some (k : Int))
      (recent : firstEdge ≤ k) : Attaches n firstEdge g (.updateEdge id attrs)
  | addToSubgraph (id ids : Value) (items : List Value) (listed : ids.elements = .ok items)
      (only : ∀ item ∈ items, item.integer? = some (n : Int)) :
      Attaches n firstEdge g (.addToSubgraph id ids)

/-- Calls that attach something to a vertex one after the other, none of them refused. -/
def AttachesAll (n firstEdge : Nat) : Graph → List Call → Prop
  | _, [] => True
  | g, call :: calls =>
      Attaches n firstEdge g call ∧ (g.perform call).result.isOk = true ∧
        AttachesAll n firstEdge (g.perform call).graph calls

/-- A graph with one more vertex than another, with edges at this vertex and with memberships of
it. -/
structure GrownFrom (g full : Graph) : Prop where
  attrs : full.attrs = g.attrs
  vertexDefaults : full.vertexDefaults = g.vertexDefaults
  edgeDefaults : full.edgeDefaults = g.edgeDefaults
  vertices : ∃ w : Vertex, w.id = g.nextVertex ∧ full.vertices = g.vertices ++ [w]
  edges : ∃ added : List Edge, full.edges = g.edges ++ added ∧
    ∀ e ∈ added, g.nextEdge ≤ e.id ∧ e.touches g.nextVertex = true
  subgraphs : full.subgraphs.map (Subgraph.without [.int g.nextVertex]) = g.subgraphs
  nextVertex : full.nextVertex = g.nextVertex + 1
  nextEdge_le : g.nextEdge ≤ full.nextEdge
  nextSubgraph : full.nextSubgraph = g.nextSubgraph

theorem Consistent.withoutVertex_of_absent (c : g.Consistent) {n : Nat} (absent : ¬g.HasVertex n) :
    g.withoutVertex n = g := by
  have vertices : (g.vertices.filter fun v => v.id ≠ n) = g.vertices := by
    refine List.filter_eq_self.2 fun v stored => decide_eq_true ?_
    exact fun same => absent ⟨v, stored, same⟩
  have edges : (g.edges.filter fun e => !e.touches n) = g.edges := by
    refine List.filter_eq_self.2 fun e stored => ?_
    obtain ⟨tail, head⟩ := c.ends_stored e stored
    have other_tail : e.tail.vertex ≠ n := fun same => absent (same ▸ tail)
    have other_head : e.head.vertex ≠ n := fun same => absent (same ▸ head)
    simp [Edge.touches, other_tail, other_head]
  have subgraphs : g.subgraphs.map (Subgraph.without [.int n]) = g.subgraphs := by
    refine (List.map_congr_left fun s stored => ?_).trans (List.map_id _)
    have members : (s.members.filter fun m => !m.occursIn [.int n]) = s.members := by
      refine List.filter_eq_self.2 fun m member => ?_
      obtain ⟨v, v_stored, rfl⟩ := c.members_stored s stored m member
      have other : v.id ≠ n := fun same => absent ⟨v, v_stored, same⟩
      simp [Value.occursIn_singleton_int, Value.isInteger, Value.integer?]
      omega
    rw [Subgraph.without, members]
    rfl
  rw [Graph.withoutVertex, vertices, edges, subgraphs]

theorem Consistent.not_hasVertex_next (c : g.Consistent) : ¬g.HasVertex g.nextVertex := by
  rintro ⟨v, stored, same⟩
  exact absurd (c.vertices_below v stored) (by omega)

theorem grownFrom_insertVertex (c : g.Consistent) (label : Value) (attrs : Keywords) :
    GrownFrom g (g.insertVertex label attrs).2 where
  attrs := rfl
  vertexDefaults := rfl
  edgeDefaults := rfl
  vertices := ⟨_, rfl, rfl⟩
  edges := ⟨[], (List.append_nil _).symm, nofun⟩
  subgraphs := congrArg Graph.subgraphs (c.withoutVertex_of_absent c.not_hasVertex_next)
  nextVertex := rfl
  nextEdge_le := Nat.le_refl _
  nextSubgraph := rfl

/-- Without the vertex, only the counters tell the graph from the one before. -/
theorem GrownFrom.withoutVertex (grown : GrownFrom g full) (c : g.Consistent) :
    full.withoutVertex g.nextVertex
      = { g with nextVertex := g.nextVertex + 1, nextEdge := full.nextEdge } := by
  have absent := c.withoutVertex_of_absent c.not_hasVertex_next
  have vertices : (full.vertices.filter fun v => v.id ≠ g.nextVertex) = g.vertices := by
    obtain ⟨w, number, vertices⟩ := grown.vertices
    have old : (g.vertices.filter fun v => v.id ≠ g.nextVertex) = g.vertices :=
      congrArg Graph.vertices absent
    rw [vertices, List.filter_append, old]
    simp [number]
  have edges : (full.edges.filter fun e => !e.touches g.nextVertex) = g.edges := by
    obtain ⟨added, edges, touching⟩ := grown.edges
    have old : (g.edges.filter fun e => !e.touches g.nextVertex) = g.edges :=
      congrArg Graph.edges absent
    have none_new : (added.filter fun e => !e.touches g.nextVertex) = [] := by
      refine List.filter_eq_nil_iff.2 fun e member => ?_
      simp [(touching e member).2]
    rw [edges, List.filter_append, old, none_new, List.append_nil]
  rw [Graph.withoutVertex, vertices, edges, grown.subgraphs, grown.attrs, grown.vertexDefaults,
    grown.edgeDefaults, grown.nextVertex, grown.nextSubgraph]

theorem Connects.layers {numbers : List Nat} {g' : Graph} (connected : Connects g numbers g') :
    g'.attrs = g.attrs ∧ g'.vertexDefaults = g.vertexDefaults ∧
      g'.edgeDefaults = g.edgeDefaults := by
  induction connected with
  | none g => exact ⟨rfl, rfl, rfl⟩
  | insert tail head attrs _ _ _ ih => exact ih

theorem Connects.added_edges {numbers : List Nat} {g' : Graph} (connected : Connects g numbers g') :
    ∃ added, g'.edges = g.edges ++ added ∧ (∀ e ∈ added, g.nextEdge ≤ e.id) ∧
      g.nextEdge ≤ g'.nextEdge := by
  obtain ⟨added, edges, ids, range, counter⟩ := connected.edges
  refine ⟨added, edges, ?_, by omega⟩
  intro e member
  have listed : e.id ∈ List.range' g.nextEdge numbers.length := by
    rw [← range, ← ids]
    exact List.mem_map_of_mem member
  exact (List.mem_range'_1.1 listed).1

theorem map_modify_of_absent {α : Type} {number : α → Nat} {items : List α} {k : Nat} {f : α → α}
    (absent : ∀ a ∈ items, number a ≠ k) :
    (items.map fun a => if number a = k then f a else a) = items :=
  (List.map_congr_left fun a member => if_neg (absent a member)).trans (List.map_id _)

namespace GrownFrom

theorem updateVertex (grown : GrownFrom g full) (c : g.Consistent) {f : Vertex → Vertex}
    (number_kept : ∀ v, (f v).id = v.id) : GrownFrom g (full.modifyVertex g.nextVertex f) := by
  obtain ⟨w, number, vertices⟩ := grown.vertices
  refine { grown with vertices := ⟨f w, (number_kept w).trans number, ?_⟩ }
  have old : (g.vertices.map fun v => if v.id = g.nextVertex then f v else v) = g.vertices :=
    map_modify_of_absent fun v stored => Nat.ne_of_lt (c.vertices_below v stored)
  rw [modifyVertex, vertices, List.map_append, old]
  simp [number]

theorem updateEdge (grown : GrownFrom g full) (c : g.Consistent) {k : Nat}
    (recent : g.nextEdge ≤ k) (attrs : Keywords) :
    GrownFrom g (full.modifyEdge k fun e => e.update attrs) := by
  obtain ⟨added, edges, touching⟩ := grown.edges
  have old : (g.edges.map fun e => if e.id = k then e.update attrs else e) = g.edges :=
    map_modify_of_absent fun e stored =>
      Nat.ne_of_lt (Nat.lt_of_lt_of_le (c.edges_below e stored) recent)
  refine { grown with
    edges := ⟨added.map fun e => if e.id = k then e.update attrs else e, ?_, ?_⟩ }
  · rw [modifyEdge, edges, List.map_append, old]
  · intro changed member
    obtain ⟨e, held, rfl⟩ := List.mem_map.1 member
    have same : (if e.id = k then e.update attrs else e).id = e.id ∧
        (if e.id = k then e.update attrs else e).touches g.nextVertex = e.touches g.nextVertex := by
      split
      · simp [Edge.update, Edge.touches]
      · exact ⟨rfl, rfl⟩
    rw [same.1, same.2]
    exact touching e held

theorem connects {numbers : List Nat} {wider : Graph} (grown : GrownFrom g full)
    (connected : Connects full numbers wider)
    (touching : ∀ e ∈ wider.edges, full.nextEdge ≤ e.id → e.touches g.nextVertex = true) :
    GrownFrom g wider := by
  obtain ⟨held, edges, held_touching⟩ := grown.edges
  obtain ⟨added, wider_edges, from_counter, counter⟩ := connected.added_edges
  obtain ⟨vertices, nextVertex, subgraphs, nextSubgraph⟩ := connected.elsewhere
  obtain ⟨attrs, vertexDefaults, edgeDefaults⟩ := connected.layers
  have counters := grown.nextEdge_le
  exact {
    attrs := attrs.trans grown.attrs
    vertexDefaults := vertexDefaults.trans grown.vertexDefaults
    edgeDefaults := edgeDefaults.trans grown.edgeDefaults
    vertices := by rw [vertices]; exact grown.vertices
    edges := by
      refine ⟨held ++ added, by rw [wider_edges, edges, List.append_assoc], ?_⟩
      intro e member
      rcases List.mem_append.1 member with earlier | new
      · exact held_touching e earlier
      · have above := from_counter e new
        have stored : e ∈ wider.edges := wider_edges ▸ List.mem_append_right _ new
        exact ⟨Nat.le_trans counters above, touching e stored above⟩
    subgraphs := by rw [subgraphs]; exact grown.subgraphs
    nextVertex := nextVertex.trans grown.nextVertex
    nextEdge_le := Nat.le_trans counters counter
    nextSubgraph := nextSubgraph.trans grown.nextSubgraph }

theorem addMembers (grown : GrownFrom g full) (full_c : full.Consistent) {s : Subgraph}
    (stored : s ∈ full.subgraphs) {members : List Value}
    (only : ∀ m ∈ members, m = .int g.nextVertex) :
    GrownFrom g (full.replaceSubgraph (s.addMembers members)) := by
  refine { grown with subgraphs := ?_ }
  rw [replaceSubgraph, List.map_map, ← grown.subgraphs]
  refine List.map_congr_left fun t t_stored => ?_
  have name : (s.addMembers members).name = s.name := by simp [Subgraph.name]
  by_cases here : t.name = s.name
  · have same : t = s := full_c.eq_of_name_eq t_stored stored here
    simp [name, same, Subgraph.without_addMembers only]
  · simp [name, here]

end GrownFrom

/-! ## A run keeps it -/

section Answers

variable {g' : Graph}

theorem perform_addVertex_eq {label : Value} {attrs : Keywords} {n : Nat}
    (new : g.perform (.addVertex label attrs) = ⟨.ok (.element n), g'⟩) :
    n = g.nextVertex ∧ g' = (g.insertVertex label attrs).2 := by
  have answered : (g.perform (.addVertex label attrs)).result = .ok (.element n) := by rw [new]
  obtain ⟨number, same, added⟩ := eq_ok_of_perform rfl answered
  cases same
  rw [new] at added
  have whole := addVertex_whole label attrs g
  rw [added] at whole
  obtain ⟨_, inserted⟩ := whole.of_ok rfl
  exact Prod.mk.inj inserted

theorem updateVertex_eq_ok {id : Value} {n : Nat} {attrs : Keywords}
    (named : id.integer? = some (n : Int)) (updated : g.updateVertex id attrs = (.ok (), g')) :
    g' = g.modifyVertex n fun v => { v with attrs := v.attrs.putAll attrs.entries } := by
  obtain ⟨_, _, rest⟩ := Action.check_eq_ok g updated
  obtain ⟨v, found, answer⟩ := Action.ask_eq_ok g rest
  have number : v.id = n := number_of_named (vertex_eq_ok found).2 named
  rw [← number]
  exact (Prod.mk.inj answer).2.symm

theorem updateEdge_eq_ok {id : Value} {k : Nat} {attrs : Keywords}
    (named : id.integer? = some (k : Int)) (updated : g.updateEdge id attrs = (.ok (), g')) :
    g' = g.modifyEdge k fun e => e.update attrs := by
  obtain ⟨_, _, rest⟩ := Action.check_eq_ok g updated
  obtain ⟨e, found, answer⟩ := Action.ask_eq_ok g rest
  have number : e.id = k := number_of_named (edge_eq_ok found).2 named
  rw [← number, ← modifyEdge_update]
  exact (Prod.mk.inj answer).2.symm

theorem addToSubgraph_eq_ok {id ids : Value} (added : g.addToSubgraph id ids = (.ok (), g')) :
    ∃ s ∈ g.subgraphs, ∃ items, ids.elements = .ok items ∧
      g' = g.replaceSubgraph (s.addMembers (items.map Value.plain)) := by
  obtain ⟨s, found, rest⟩ := Action.ask_eq_ok g added
  obtain ⟨items, listed, rest⟩ := Action.check_eq_ok g rest
  obtain ⟨_, _, answer⟩ := Action.ask_eq_ok g rest
  exact ⟨s, (subgraph_eq_ok found).1, items, listed, (Prod.mk.inj answer).2.symm⟩

end Answers

/-- One call keeps what the graph has on top. -/
theorem GrownFrom.perform (grown : GrownFrom g full) (c : g.Consistent) (full_c : full.Consistent)
    {call : Call} (attaches : Attaches g.nextVertex g.nextEdge full call) {reply : Reply}
    (succeeded : (full.perform call).result = .ok reply) :
    GrownFrom g (full.perform call).graph := by
  cases attaches with
  | updateVertex id attrs named =>
      obtain ⟨_, _, updated⟩ := eq_ok_of_perform rfl succeeded
      rw [updateVertex_eq_ok named updated]
      exact grown.updateVertex c fun _ => rfl
  | addEdge tail head attrs touching =>
      obtain ⟨number, _, added⟩ := eq_ok_of_perform rfl succeeded
      have connected := addEdge_connects tail head attrs full
      rw [added] at connected
      exact grown.connects (connected.of_ok rfl) touching
  | fanOut tail heads attrs touching =>
      obtain ⟨numbers, _, added⟩ := eq_ok_of_perform rfl succeeded
      have connected := fanOut_whole tail heads attrs full
      rw [added] at connected
      obtain ⟨_, _, _, connected⟩ := connected.of_ok rfl
      exact grown.connects connected touching
  | updateEdge id k attrs named recent =>
      obtain ⟨_, _, updated⟩ := eq_ok_of_perform rfl succeeded
      rw [updateEdge_eq_ok named updated]
      exact grown.updateEdge c recent attrs
  | addToSubgraph id ids items listed only =>
      obtain ⟨_, _, added⟩ := eq_ok_of_perform rfl succeeded
      obtain ⟨s, stored, given, given_listed, after⟩ := addToSubgraph_eq_ok added
      obtain rfl : given = items := Except.ok.inj (given_listed.symm.trans listed)
      rw [after]
      refine grown.addMembers full_c stored fun m member => ?_
      obtain ⟨item, held, rfl⟩ := List.mem_map.1 member
      exact Value.plain_of_integer (only item held)

theorem GrownFrom.run (grown : GrownFrom g full) (c : g.Consistent) (full_c : full.Consistent)
    {calls : List Call} (attached : AttachesAll g.nextVertex g.nextEdge full calls) :
    GrownFrom g (full.run calls) ∧ (full.run calls).Consistent := by
  induction calls generalizing full with
  | nil => exact ⟨grown, full_c⟩
  | cons call rest ih =>
      obtain ⟨attaches, succeeded, later⟩ := attached
      cases answer : (full.perform call).result with
      | error e =>
          rw [answer] at succeeded
          cases succeeded
      | ok reply => exact ih (grown.perform c full_c attaches answer) (full_c.perform call) later

/-- A vertex is added and things are attached to it.  Removing the vertex then gives the graph
before, with its document, and with counters that stay where they are. -/
theorem removeVertex_undoes (reached : Reachable g) {label : Value} {attrs : Keywords} {n : Nat}
    {added : Graph} (new : g.perform (.addVertex label attrs) = ⟨.ok (.element n), added⟩)
    {calls : List Call} (attached : AttachesAll n g.nextEdge added calls) {id : Value}
    (named : id.integer? = some (n : Int)) :
    ∃ after : Graph, (added.run calls).perform (.removeVertex id) = ⟨.ok .done, after⟩ ∧
      after = { g with
        nextVertex := g.nextVertex + 1
        nextEdge := (added.run calls).nextEdge } ∧
      g.document? = .ok g.document ∧ after.document? = .ok g.document := by
  have c := reached.consistent
  obtain ⟨rfl, rfl⟩ := perform_addVertex_eq new
  obtain ⟨grown, full_c⟩ := (grownFrom_insertVertex c label attrs).run c
    (consistent_insertVertex c label attrs) attached
  obtain ⟨w, w_number, vertices⟩ := grown.vertices
  have stored : w ∈ ((g.insertVertex label attrs).2.run calls).vertices := by
    rw [vertices]
    exact List.mem_append_right _ (List.mem_singleton_self w)
  have performed := full_c.perform_removeVertex stored (w_number ▸ named)
  rw [w_number, grown.withoutVertex c] at performed
  have written : g.document? = .ok g.document := if_pos c.isWritable
  exact ⟨_, performed, rfl, written, written⟩

def pairedGraph : Graph :=
  (ofLayers .empty .empty .empty).run
    [.addVertex (.str "a") .empty, .addVertex (.str "b") .empty,
      .addEdge (.int 0) (.int 1) .empty, .addSubgraph (.list [.int 1]) .empty]

def tripleGraph : Graph :=
  (pairedGraph.perform (.addVertex (.str "c") .empty)).graph

/-- A loop, edges in both directions, two at once, a change of one of them and a membership. -/
def attachingCalls : List Call :=
  [.addEdge (.int 2) (.int 2) .empty, .updateVertex (.int 2) ⟨[("color", .str "tan")], by decide⟩,
    .fanOut (.int 2) (.list [.int 0, .tuple [.int 1, .str "p"]]) .empty,
    .addToSubgraph (.str "subgraph0") (.list [.int 2]), .addEdge (.int 0) (.int 2) .empty,
    .updateEdge (.int 3) ⟨[("inport", .str "q")], by decide⟩]

theorem removeVertex_undoes_attachingCalls :
    Reachable pairedGraph ∧
    pairedGraph.perform (.addVertex (.str "c") .empty) = ⟨.ok (.element 2), tripleGraph⟩ ∧
    AttachesAll 2 pairedGraph.nextEdge tripleGraph attachingCalls ∧
    ∃ after : Graph,
      (tripleGraph.run attachingCalls).perform (.removeVertex (.int 2)) = ⟨.ok .done, after⟩ ∧
      after = { pairedGraph with
        nextVertex := pairedGraph.nextVertex + 1
        nextEdge := (tripleGraph.run attachingCalls).nextEdge } ∧
      pairedGraph.document? = .ok pairedGraph.document ∧
      after.document? = .ok pairedGraph.document := by
  have reached : Reachable pairedGraph := reachable_run_empty _
  have new : pairedGraph.perform (.addVertex (.str "c") .empty) = ⟨.ok (.element 2), tripleGraph⟩ :=
    rfl
  have attached : AttachesAll 2 pairedGraph.nextEdge tripleGraph attachingCalls :=
    ⟨.addEdge _ _ _ (by decide +kernel), by decide +kernel, .updateVertex _ _ rfl, by decide +kernel,
      .fanOut _ _ _ (by decide +kernel), by decide +kernel,
      .addToSubgraph _ _ [.int 2] rfl (by simp [Value.integer?]), by decide +kernel,
      .addEdge _ _ _ (by decide +kernel), by decide +kernel,
      .updateEdge _ 3 _ rfl (by decide +kernel), by decide +kernel, trivial⟩
  exact ⟨reached, new, attached, removeVertex_undoes reached new attached rfl⟩

end Graph
end DotDoc
