import DotDoc.Proofs.Graph.Lockstep

/-!
# Calls on edges and calls on groups

A `Part` of a graph is something beside its vertices that can be taken out and put in: the edges
with their counter, or the subgraphs with theirs.  A part governs a call when the call depends on
the vertices and the part alone and changes the part alone.  The edges govern the calls on edges,
refused or not, and the subgraphs govern the calls on groups, also where such a call is broken off
halfway.

Parts that are set apart from each other are changed in either order, so a call on edges and one
on groups can change places: each gets the answer that it would get without the other, and the
graph afterwards is the same.  From this neighbours in a run change places until all calls on
edges stand in front, which makes the end of a run independent of how the two sorts alternate.
-/

set_option autoImplicit false

namespace DotDoc

namespace Call

def onEdges : Call → Bool
  | addEdge _ _ _ => true
  | chain _ _ => true
  | fanOut _ _ _ => true
  | updateEdge _ _ => true
  | removeEdge _ => true
  | _ => false

def onGroups : Call → Bool
  | addSubgraph _ _ => true
  | addCluster _ _ => true
  | addToSubgraph _ _ => true
  | removeFromSubgraph _ _ => true
  | updateSubgraph _ _ => true
  | removeSubgraph _ => true
  | _ => false

end Call

namespace Graph

/-- A part of a graph beside its vertices. -/
structure Part (α : Type) where
  get : Graph → α
  set : α → Graph → Graph
  get_set : ∀ a g, get (set a g) = a
  set_get : ∀ g, set (get g) g = g
  set_set : ∀ a b g, set a (set b g) = set a g
  vertices_set : ∀ a g, (set a g).vertices = g.vertices

def edgePart : Part (List Edge × Nat) where
  get g := (g.edges, g.nextEdge)
  set a g := { g with edges := a.1, nextEdge := a.2 }
  get_set _ _ := rfl
  set_get _ := rfl
  set_set _ _ _ := rfl
  vertices_set _ _ := rfl

def groupPart : Part (List Subgraph × Nat) where
  get g := (g.subgraphs, g.nextSubgraph)
  set a g := { g with subgraphs := a.1, nextSubgraph := a.2 }
  get_set _ _ := rfl
  set_get _ := rfl
  set_set _ _ _ := rfl
  vertices_set _ _ := rfl

namespace Part

section

variable {α : Type}

structure Shared (P : Part α) (g h : Graph) : Prop where
  vertices : g.vertices = h.vertices
  part : P.get g = P.get h

/-- Both graphs with one and the same new part. -/
def Moved (P : Part α) (g h g' h' : Graph) : Prop :=
  ∃ a, g' = P.set a g ∧ h' = P.set a h

variable {P : Part α} {g h g' h' g'' h'' : Graph}

theorem Shared.moved (shared : P.Shared g h) : P.Moved g h g h :=
  ⟨P.get g, (P.set_get g).symm, by rw [shared.part, P.set_get]⟩

theorem Moved.of_parts (here : g' = P.set (P.get g') g) (there : h' = P.set (P.get h') h)
    (same : P.get g' = P.get h') : P.Moved g h g' h' :=
  ⟨P.get g', here, by rw [same, ← there]⟩

theorem Moved.shared (moved : P.Moved g h g' h') (shared : P.Shared g h) : P.Shared g' h' := by
  obtain ⟨a, rfl, rfl⟩ := moved
  constructor
  · rw [P.vertices_set, P.vertices_set, shared.vertices]
  · rw [P.get_set, P.get_set]

theorem Moved.trans (first : P.Moved g h g' h') (second : P.Moved g' h' g'' h'') :
    P.Moved g h g'' h'' := by
  obtain ⟨a, rfl, rfl⟩ := first
  obtain ⟨b, rfl, rfl⟩ := second
  exact ⟨b, P.set_set b a g, P.set_set b a h⟩

/-- The same answer, and the same new part. -/
def MovedAnswer (P : Part α) (g h : Graph) {β : Type} (a b : β × Graph) : Prop :=
  a.1 = b.1 ∧ P.Moved g h a.2 b.2

/-- A call that depends on the vertices and the part, and changes the part alone. -/
def Governs (P : Part α) (call : Call) : Prop :=
  ∀ g h, P.Shared g h →
    (g.perform call).result = (h.perform call).result ∧
      P.Moved g h (g.perform call).graph (h.perform call).graph

namespace MovedAnswer

variable {β γ : Type} {next : β → Action γ}

theorem refl (shared : P.Shared g h) (answer : β) : P.MovedAnswer g h (answer, g) (answer, h) :=
  ⟨rfl, shared.moved⟩

theorem ask {question : Graph → Except Error β} (shared : P.Shared g h)
    (same : question g = question h)
    (goes_on : ∀ b, P.MovedAnswer g h (next b g) (next b h)) :
    P.MovedAnswer g h ((Action.ask question >>= next) g) ((Action.ask question >>= next) h) := by
  rw [Action.ask_bind, Action.ask_bind, same]
  cases question h with
  | error e => exact .refl shared _
  | ok b => exact goes_on b

theorem check (test : Except Error β) (shared : P.Shared g h)
    (goes_on : ∀ b, P.MovedAnswer g h (next b g) (next b h)) :
    P.MovedAnswer g h ((liftM test >>= next : Action γ) g) ((liftM test >>= next : Action γ) h) := by
  rw [Action.check_bind, Action.check_bind]
  cases test with
  | error e => exact .refl shared _
  | ok b => exact goes_on b

theorem bind {first : Action β} (shared : P.Shared g h)
    (moved : P.MovedAnswer g h (first g) (first h))
    (goes_on : ∀ b g' h', P.Shared g' h' → P.MovedAnswer g' h' (next b g') (next b h')) :
    P.MovedAnswer g h ((first >>= next) g) ((first >>= next) h) := by
  rw [Action.bind_apply, Action.bind_apply]
  generalize first g = here at moved ⊢
  generalize first h = there at moved ⊢
  obtain ⟨result, g'⟩ := here
  obtain ⟨_, h'⟩ := there
  obtain ⟨rfl, moved⟩ := moved
  cases result with
  | error e => exact ⟨rfl, moved⟩
  | ok b =>
      obtain ⟨answers, later⟩ := goes_on b g' h' (moved.shared shared)
      exact ⟨answers, moved.trans later⟩

end MovedAnswer

theorem governs_of_action {β : Type} {reply : β → Reply} {action : Action β} {call : Call}
    (ends : call.action = reply <$> action)
    (moves : ∀ g h, P.Shared g h → P.MovedAnswer g h (action g) (action h)) :
    P.Governs call := by
  intro g h shared
  obtain ⟨results, moved⟩ := moves g h shared
  rw [perform_map ends, perform_map ends]
  exact ⟨congrArg (Except.map reply) results, moved⟩

end

end Part

section Edges

open DotDoc.Graph.Part

variable {g h : Graph}

theorem edge_congr (same : edgePart.Shared g h) (id : Value) : g.edge id = h.edge id := by
  have edges : g.edges = h.edges := congrArg Prod.fst same.part
  simp only [edge, findEdge, edges]

theorem insertEdge_moved (same : edgePart.Shared g h) (tail head : Endpoint) (attrs : Keywords) :
    edgePart.MovedAnswer g h (g.insertEdge tail head attrs) (h.insertEdge tail head attrs) := by
  obtain ⟨edges, counter⟩ := Prod.mk.inj same.part
  refine ⟨counter, .of_parts rfl rfl ?_⟩
  simp only [insertEdge_apply, edgePart, edges, counter]

theorem addEdge_moved (same : edgePart.Shared g h) (tail head : Value) (attrs : Keywords) :
    edgePart.MovedAnswer g h (g.addEdge tail head attrs) (h.addEdge tail head attrs) := by
  have found (v : Value) : g.endpoint v = h.endpoint v := endpoint_congr same.vertices v
  refine .check _ same fun _ => .ask same (found tail) fun t => .ask same (found head) fun u => ?_
  obtain ⟨numbers, moved⟩ := insertEdge_moved same t u attrs
  exact ⟨congrArg Except.ok numbers, moved⟩

theorem addEdges_moved (same : edgePart.Shared g h) (attrs : Keywords)
    (pairs : List (Value × Value)) :
    edgePart.MovedAnswer g h (g.addEdges attrs pairs) (h.addEdges attrs pairs) := by
  induction pairs generalizing g h with
  | nil => exact .refl same _
  | cons pair rest ih =>
      obtain ⟨tail, head⟩ := pair
      exact .bind same (addEdge_moved same tail head attrs) fun id g' h' grown =>
        .bind grown (ih grown) fun ids _ _ final => .refl final _

theorem chain_moved (same : edgePart.Shared g h) (endpoints : Value) (attrs : Keywords) :
    edgePart.MovedAnswer g h (g.chain endpoints attrs) (h.chain endpoints attrs) :=
  .check _ same fun _ => .check _ same fun _ => addEdges_moved same attrs _

theorem fanOut_moved (same : edgePart.Shared g h) (tail heads : Value) (attrs : Keywords) :
    edgePart.MovedAnswer g h (g.fanOut tail heads attrs) (h.fanOut tail heads attrs) :=
  .check _ same fun _ => .check _ same fun _ =>
    .ask same (endpoints_congr same.vertices _) fun _ => addEdges_moved same attrs _

theorem updateEdge_moved (same : edgePart.Shared g h) (id : Value) (attrs : Keywords) :
    edgePart.MovedAnswer g h (g.updateEdge id attrs) (h.updateEdge id attrs) := by
  obtain ⟨edges, counter⟩ := Prod.mk.inj same.part
  refine .check _ same fun _ => .ask same (edge_congr same id) fun found =>
    ⟨rfl, .of_parts rfl rfl ?_⟩
  simp only [Action.modify_bind, Action.modify_apply, modifyEdge, edgePart, edges, counter]

theorem removeEdge_moved (same : edgePart.Shared g h) (id : Value) :
    edgePart.MovedAnswer g h (g.removeEdge id) (h.removeEdge id) := by
  obtain ⟨edges, counter⟩ := Prod.mk.inj same.part
  refine .ask same (edge_congr same id) fun found => ⟨rfl, .of_parts rfl rfl ?_⟩
  simp only [Action.modify_apply, edgePart, edges, counter]

theorem edgePart_governs {call : Call} (on_edges : call.onEdges = true) :
    edgePart.Governs call := by
  cases call with
  | addEdge tail head attrs =>
      exact governs_of_action rfl fun _ _ same => addEdge_moved same tail head attrs
  | chain endpoints attrs =>
      exact governs_of_action rfl fun _ _ same => chain_moved same endpoints attrs
  | fanOut tail heads attrs =>
      exact governs_of_action rfl fun _ _ same => fanOut_moved same tail heads attrs
  | updateEdge id attrs =>
      exact governs_of_action rfl fun _ _ same => updateEdge_moved same id attrs
  | removeEdge id => exact governs_of_action rfl fun _ _ same => removeEdge_moved same id
  | _ => cases on_edges

end Edges

section Groups

open DotDoc.Graph.Part

variable {g h : Graph}

theorem vertex_congr (same : groupPart.Shared g h) (id : Value) : g.vertex id = h.vertex id := by
  simp only [vertex, findVertex, same.vertices]

theorem subgraph_congr (same : groupPart.Shared g h) (id : Value) :
    g.subgraph id = h.subgraph id := by
  have subgraphs : g.subgraphs = h.subgraphs := congrArg Prod.fst same.part
  unfold subgraph findSubgraph
  rw [subgraphs]

theorem checkMembers_congr (same : groupPart.Shared g h) (owner : Option Text)
    (ids : List Value) : g.checkMembers owner ids = h.checkMembers owner ids := by
  have subgraphs : g.subgraphs = h.subgraphs := congrArg Prod.fst same.part
  induction ids with
  | nil => rfl
  | cons id rest ih =>
      rw [checkMembers, checkMembers, ih, checkMember, checkMember, vertex_congr same, subgraphs]

theorem replaceSubgraph_moved (same : groupPart.Shared g h) (changed : Subgraph) :
    groupPart.Moved g h (g.replaceSubgraph changed) (h.replaceSubgraph changed) := by
  obtain ⟨subgraphs, counter⟩ := Prod.mk.inj same.part
  refine .of_parts rfl rfl ?_
  simp only [replaceSubgraph, groupPart, subgraphs, counter]

theorem takeSubgraphNumber_moved (same : groupPart.Shared g h) :
    groupPart.MovedAnswer g h g.takeSubgraphNumber h.takeSubgraphNumber := by
  obtain ⟨subgraphs, counter⟩ := Prod.mk.inj same.part
  refine ⟨counter, .of_parts rfl rfl ?_⟩
  simp only [takeSubgraphNumber, groupPart, subgraphs, counter]

theorem storeSubgraph_moved (same : groupPart.Shared g h) (s : Subgraph) :
    groupPart.Moved g h (g.storeSubgraph s).2 (h.storeSubgraph s).2 := by
  obtain ⟨subgraphs, counter⟩ := Prod.mk.inj same.part
  refine .of_parts rfl rfl ?_
  show (g.subgraphs ++ [s], g.nextSubgraph) = (h.subgraphs ++ [s], h.nextSubgraph)
  rw [subgraphs, counter]

theorem addGroup_moved (same : groupPart.Shared g h) (isCluster : Bool) (ids : Value)
    (properties : Keywords) :
    groupPart.MovedAnswer g h (g.addGroup isCluster ids properties)
      (h.addGroup isCluster ids properties) := by
  refine .check _ same fun _ => .check _ same fun members =>
    .ask same (checkMembers_congr same none members) fun _ => ?_
  obtain ⟨numbers, numbered⟩ := takeSubgraphNumber_moved same
  refine .bind same ⟨congrArg Except.ok numbers, numbered⟩ fun number g' h' left => ?_
  exact .check _ left fun s => ⟨rfl, storeSubgraph_moved left s⟩

theorem addToSubgraph_moved (same : groupPart.Shared g h) (id ids : Value) :
    groupPart.MovedAnswer g h (g.addToSubgraph id ids) (h.addToSubgraph id ids) :=
  .ask same (subgraph_congr same id) fun _ => .check _ same fun members =>
    .ask same (checkMembers_congr same _ members) fun _ => ⟨rfl, replaceSubgraph_moved same _⟩

theorem removeFromSubgraph_moved (same : groupPart.Shared g h) (id ids : Value) :
    groupPart.MovedAnswer g h (g.removeFromSubgraph id ids) (h.removeFromSubgraph id ids) :=
  .ask same (subgraph_congr same id) fun _ => .check _ same fun shrunk =>
    ⟨rfl, replaceSubgraph_moved same shrunk⟩

theorem updateSubgraph_moved (same : groupPart.Shared g h) (id : Value) (properties : Keywords) :
    groupPart.MovedAnswer g h (g.updateSubgraph id properties)
      (h.updateSubgraph id properties) :=
  .check _ same fun _ => .ask same (subgraph_congr same id) fun _ =>
    ⟨rfl, replaceSubgraph_moved same _⟩

theorem removeSubgraph_moved (same : groupPart.Shared g h) (id : Value) :
    groupPart.MovedAnswer g h (g.removeSubgraph id) (h.removeSubgraph id) := by
  obtain ⟨subgraphs, counter⟩ := Prod.mk.inj same.part
  refine .ask same (subgraph_congr same id) fun found => ⟨rfl, .of_parts rfl rfl ?_⟩
  simp only [Action.modify_apply, groupPart, subgraphs, counter]

theorem groupPart_governs {call : Call} (on_groups : call.onGroups = true) :
    groupPart.Governs call := by
  cases call with
  | addSubgraph ids properties =>
      exact governs_of_action rfl fun _ _ same => addGroup_moved same false ids properties
  | addCluster ids properties =>
      exact governs_of_action rfl fun _ _ same => addGroup_moved same true ids properties
  | addToSubgraph id ids =>
      exact governs_of_action rfl fun _ _ same => addToSubgraph_moved same id ids
  | removeFromSubgraph id ids =>
      exact governs_of_action rfl fun _ _ same => removeFromSubgraph_moved same id ids
  | updateSubgraph id properties =>
      exact governs_of_action rfl fun _ _ same => updateSubgraph_moved same id properties
  | removeSubgraph id => exact governs_of_action rfl fun _ _ same => removeSubgraph_moved same id
  | _ => cases on_groups

end Groups

/-! ## Changing places -/

/-- Each of two calls is answered as if the other were not made, and the graph after both is the
same in either order. -/
structure Commute (g : Graph) (first second : Call) : Prop where
  first_result : ((g.perform second).graph.perform first).result = (g.perform first).result
  second_result : ((g.perform first).graph.perform second).result = (g.perform second).result
  graph : ((g.perform first).graph.perform second).graph
    = ((g.perform second).graph.perform first).graph

theorem Commute.symm {g : Graph} {first second : Call} (commute : g.Commute first second) :
    g.Commute second first :=
  ⟨commute.second_result, commute.first_result, commute.graph.symm⟩

/-- Parts that can be set in either order, and of which none is in the other. -/
structure Part.Apart {α β : Type} (P : Part α) (Q : Part β) : Prop where
  set_comm : ∀ a b g, P.set a (Q.set b g) = Q.set b (P.set a g)
  get_left : ∀ b g, P.get (Q.set b g) = P.get g
  get_right : ∀ a g, Q.get (P.set a g) = Q.get g

theorem edgePart_apart_groupPart : edgePart.Apart groupPart :=
  ⟨fun _ _ _ => rfl, fun _ _ => rfl, fun _ _ => rfl⟩

section

open DotDoc.Graph.Part

variable {α β : Type} {P : Part α} {Q : Part β} {first second : Call}

theorem Part.Governs.changes (governs : P.Governs first) (g : Graph) :
    ∃ a, (g.perform first).graph = P.set a g := by
  obtain ⟨_, a, moved, _⟩ := governs g g ⟨rfl, rfl⟩
  exact ⟨a, moved⟩

theorem Part.Apart.commute (apart : P.Apart Q) (first_governed : P.Governs first)
    (second_governed : Q.Governs second) (g : Graph) : g.Commute first second := by
  obtain ⟨a, after_first⟩ := first_governed.changes g
  obtain ⟨b, after_second⟩ := second_governed.changes g
  have first_shared : P.Shared g (g.perform second).graph := by
    rw [after_second]
    exact ⟨(Q.vertices_set b g).symm, (apart.get_left b g).symm⟩
  have second_shared : Q.Shared g (g.perform first).graph := by
    rw [after_first]
    exact ⟨(P.vertices_set a g).symm, (apart.get_right a g).symm⟩
  obtain ⟨first_result, a', alone, first_after⟩ := first_governed _ _ first_shared
  obtain ⟨second_result, b', alone', second_after⟩ := second_governed _ _ second_shared
  refine ⟨first_result.symm, second_result.symm, ?_⟩
  calc ((g.perform first).graph.perform second).graph
      = Q.set b' (g.perform first).graph := second_after
    _ = Q.set b' (P.set a' g) := by rw [alone]
    _ = P.set a' (Q.set b' g) := (apart.set_comm a' b' g).symm
    _ = P.set a' (g.perform second).graph := by rw [alone']
    _ = ((g.perform second).graph.perform first).graph := first_after.symm

end

theorem commute_edge_group {edgeCall groupCall : Call} (on_edges : edgeCall.onEdges = true)
    (on_groups : groupCall.onGroups = true) (g : Graph) : g.Commute edgeCall groupCall :=
  edgePart_apart_groupPart.commute (edgePart_governs on_edges) (groupPart_governs on_groups) g

/-- The items of two lists in one, those of each in their order. -/
inductive Interleaved {α : Type} : List α → List α → List α → Prop
  | nil : Interleaved [] [] []
  | left {a : α} {first second whole : List α} (later : Interleaved first second whole) :
      Interleaved (a :: first) second (a :: whole)
  | right {b : α} {first second whole : List α} (later : Interleaved first second whole) :
      Interleaved first (b :: second) (b :: whole)

/-- The calls of a run with their answers. -/
def answers : List Call → Graph → List (Call × Except Error Reply)
  | [], _ => []
  | call :: rest, g => (call, (g.perform call).result) :: answers rest (g.perform call).graph

/-- A call that changes places with all calls of a run leaves their answers as they are, and gets
the answer after them that it gets before them. -/
theorem commute_run {call : Call} {calls : List Call} (g : Graph)
    (commute : ∀ other ∈ calls, ∀ g : Graph, g.Commute other call) :
    answers calls (g.perform call).graph = answers calls g ∧
      ((g.run calls).perform call).result = (g.perform call).result ∧
      ((g.run calls).perform call).graph = (g.perform call).graph.run calls := by
  induction calls generalizing g with
  | nil => exact ⟨rfl, rfl, rfl⟩
  | cons other rest ih =>
      have here := commute other (List.mem_cons_self ..) g
      obtain ⟨rest_answers, result, graph⟩ :=
        ih (g.perform other).graph fun later member => commute later (List.mem_cons_of_mem _ member)
      refine ⟨?_, ?_, ?_⟩
      · rw [answers, answers, here.first_result, ← here.graph, rest_answers]
      · rw [run_cons, result, here.second_result]
      · rw [run_cons, graph, here.graph, run_cons]

section

variable {first second whole : List Call}

theorem Interleaved.run_eq (interleaved : Interleaved first second whole) (g : Graph)
    (commute : ∀ a ∈ first, ∀ b ∈ second, ∀ g : Graph, g.Commute a b) :
    g.run whole = g.run (first ++ second) ∧
      Interleaved (answers first g) (answers second g) (answers whole g) := by
  induction interleaved generalizing g with
  | nil => exact ⟨rfl, .nil⟩
  | @left a first second whole _ ih =>
      obtain ⟨graph, later⟩ := ih (g.perform a).graph fun a' member =>
        commute a' (List.mem_cons_of_mem _ member)
      have passed := commute_run g fun b member g =>
        (commute a (List.mem_cons_self ..) b member g).symm
      rw [passed.1] at later
      exact ⟨graph, .left later⟩
  | @right b first second whole _ ih =>
      obtain ⟨graph, later⟩ := ih (g.perform b).graph fun a member b' b'_member =>
        commute a member b' (List.mem_cons_of_mem _ b'_member)
      have passed := commute_run g fun a member => commute a member b (List.mem_cons_self ..)
      rw [passed.1] at later
      refine ⟨?_, .right later⟩
      rw [run_cons, graph, run_append, run_append, run_cons, passed.2.2]

end

/-- A call on edges and a call on groups change places, whatever they are asked and whether or not
they are refused.  So all ways of interleaving calls on edges with calls on groups end in one
graph and one document, with the answers that each of the two runs gets alone. -/
theorem edge_and_group_calls_commute {g : Graph} (reached : Reachable g) :
    (∀ edgeCall groupCall : Call, edgeCall.onEdges = true → groupCall.onGroups = true →
      g.Commute edgeCall groupCall) ∧
    ∀ edgeCalls groupCalls : List Call, (∀ call ∈ edgeCalls, call.onEdges = true) →
      (∀ call ∈ groupCalls, call.onGroups = true) →
        ∃ final text, final.document? = .ok text ∧
          ∀ calls, Interleaved edgeCalls groupCalls calls →
            g.run calls = final ∧
              Interleaved (answers edgeCalls g) (answers groupCalls g) (answers calls g) := by
  refine ⟨fun edgeCall groupCall on_edges on_groups => commute_edge_group on_edges on_groups g, ?_⟩
  intro edgeCalls groupCalls on_edges on_groups
  have reached_final : Reachable (g.run (edgeCalls ++ groupCalls)) := reached.run _
  refine ⟨g.run (edgeCalls ++ groupCalls), _, if_pos reached_final.consistent.isWritable, ?_⟩
  intro calls interleaved
  exact interleaved.run_eq g fun edgeCall edge_member groupCall group_member =>
    commute_edge_group (on_edges edgeCall edge_member) (on_groups groupCall group_member)

def lettersGraph : Graph :=
  (ofLayers .empty .empty .empty).run
    [.addVertex (.str "a") .empty, .addVertex (.str "b") .empty, .addVertex (.str "c") .empty]

/-- A chain that breaks off at its last vertex, a change and a removal that finds nothing. -/
def letterEdges : List Call :=
  [.chain (.list [.int 0, .int 1, .int 2, .int 7]) .empty,
    .updateEdge (.int 1) ⟨[("style", .str "dotted")], by decide⟩,
    .removeEdge (.int 5)]

/-- A cluster, a subgraph with a member that is taken, and a change that breaks off. -/
def letterGroups : List Call :=
  [.addCluster (.list [.int 0, .int 1]) .empty,
    .addSubgraph (.list [.int 1]) .empty,
    .updateSubgraph (.str "cluster0") ⟨[("color", .str "blue"), ("node", .int 3)], by decide⟩]

def alternatingLetters : List Call :=
  (List.zipWith (fun edgeCall groupCall => [edgeCall, groupCall]) letterEdges letterGroups).flatten

theorem letters_interleaved :
    Reachable lettersGraph ∧ Interleaved letterEdges letterGroups alternatingLetters ∧
    Interleaved letterEdges letterGroups (letterGroups ++ letterEdges) ∧
    lettersGraph.run alternatingLetters = lettersGraph.run (letterGroups ++ letterEdges) ∧
    (answers alternatingLetters lettersGraph).map Prod.snd
      = [.error (.vertexNotFound (.int 7)), .ok (.subgraph "cluster0".toList), .ok .done,
        .error (.alreadyMember (.int 1) "cluster0".toList), .error (.edgeNotFound (.int 5)),
        .error (.layerNotMapping "node" (.int 3))] ∧
    (lettersGraph.run alternatingLetters).edges.map Edge.id = [0, 1] ∧
    (lettersGraph.run alternatingLetters).looseEdges.map Edge.id = [1] := by
  have reached : Reachable lettersGraph := reachable_run_empty _
  have alternating : Interleaved letterEdges letterGroups alternatingLetters :=
    .left (.right (.left (.right (.left (.right .nil)))))
  have groups_first : Interleaved letterEdges letterGroups (letterGroups ++ letterEdges) :=
    .right (.right (.right (.left (.left (.left .nil)))))
  obtain ⟨final, text, _, same⟩ := (edge_and_group_calls_commute reached).2 letterEdges
    letterGroups (by decide) (by decide)
  refine ⟨reached, alternating, groups_first, ?_, rfl, by decide, by decide⟩
  rw [(same _ alternating).1, (same _ groups_first).1]

end Graph
end DotDoc
