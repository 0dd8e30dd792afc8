import DotDoc.Proofs.Graph.Consistent

/-!
# Numbers are used once

A run is followed step by step: `Step.newVertices`, `newEdges` and `newGroups` are what is stored
after a call under an id that was not stored before it.  A call keeps some of the old elements of
each table and puts the new ones behind them (`Grows`), and the new ones take the next numbers of
the counter.  So over a run the new vertices are numbered from zero without a gap, and so are the
new edges, those of a chain that is refused halfway included.  The numbers of subgraphs only
ascend, because a subgraph that is refused for a layer leaves a gap.

A counter never goes back, so an id that is gone stays gone.
-/

set_option autoImplicit false

namespace DotDoc

section Tables

variable {α β : Type} {id : α → β} {old added new : List α}

/-- Some of the old items stay, perhaps changed, under their ids, and new ones follow them. -/
def Grows (id : α → β) (old added new : List α) : Prop :=
  ∃ kept, (kept.map id).Sublist (old.map id) ∧ new = kept ++ added

theorem Grows.of_sublist (kept : (new.map id).Sublist (old.map id)) : Grows id old [] new :=
  ⟨new, kept, (List.append_nil new).symm⟩

theorem Grows.refl (old : List α) : Grows id old [] old :=
  .of_sublist (List.Sublist.refl _)

theorem Grows.append (old added : List α) : Grows id old added (old ++ added) :=
  ⟨old, List.Sublist.refl _, rfl⟩

theorem Grows.filter_eq (grows : Grows id old added new) {keep : α → Bool}
    (keeps : ∀ a, keep a = true ↔ id a ∉ old.map id)
    (fresh : ∀ a ∈ added, id a ∉ old.map id) : new.filter keep = added := by
  obtain ⟨kept, sublist, rfl⟩ := grows
  have none_kept : kept.filter keep = [] := by
    rw [List.filter_eq_nil_iff]
    intro a member
    have held : id a ∈ old.map id := sublist.subset (List.mem_map_of_mem member)
    rw [keeps]
    exact not_not_intro held
  have all_added : added.filter keep = added := by
    rw [List.filter_eq_self]
    intro a member
    exact (keeps a).2 (fresh a member)
  rw [List.filter_append, none_kept, all_added, List.nil_append]

theorem Grows.not_mem (grows : Grows id old added new) {i : β} (absent : i ∉ old.map id)
    (not_added : i ∉ added.map id) : i ∉ new.map id := by
  obtain ⟨kept, sublist, rfl⟩ := grows
  rw [List.map_append, List.mem_append, not_or]
  exact ⟨fun member => absent (sublist.subset member), not_added⟩

end Tables

namespace Graph

variable {g g' : Graph}

def vertexIds (g : Graph) : List Nat :=
  g.vertices.map Vertex.id

def edgeIds (g : Graph) : List Nat :=
  g.edges.map Edge.id

def groupNames (g : Graph) : List Text :=
  g.subgraphs.map Subgraph.name

theorem modifyVertex_ids (n : Nat) {f : Vertex → Vertex} (kept : ∀ v, (f v).id = v.id) :
    (g.modifyVertex n f).vertexIds = g.vertexIds := by
  rw [vertexIds, modifyVertex, List.map_map]
  refine List.map_congr_left fun v _ => ?_
  by_cases here : v.id = n <;> simp [here, kept]

theorem modifyEdge_ids (n : Nat) {f : Edge → Edge} (kept : ∀ e, (f e).id = e.id) :
    (g.modifyEdge n f).edgeIds = g.edgeIds := by
  rw [edgeIds, modifyEdge, List.map_map]
  refine List.map_congr_left fun e _ => ?_
  by_cases here : e.id = n <;> simp [here, kept]

theorem replaceSubgraph_names (changed : Subgraph) :
    (g.replaceSubgraph changed).groupNames = g.groupNames := by
  rw [groupNames, replaceSubgraph, List.map_map]
  refine List.map_congr_left fun s _ => ?_
  by_cases here : s.name = changed.name <;> simp [here]

theorem sublist_map_filter {α β : Type} (f : α → β) (keep : α → Bool) (items : List α) :
    ((items.filter keep).map f).Sublist (items.map f) :=
  List.filter_sublist.map f

theorem Revision.ids (revision : Revision g g') :
    g'.vertexIds.Sublist g.vertexIds ∧ g'.edgeIds.Sublist g.edgeIds ∧
      g'.groupNames.Sublist g.groupNames := by
  obtain ⟨change, counters⟩ := revision
  have same {β : Type} (ids : List β) : ids.Sublist ids := List.Sublist.refl ids
  cases change with
  | storeAttribute key value => exact ⟨same _, same _, same _⟩
  | storeVertexDefaults added => exact ⟨same _, same _, same _⟩
  | storeEdgeDefaults added => exact ⟨same _, same _, same _⟩
  | insertVertex label attrs given => simp [Graph.counters, insertVertex_apply] at counters
  | updateVertex v stored added =>
      exact ⟨by rw [modifyVertex_ids]; exact fun _ => rfl, same _, same _⟩
  | insertEdge tail head attrs tail_stored head_stored =>
      simp [Graph.counters, insertEdge_apply] at counters
  | updateEdge e stored attrs =>
      exact ⟨same _, by rw [modifyEdge_ids]; exact fun _ => rfl, same _⟩
  | removeEdge e stored => exact ⟨same _, sublist_map_filter _ _ _, same _⟩
  | skipNumber => simp [Graph.counters] at counters
  | insertSubgraph isCluster members properties s free created =>
      simp [Graph.counters] at counters
  | addMembers s stored members free =>
      exact ⟨same _, same _, by rw [replaceSubgraph_names]⟩
  | removeMembers s stored members => exact ⟨same _, same _, by rw [replaceSubgraph_names]⟩
  | setProperties s stored properties => exact ⟨same _, same _, by rw [replaceSubgraph_names]⟩
  | removeSubgraph s stored => exact ⟨same _, same _, sublist_map_filter _ _ _⟩
  | removeVertex v stored =>
      refine ⟨sublist_map_filter _ _ _, sublist_map_filter _ _ _, ?_⟩
      rw [groupNames, List.map_map]
      exact same g.groupNames

theorem Connects.edges {numbers : List Nat} (connected : Connects g numbers g') :
    ∃ added, g'.edges = g.edges ++ added ∧ added.map Edge.id = numbers ∧
      numbers = List.range' g.nextEdge numbers.length ∧
      g'.nextEdge = g.nextEdge + numbers.length := by
  induction connected with
  | none g => exact ⟨[], by simp, rfl, rfl, rfl⟩
  | @insert g g' numbers tail head attrs _ _ _ ih =>
      obtain ⟨added, edges, ids, range, counter⟩ := ih
      obtain ⟨first, first_edges, first_id⟩ :
          ∃ e, (g.insertEdge tail head attrs).2.edges = g.edges ++ [e] ∧ e.id = g.nextEdge :=
        ⟨_, rfl, rfl⟩
      have next : (g.insertEdge tail head attrs).2.nextEdge = g.nextEdge + 1 := rfl
      rw [next] at range counter
      refine ⟨first :: added, ?_, ?_, ?_, ?_⟩
      · rw [edges, first_edges, List.append_assoc, List.singleton_append]
      · rw [List.map_cons, first_id, ids]
      · rw [List.length_cons, List.range'_succ, ← range]
      · rw [counter, List.length_cons]
        omega

theorem Connects.elsewhere {numbers : List Nat} (connected : Connects g numbers g') :
    g'.vertices = g.vertices ∧ g'.nextVertex = g.nextVertex ∧
      g'.subgraphs = g.subgraphs ∧ g'.nextSubgraph = g.nextSubgraph := by
  induction connected with
  | none g => exact ⟨rfl, rfl, rfl, rfl⟩
  | insert tail head attrs _ _ _ ih => exact ih

section Effects

variable {call : Call} {result : Except Error Reply}

def success (purpose : Purpose) (call : Call) (result : Except Error Reply) :
    List (Except Error Reply) :=
  if call.purpose = purpose && result.isOk then [result] else []

theorem success_of_purpose_ne {purpose : Purpose} (other : call.purpose ≠ purpose) :
    success purpose call result = [] := by
  simp [success, other]

theorem success_error (purpose : Purpose) (e : Error) :
    success purpose call (.error e) = [] := by
  simp [success, Except.isOk, Except.toBool]

theorem success_ok {purpose : Purpose} (same : call.purpose = purpose) (reply : Reply) :
    success purpose call (.ok reply) = [.ok reply] := by
  simp [success, same, Except.isOk, Except.toBool]

theorem Effect.vertices (effect : Effect g call result g') :
    ∃ added, Grows Vertex.id g.vertices added g'.vertices ∧
      added.map Vertex.id = List.range' g.nextVertex added.length ∧
      g'.nextVertex = g.nextVertex + added.length ∧
      success .vertex call result = added.map fun v => .ok (.element v.id) := by
  cases effect with
  | refused fault => exact ⟨[], .refl _, rfl, rfl, success_error _ _⟩
  | numberLost purpose fault => exact ⟨[], .refl _, rfl, rfl, success_error _ _⟩
  | vertexAdded purpose label attrs given =>
      exact ⟨[_], .append _ _, rfl, rfl, success_ok purpose _⟩
  | edgesAdded purpose connected answered part =>
      obtain ⟨vertices, counter, _, _⟩ := connected.elsewhere
      rw [vertices, counter]
      exact ⟨[], .refl _, rfl, rfl, success_of_purpose_ne (by simp [purpose])⟩
  | groupAdded purpose isCluster members properties s free created =>
      exact ⟨[], .refl _, rfl, rfl, success_of_purpose_ne (by simp [purpose])⟩
  | revised purpose revision =>
      have counter : g'.nextVertex = g.nextVertex := congrArg Prod.fst revision.counters_kept
      exact ⟨[], .of_sublist revision.ids.1, rfl, counter,
        success_of_purpose_ne (by simp [purpose])⟩
  | brokenOff purpose part revision =>
      have counter : g'.nextVertex = g.nextVertex := congrArg Prod.fst revision.counters_kept
      exact ⟨[], .of_sublist revision.ids.1, rfl, counter, success_error _ _⟩

theorem Effect.edges (effect : Effect g call result g') :
    ∃ added, Grows Edge.id g.edges added g'.edges ∧
      added.map Edge.id = List.range' g.nextEdge added.length ∧
      g'.nextEdge = g.nextEdge + added.length ∧
      (call.purpose = .edges → ∀ reply, result = .ok reply →
        reply.numbers = added.map Edge.id) := by
  cases effect with
  | refused fault => exact ⟨[], .refl _, rfl, rfl, nofun⟩
  | numberLost purpose fault => exact ⟨[], .refl _, rfl, rfl, nofun⟩
  | vertexAdded purpose label attrs given =>
      exact ⟨[], .refl _, rfl, rfl, fun edges => by simp [purpose] at edges⟩
  | edgesAdded purpose connected answered part =>
      obtain ⟨added, edges, ids, range, counter⟩ := connected.edges
      subst ids
      rw [List.length_map] at range counter
      exact ⟨added, edges ▸ .append _ _, range, counter, fun _ => answered⟩
  | groupAdded purpose isCluster members properties s free created =>
      exact ⟨[], .refl _, rfl, rfl, fun edges => by simp [purpose] at edges⟩
  | revised purpose revision =>
      have counter : g'.nextEdge = g.nextEdge :=
        congrArg (fun counters => counters.2.1) revision.counters_kept
      exact ⟨[], .of_sublist revision.ids.2.1, rfl, counter,
        fun edges => by simp [purpose] at edges⟩
  | brokenOff purpose part revision =>
      have counter : g'.nextEdge = g.nextEdge :=
        congrArg (fun counters => counters.2.1) revision.counters_kept
      exact ⟨[], .of_sublist revision.ids.2.1, rfl, counter, nofun⟩

theorem Effect.groups (effect : Effect g call result g') :
    ∃ added, Grows Subgraph.name g.subgraphs added g'.subgraphs ∧
      added.Pairwise (fun s t => s.number < t.number) ∧
      (∀ s ∈ added, (g.nextSubgraph : Int) ≤ s.number ∧ s.number < g'.nextSubgraph) ∧
      g.nextSubgraph ≤ g'.nextSubgraph ∧
      success .group call result = added.map fun s => .ok (.subgraph s.name) := by
  cases effect with
  | refused fault => exact ⟨[], .refl _, .nil, nofun, Nat.le_refl _, success_error _ _⟩
  | numberLost purpose fault =>
      exact ⟨[], .refl _, .nil, nofun, Nat.le_succ _, success_error _ _⟩
  | vertexAdded purpose label attrs given =>
      exact ⟨[], .refl _, .nil, nofun, Nat.le_refl _,
        success_of_purpose_ne (by simp [purpose])⟩
  | edgesAdded purpose connected answered part =>
      obtain ⟨_, _, subgraphs, counter⟩ := connected.elsewhere
      rw [subgraphs, counter]
      exact ⟨[], .refl _, .nil, nofun, Nat.le_refl _,
        success_of_purpose_ne (by simp [purpose])⟩
  | groupAdded purpose isCluster members properties s free created =>
      obtain ⟨number, _, _⟩ := Subgraph.create_sameGroup created
      have number : s.number = g.nextSubgraph := by
        rw [number, Subgraph.addMembers_number]
        rfl
      refine ⟨[s], .append _ _, List.pairwise_singleton _ _, ?_, Nat.le_succ _,
        success_ok purpose _⟩
      intro t member
      rw [List.mem_singleton.1 member, number]
      push_cast
      omega
  | revised purpose revision =>
      have counter : g'.nextSubgraph = g.nextSubgraph :=
        congrArg (fun counters => counters.2.2) revision.counters_kept
      exact ⟨[], .of_sublist revision.ids.2.2, .nil, nofun, Nat.le_of_eq counter.symm,
        success_of_purpose_ne (by simp [purpose])⟩
  | brokenOff purpose part revision =>
      have counter : g'.nextSubgraph = g.nextSubgraph :=
        congrArg (fun counters => counters.2.2) revision.counters_kept
      exact ⟨[], .of_sublist revision.ids.2.2, .nil, nofun, Nat.le_of_eq counter.symm,
        success_error _ _⟩

end Effects

/-- A call of a run, with the graph that it meets and its outcome. -/
structure Step where
  before : Graph
  call : Call
  outcome : Outcome

namespace Step

/-- The vertices that are stored after the call under an id that was not stored before. -/
def newVertices (s : Step) : List Vertex :=
  s.outcome.graph.vertices.filter fun v => v.id ∉ s.before.vertexIds

def newEdges (s : Step) : List Edge :=
  s.outcome.graph.edges.filter fun e => e.id ∉ s.before.edgeIds

def newGroups (s : Step) : List Subgraph :=
  s.outcome.graph.subgraphs.filter fun t => t.name ∉ s.before.groupNames

end Step

def step (call : Call) (g : Graph) : Step :=
  ⟨g, call, g.perform call⟩

def steps : List Call → Graph → List Step
  | [], _ => []
  | call :: rest, g => g.step call :: steps rest (g.perform call).graph

def successes (purpose : Purpose) (run : List Step) : List (Except Error Reply) :=
  run.flatMap fun s => success purpose s.call s.outcome.result

theorem not_mem_of_range' {α : Type} {number : α → Nat} {old added : List α} {next : Nat}
    (below : ∀ a ∈ old, number a < next)
    (range : added.map number = List.range' next added.length) :
    ∀ a ∈ added, number a ∉ old.map number := by
  intro a member held
  have drawn : number a ∈ List.range' next added.length :=
    range ▸ List.mem_map_of_mem member
  obtain ⟨b, b_old, same⟩ := List.mem_map.1 held
  have low := below b b_old
  have high := (List.mem_range'_1.1 drawn).1
  omega

theorem Consistent.new_vertices (c : g.Consistent) (call : Call) :
    (g.step call).newVertices.map Vertex.id
        = List.range' g.nextVertex (g.step call).newVertices.length ∧
      (g.perform call).graph.nextVertex = g.nextVertex + (g.step call).newVertices.length ∧
      success .vertex call (g.perform call).result
        = (g.step call).newVertices.map fun v => .ok (.element v.id) := by
  obtain ⟨added, grows, range, counter, answered⟩ := (perform_effect c.isWritable call).vertices
  have observed : (g.step call).newVertices = added :=
    grows.filter_eq (fun _ => decide_eq_true_iff) (not_mem_of_range' c.vertices_below range)
  rw [observed]
  exact ⟨range, counter, answered⟩

theorem Consistent.new_edges (c : g.Consistent) (call : Call) :
    (g.step call).newEdges.map Edge.id
        = List.range' g.nextEdge (g.step call).newEdges.length ∧
      (g.perform call).graph.nextEdge = g.nextEdge + (g.step call).newEdges.length ∧
      (call.purpose = .edges → ∀ reply, (g.perform call).result = .ok reply →
        reply.numbers = (g.step call).newEdges.map Edge.id) := by
  obtain ⟨added, grows, range, counter, answered⟩ := (perform_effect c.isWritable call).edges
  have observed : (g.step call).newEdges = added :=
    grows.filter_eq (fun _ => decide_eq_true_iff) (not_mem_of_range' c.edges_below range)
  rw [observed]
  exact ⟨range, counter, answered⟩

theorem Consistent.name_not_mem (c : g.Consistent) {s : Subgraph}
    (fresh : (g.nextSubgraph : Int) ≤ s.number) : s.name ∉ g.groupNames := by
  intro member
  obtain ⟨t, stored, same⟩ := List.mem_map.1 member
  have low := c.subgraphs_below t stored
  have numbers := (Subgraph.name_inj same).2
  omega

theorem Consistent.new_groups (c : g.Consistent) (call : Call) :
    (g.step call).newGroups.Pairwise (fun s t => s.number < t.number) ∧
      (∀ s ∈ (g.step call).newGroups, (g.nextSubgraph : Int) ≤ s.number ∧
        s.number < (g.perform call).graph.nextSubgraph) ∧
      g.nextSubgraph ≤ (g.perform call).graph.nextSubgraph ∧
      success .group call (g.perform call).result
        = (g.step call).newGroups.map fun s => .ok (.subgraph s.name) := by
  obtain ⟨added, grows, ascending, drawn, counter, answered⟩ :=
    (perform_effect c.isWritable call).groups
  have observed : (g.step call).newGroups = added :=
    grows.filter_eq (fun _ => decide_eq_true_iff) fun s member =>
      c.name_not_mem (drawn s member).1
  rw [observed]
  exact ⟨ascending, drawn, counter, answered⟩

/-! ## Runs -/

theorem Consistent.run (c : g.Consistent) (calls : List Call) : (g.run calls).Consistent := by
  induction calls generalizing g with
  | nil => exact c
  | cons call rest ih =>
      rw [run_cons]
      exact ih (c.perform call)

theorem Consistent.steps_all (P : Step → Prop)
    (one : ∀ {g : Graph}, g.Consistent → ∀ call, P (g.step call)) (c : g.Consistent)
    (calls : List Call) : ∀ s ∈ g.steps calls, P s := by
  induction calls generalizing g with
  | nil =>
      intro s member
      cases member
  | cons call rest ih =>
      intro s member
      rw [steps] at member
      rcases List.mem_cons.1 member with rfl | later
      · exact one c call
      · exact ih (c.perform call) s later

theorem Consistent.successes_eq {α : Type} {purpose : Purpose} (new : Step → List α)
    (answer : α → Except Error Reply)
    (one : ∀ {g : Graph}, g.Consistent → ∀ call,
      success purpose call (g.perform call).result = (new (g.step call)).map answer)
    (c : g.Consistent) (calls : List Call) :
    successes purpose (g.steps calls) = ((g.steps calls).flatMap new).map answer := by
  rw [successes, List.map_flatMap]
  apply List.flatMap_congr
  exact c.steps_all (fun s => success purpose s.call s.outcome.result = (new s).map answer) one
    calls

/-- Where every call takes the next numbers of a counter, a run takes them without a gap. -/
theorem Consistent.run_range {α : Type} (new : Step → List α) (number : α → Nat)
    (next : Graph → Nat)
    (one : ∀ {g : Graph}, g.Consistent → ∀ call,
      (new (g.step call)).map number = List.range' (next g) (new (g.step call)).length ∧
        next (g.perform call).graph = next g + (new (g.step call)).length)
    (c : g.Consistent) (calls : List Call) :
    ((g.steps calls).flatMap new).map number
        = List.range' (next g) ((g.steps calls).flatMap new).length ∧
      next (g.run calls) = next g + ((g.steps calls).flatMap new).length := by
  induction calls generalizing g with
  | nil => exact ⟨rfl, rfl⟩
  | cons call rest ih =>
      obtain ⟨range, counter⟩ := one c call
      obtain ⟨later_range, later_counter⟩ := ih (c.perform call)
      rw [counter] at later_range later_counter
      rw [steps, List.flatMap_cons, List.length_append]
      constructor
      · rw [List.map_append, range, later_range, List.range'_append_1]
      · rw [run_cons, later_counter, Nat.add_assoc]

theorem Consistent.run_groups (c : g.Consistent) (calls : List Call) :
    ((g.steps calls).flatMap Step.newGroups).Pairwise (fun s t => s.number < t.number) ∧
      ∀ s ∈ (g.steps calls).flatMap Step.newGroups, (g.nextSubgraph : Int) ≤ s.number := by
  induction calls generalizing g with
  | nil => exact ⟨.nil, nofun⟩
  | cons call rest ih =>
      obtain ⟨ascending, drawn, counter, _⟩ := c.new_groups call
      obtain ⟨later_ascending, later_drawn⟩ := ih (c.perform call)
      rw [steps, List.flatMap_cons]
      constructor
      · refine List.pairwise_append.2 ⟨ascending, later_ascending, ?_⟩
        intro s first t second
        have below := (drawn s first).2
        have above := later_drawn t second
        omega
      · intro s member
        rcases List.mem_append.1 member with first | second
        · exact (drawn s first).1
        · have above := later_drawn s second
          omega

/-- A table with ids of which a graph knows whether they were given out: what is stored was, what
was given out stays so, and a call does not store it anew. -/
structure GivesOut {β : Type} (ids : Graph → List β) (given : Graph → β → Prop) : Prop where
  stored : ∀ {g : Graph}, g.Consistent → ∀ i ∈ ids g, given g i
  kept : ∀ {g : Graph}, g.Consistent → ∀ call i, given g i → given (g.perform call).graph i
  absent : ∀ {g : Graph}, g.Consistent → ∀ call i, given g i → i ∉ ids g →
    i ∉ ids (g.perform call).graph

section GivesOut

variable {β : Type} {ids : Graph → List β} {given : Graph → β → Prop}

theorem GivesOut.run_kept (out : GivesOut ids given) (c : g.Consistent) (calls : List Call) {i : β}
    (held : given g i) : given (g.run calls) i := by
  induction calls generalizing g with
  | nil => exact held
  | cons call rest ih => exact ih (c.perform call) (out.kept c call i held)

theorem GivesOut.run_absent (out : GivesOut ids given) (c : g.Consistent) (calls : List Call)
    {i : β} (held : given g i) (absent : i ∉ ids g) : i ∉ ids (g.run calls) := by
  induction calls generalizing g with
  | nil => exact absent
  | cons call rest ih =>
      exact ih (c.perform call) (out.kept c call i held) (out.absent c call i held absent)

theorem GivesOut.gone (out : GivesOut ids given) (c : g.Consistent) {calls : List Call} :
    ∀ first second third, calls = first ++ second ++ third →
      ∀ i ∈ ids (g.run first), i ∉ ids (g.run (first ++ second)) → i ∉ ids (g.run calls) := by
  rintro first second third rfl i stored gone
  rw [run_append _ third]
  have held : given (g.run first) i := out.stored (c.run first) i stored
  have still_held : given (g.run (first ++ second)) i := by
    rw [run_append]
    exact out.run_kept (c.run first) second held
  exact out.run_absent (c.run (first ++ second)) third still_held gone

end GivesOut

theorem GivesOut.of_range {α : Type} {table : Graph → List α} {number : α → Nat}
    {next : Graph → Nat}
    (below : ∀ {g : Graph}, g.Consistent → ∀ a ∈ table g, number a < next g)
    (one : ∀ {g : Graph}, g.Consistent → ∀ call, ∃ added,
      Grows number (table g) added (table (g.perform call).graph) ∧
        added.map number = List.range' (next g) added.length ∧
        next (g.perform call).graph = next g + added.length) :
    GivesOut (fun g => (table g).map number) (fun g n => n < next g) where
  stored := by
    intro g c n stored
    obtain ⟨a, member, rfl⟩ := List.mem_map.1 stored
    exact below c a member
  kept := by
    intro g c call n old
    obtain ⟨added, _, _, counter⟩ := one c call
    omega
  absent := by
    intro g c call n old absent
    obtain ⟨added, grows, range, _⟩ := one c call
    apply grows.not_mem absent
    rw [range, List.mem_range'_1]
    omega

theorem vertices_give_out : GivesOut vertexIds fun g n => n < g.nextVertex := by
  apply GivesOut.of_range Consistent.vertices_below
  intro g c call
  obtain ⟨added, grows, range, counter, _⟩ := (perform_effect c.isWritable call).vertices
  exact ⟨added, grows, range, counter⟩

theorem edges_give_out : GivesOut edgeIds fun g n => n < g.nextEdge := by
  apply GivesOut.of_range Consistent.edges_below
  intro g c call
  obtain ⟨added, grows, range, counter, _⟩ := (perform_effect c.isWritable call).edges
  exact ⟨added, grows, range, counter⟩

theorem groups_give_out : GivesOut groupNames fun g name =>
    ∃ s : Subgraph, s.name = name ∧ s.number < g.nextSubgraph where
  stored := by
    intro g c name stored
    obtain ⟨s, member, named⟩ := List.mem_map.1 stored
    exact ⟨s, named, c.subgraphs_below s member⟩
  kept := by
    intro g c call name old
    obtain ⟨s, named, below⟩ := old
    obtain ⟨_, _, _, _, counter, _⟩ := (perform_effect c.isWritable call).groups
    exact ⟨s, named, by omega⟩
  absent := by
    intro g c call name old absent
    obtain ⟨s, rfl, below⟩ := old
    obtain ⟨added, grows, _, drawn, _, _⟩ := (perform_effect c.isWritable call).groups
    apply grows.not_mem absent
    intro member
    obtain ⟨t, new, same⟩ := List.mem_map.1 member
    have above := (drawn t new).1
    have numbers := (Subgraph.name_inj same).2
    omega

/-- What a run from a graph does with the numbers of its elements. -/
structure NumbersOnce (g : Graph) (calls : List Call) : Prop where
  vertex_answers : successes .vertex (g.steps calls)
    = (List.range (g.run calls).nextVertex).map fun k => .ok (.element k)
  vertices_created : ((g.steps calls).flatMap Step.newVertices).map Vertex.id
    = List.range (g.run calls).nextVertex
  edges_created : ((g.steps calls).flatMap Step.newEdges).map Edge.id
    = List.range (g.run calls).nextEdge
  edge_answers : ∀ s ∈ g.steps calls, s.call.purpose = .edges →
    ∀ reply, s.outcome.result = .ok reply → reply.numbers = s.newEdges.map Edge.id
  group_answers : successes .group (g.steps calls)
    = ((g.steps calls).flatMap Step.newGroups).map fun s => .ok (.subgraph s.name)
  groups_ascending :
    ((g.steps calls).flatMap Step.newGroups).Pairwise fun s t => s.number < t.number
  names_distinct : (((g.steps calls).flatMap Step.newGroups).map Subgraph.name).Nodup
  vertices_gone : ∀ first second third, calls = first ++ second ++ third →
    ∀ n ∈ (g.run first).vertexIds, n ∉ (g.run (first ++ second)).vertexIds →
      n ∉ (g.run calls).vertexIds
  edges_gone : ∀ first second third, calls = first ++ second ++ third →
    ∀ n ∈ (g.run first).edgeIds, n ∉ (g.run (first ++ second)).edgeIds →
      n ∉ (g.run calls).edgeIds
  groups_gone : ∀ first second third, calls = first ++ second ++ third →
    ∀ name ∈ (g.run first).groupNames, name ∉ (g.run (first ++ second)).groupNames →
      name ∉ (g.run calls).groupNames

/-- Whatever calls are made on a new graph, the vertices and the edges that are created are
numbered from zero without a gap, the numbers of subgraphs ascend, and no id of an element that is
gone is stored again. -/
theorem numbers_used_once {attrs vertexDefaults edgeDefaults : Value}
    (built : Graph.new attrs vertexDefaults edgeDefaults = .ok g) (calls : List Call) :
    NumbersOnce g calls := by
  have c : g.Consistent := (Reachable.new built).consistent
  obtain ⟨a, v, e, _, _, _, layers⟩ := new_eq_ok built
  have first_vertex : g.nextVertex = 0 := by rw [layers]; rfl
  have first_edge : g.nextEdge = 0 := by rw [layers]; rfl
  obtain ⟨vertex_ids, vertex_counter⟩ := c.run_range Step.newVertices Vertex.id Graph.nextVertex
    (fun c call => ⟨(c.new_vertices call).1, (c.new_vertices call).2.1⟩) calls
  obtain ⟨edge_ids, edge_counter⟩ := c.run_range Step.newEdges Edge.id Graph.nextEdge
    (fun c call => ⟨(c.new_edges call).1, (c.new_edges call).2.1⟩) calls
  rw [first_vertex, Nat.zero_add] at vertex_counter
  rw [first_edge, Nat.zero_add] at edge_counter
  rw [first_vertex, ← vertex_counter, ← List.range_eq_range'] at vertex_ids
  rw [first_edge, ← edge_counter, ← List.range_eq_range'] at edge_ids
  have vertex_answers := c.successes_eq Step.newVertices (fun v => .ok (.element v.id))
    (fun c call => (c.new_vertices call).2.2) calls
  have group_answers := c.successes_eq Step.newGroups (fun s => .ok (.subgraph s.name))
    (fun c call => (c.new_groups call).2.2.2) calls
  have ascending := (c.run_groups calls).1
  exact {
    vertex_answers := by
      rw [vertex_answers, ← vertex_ids, List.map_map]
      rfl
    vertices_created := vertex_ids
    edges_created := edge_ids
    edge_answers := c.steps_all (fun s => s.call.purpose = .edges →
      ∀ reply, s.outcome.result = .ok reply → reply.numbers = s.newEdges.map Edge.id)
      (fun c call => (c.new_edges call).2.2) calls
    group_answers := group_answers
    groups_ascending := ascending
    names_distinct := by
      rw [List.Nodup, List.pairwise_map]
      refine ascending.imp fun {s t} ascends same => ?_
      have numbers := (Subgraph.name_inj same).2
      omega
    vertices_gone := vertices_give_out.gone c
    edges_gone := edges_give_out.gone c
    groups_gone := groups_give_out.gone c }

/-- Calls of which some are refused and some take elements away, so that numbers could be given
out twice. -/
def wastefulCalls : List Call :=
  [.addVertex (.str "a") .empty, .addVertex .null .empty, .addVertex (.str "b") .empty,
    .removeVertex (.int 1), .addVertex (.str "c") .empty,
    .chain (.list [.int 0, .int 2, .int 7]) .empty, .removeEdge (.int 0),
    .fanOut (.int 2) (.list [.int 0, .int 2]) .empty,
    .addCluster (.list [.int 0]) ⟨[("node", .int 3)], by decide⟩,
    .addSubgraph (.list [.int 2]) .empty, .removeSubgraph (.str "subgraph1"),
    .addCluster (.list [.int 0]) .empty]

theorem wastefulCalls_number_once :
    Graph.new .null .null .null = .ok (ofLayers .empty .empty .empty) ∧
      (((ofLayers .empty .empty .empty).steps wastefulCalls).flatMap Step.newVertices).map
        Vertex.id = [0, 1, 2] ∧
      (((ofLayers .empty .empty .empty).steps wastefulCalls).flatMap Step.newEdges).map Edge.id
        = [0, 1, 2] ∧
      (((ofLayers .empty .empty .empty).steps wastefulCalls).flatMap Step.newGroups).map
        Subgraph.number = [1, 2] ∧
      NumbersOnce (ofLayers .empty .empty .empty) wastefulCalls := by
  have built : Graph.new .null .null .null = .ok (ofLayers .empty .empty .empty) := rfl
  have vertices : (((ofLayers .empty .empty .empty).steps wastefulCalls).flatMap
      Step.newVertices).map Vertex.id = [0, 1, 2] := by decide +kernel
  have edges : (((ofLayers .empty .empty .empty).steps wastefulCalls).flatMap
      Step.newEdges).map Edge.id = [0, 1, 2] := by decide +kernel
  have groups : (((ofLayers .empty .empty .empty).steps wastefulCalls).flatMap
      Step.newGroups).map Subgraph.number = [1, 2] := by decide +kernel
  exact ⟨built, vertices, edges, groups, numbers_used_once built wastefulCalls⟩

end Graph
end DotDoc
