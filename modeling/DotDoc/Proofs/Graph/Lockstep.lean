import DotDoc.Proofs.Graph.Alike
import DotDoc.Proofs.Graph.Refusal

/-!
# Calls on alike graphs

A call that is made on two alike graphs ends in the same way in both: it is refused for the same
reason, or it gives the same answer, and the graphs are alike afterwards.  Each operation is
followed through its lookups.  Those of vertices and edges are the same lookups, those of
subgraphs find nothing in both graphs or subgraphs that are alike, and what an operation does with
a subgraph it does alike with another.
-/

set_option autoImplicit false

namespace DotDoc

/-- Both are refused for the same reason, or both give answers that are related. -/
inductive Agree {α β : Type} (R : α → β → Prop) : Except Error α → Except Error β → Prop
  | refused (e : Error) : Agree R (.error e) (.error e)
  | answered {a : α} {b : β} (related : R a b) : Agree R (.ok a) (.ok b)

theorem Agree.bind {α β γ δ : Type} {R : α → β → Prop} {S : γ → δ → Prop} {x : Except Error α}
    {y : Except Error β} {f : α → Except Error γ} {g : β → Except Error δ} (first : Agree R x y)
    (next : ∀ a b, R a b → Agree S (f a) (g b)) : Agree S (x >>= f) (y >>= g) := by
  cases first with
  | refused e => exact .refused e
  | answered related => exact next _ _ related

theorem Agree.after {α γ δ : Type} {S : γ → δ → Prop} (x : Except Error α)
    {f : α → Except Error γ} {g : α → Except Error δ} (next : ∀ a, Agree S (f a) (g a)) :
    Agree S (x >>= f) (x >>= g) := by
  cases x with
  | error e => exact .refused e
  | ok a => exact next a

namespace Subgraph

variable {s t : Subgraph}

theorem Alike.addMember (alike : s.Alike t) (v : Value) :
    (s.addMember v).Alike (t.addMember v) := by
  unfold Subgraph.addMember
  rw [alike.contains]
  split
  · exact alike
  · exact { alike with members := alike.members.append_right [v] }

theorem Alike.addMembers (alike : s.Alike t) (vs : List Value) :
    (s.addMembers vs).Alike (t.addMembers vs) := by
  induction vs generalizing s t with
  | nil => exact alike
  | cons v rest ih => exact ih (alike.addMember v)

theorem Alike.removeMembers (alike : s.Alike t) (vs : List Value) :
    Agree Alike (s.removeMembers vs) (t.removeMembers vs) := by
  unfold Subgraph.removeMembers
  rw [Value.allHashable_perm alike.members]
  split
  · exact .answered { alike with members := alike.members.filter _ }
  · exact .refused _

theorem Alike.setProperty (alike : s.Alike t) (key : String) (value : Value) :
    Agree Alike (s.setProperty key value) (t.setProperty key value) := by
  unfold Subgraph.setProperty
  rw [alike.vertexDefaults, alike.edgeDefaults]
  split
  · split
    · exact .answered { alike with vertexDefaults := rfl, edgeDefaults := rfl }
    · exact .refused _
  · split
    · split
      · exact .answered { alike with vertexDefaults := rfl, edgeDefaults := rfl }
      · exact .refused _
    · have styling : s.isCluster = true → s.styling.put key value = t.styling.put key value :=
        fun cluster => by rw [alike.styling cluster]
      exact .answered { alike with vertexDefaults := rfl, edgeDefaults := rfl, styling }

theorem Alike.setProperties (alike : s.Alike t) (properties : Entries Value) :
    (Subgraph.setProperties properties s).1 = (Subgraph.setProperties properties t).1 ∧
      (Subgraph.setProperties properties s).2.Alike (Subgraph.setProperties properties t).2 := by
  induction properties generalizing s t with
  | nil => exact ⟨rfl, alike⟩
  | cons entry rest ih =>
      obtain ⟨key, value⟩ := entry
      have first := alike.setProperty key value
      rw [Subgraph.setProperties, Subgraph.setProperties]
      generalize s.setProperty key value = here at first ⊢
      generalize t.setProperty key value = there at first ⊢
      cases first with
      | refused e => exact ⟨rfl, alike⟩
      | answered related => exact ih related

end Subgraph

namespace Graph

variable {g h : Graph}

theorem Alike.vertex (alike : g.Alike h) (id : Value) : g.vertex id = h.vertex id := by
  simp only [Graph.vertex, findVertex, alike.vertices]

theorem Alike.edge (alike : g.Alike h) (id : Value) : g.edge id = h.edge id := by
  simp only [Graph.edge, findEdge, alike.edges]

theorem Alike.endpoint (alike : g.Alike h) (v : Value) : g.endpoint v = h.endpoint v :=
  endpoint_congr alike.vertices v

theorem Alike.subgraph (alike : g.Alike h) (id : Value) :
    Agree Subgraph.Alike (g.subgraph id) (h.subgraph id) := by
  unfold Graph.subgraph
  cases id with
  | str name =>
      have named (s t : Subgraph) (same : s.Alike t) :
          decide (s.name = name.toList) = decide (t.name = name.toList) := by
        rw [same.name]
      rcases find?_of_forall₂ alike.subgraphs named with ⟨absent, missing⟩ | ⟨s, t, here, there, same⟩
      · simp only [findSubgraph, absent, missing]
        exact .refused _
      · simp only [findSubgraph, here, there]
        exact .answered same
  | _ => exact .refused _

theorem Alike.checkMember (alike : g.Alike h) (owner : Option Text) (id : Value) :
    g.checkMember owner id = h.checkMember owner id := by
  have holds (s t : Subgraph) (same : s.Alike t) :
      (!(owner == some s.name) && s.contains id) = (!(owner == some t.name) && t.contains id) := by
    rw [same.name, same.contains]
  unfold Graph.checkMember
  rw [alike.vertex]
  rcases find?_of_forall₂ alike.subgraphs holds with ⟨absent, missing⟩ | ⟨s, t, here, there, same⟩
  · rw [absent, missing]
  · simp only [here, there, same.name]

theorem Alike.checkMembers (alike : g.Alike h) (owner : Option Text) (ids : List Value) :
    g.checkMembers owner ids = h.checkMembers owner ids := by
  induction ids with
  | nil => rfl
  | cons id rest ih => rw [Graph.checkMembers, Graph.checkMembers, alike.checkMember, ih]

/-- The same answer, and graphs that are alike. -/
def SameAnswer {α : Type} (a b : α × Graph) : Prop :=
  a.1 = b.1 ∧ a.2.Alike b.2

namespace SameAnswer

variable {α β γ : Type} {next later : α → Action β}

theorem ask {R : α → γ → Prop} {question : Graph → Except Error α} {other : Graph → Except Error γ}
    {later : γ → Action β} (alike : g.Alike h) (agree : Agree R (question g) (other h))
    (goes_on : ∀ a b, R a b → SameAnswer (next a g) (later b h)) :
    SameAnswer ((Action.ask question >>= next) g) ((Action.ask other >>= later) h) := by
  rw [Action.ask_bind, Action.ask_bind]
  generalize question g = here at agree ⊢
  generalize other h = there at agree ⊢
  cases agree with
  | refused e => exact ⟨rfl, alike⟩
  | answered related => exact goes_on _ _ related

theorem askSame {question other : Graph → Except Error α} (alike : g.Alike h)
    (same : question g = other h) (goes_on : ∀ a, SameAnswer (next a g) (later a h)) :
    SameAnswer ((Action.ask question >>= next) g) ((Action.ask other >>= later) h) := by
  rw [Action.ask_bind, Action.ask_bind, same]
  cases other h with
  | error e => exact ⟨rfl, alike⟩
  | ok a => exact goes_on a

theorem check {R : α → γ → Prop} {test : Except Error α} {other : Except Error γ}
    {later : γ → Action β} (alike : g.Alike h) (agree : Agree R test other)
    (goes_on : ∀ a b, R a b → SameAnswer (next a g) (later b h)) :
    SameAnswer ((liftM test >>= next : Action β) g) ((liftM other >>= later : Action β) h) := by
  rw [Action.check_bind, Action.check_bind]
  cases agree with
  | refused e => exact ⟨rfl, alike⟩
  | answered related => exact goes_on _ _ related

theorem checkSame (test : Except Error α) (alike : g.Alike h)
    (goes_on : ∀ a, SameAnswer (next a g) (later a h)) :
    SameAnswer ((liftM test >>= next : Action β) g) ((liftM test >>= later : Action β) h) := by
  rw [Action.check_bind, Action.check_bind]
  cases test with
  | error e => exact ⟨rfl, alike⟩
  | ok a => exact goes_on a

theorem bind {first other : Action α} (same : SameAnswer (first g) (other h))
    (goes_on : ∀ a g' h', g'.Alike h' → SameAnswer (next a g') (later a h')) :
    SameAnswer ((first >>= next) g) ((other >>= later) h) := by
  rw [Action.bind_apply, Action.bind_apply]
  generalize first g = here at same ⊢
  generalize other h = there at same ⊢
  obtain ⟨result, g'⟩ := here
  obtain ⟨_, h'⟩ := there
  obtain ⟨rfl, alike⟩ := same
  cases result with
  | error e => exact ⟨rfl, alike⟩
  | ok a => exact goes_on a g' h' alike

theorem map {a b : Except Error α × Graph} (same : SameAnswer a b) (f : α → β) :
    SameAnswer (a.1.map f, a.2) (b.1.map f, b.2) :=
  ⟨congrArg (Except.map f) same.1, same.2⟩

end SameAnswer

end Graph

/-- The same answer or refusal, and graphs that are alike. -/
structure Outcome.Alike (o p : Outcome) : Prop where
  result : o.result = p.result
  graph : o.graph.Alike p.graph

theorem Outcome.Alike.trans {o p q : Outcome} (first : o.Alike p) (second : p.Alike q) :
    o.Alike q :=
  ⟨first.result.trans second.result, first.graph.trans second.graph⟩

namespace Graph

variable {g h : Graph}

theorem Alike.setGraphProperty (alike : g.Alike h) (key value : Value) :
    SameAnswer (g.setGraphProperty key value) (h.setGraphProperty key value) := by
  have same : g.attrs.set key value = h.attrs.set key value := by rw [alike.attrs]
  exact .askSame alike same fun list => ⟨rfl, { alike with attrs := rfl }⟩

theorem Alike.setGlobalProperties (alike : g.Alike h) (kind : Value) (attrs : Keywords) :
    SameAnswer (g.setGlobalProperties kind attrs) (h.setGlobalProperties kind attrs) := by
  refine .checkSame _ alike fun _ => ?_
  split
  · refine ⟨rfl, { alike with vertexDefaults := ?_ }⟩
    dsimp only [Action.modify_apply]
    rw [alike.vertexDefaults]
  · refine ⟨rfl, { alike with edgeDefaults := ?_ }⟩
    dsimp only [Action.modify_apply]
    rw [alike.edgeDefaults]
  · exact ⟨rfl, alike⟩

theorem Alike.insertVertex (alike : g.Alike h) (label : Value) (attrs : Keywords) :
    SameAnswer (g.insertVertex label attrs) (h.insertVertex label attrs) := by
  obtain ⟨others, related, rfl⟩ := alike.exists_subgraphs
  exact ⟨rfl, alike_subgraphs related⟩

theorem Alike.addVertex (alike : g.Alike h) (label : Value) (attrs : Keywords) :
    SameAnswer (g.addVertex label attrs) (h.addVertex label attrs) := by
  refine .checkSame _ alike fun _ => ?_
  split
  · exact ⟨rfl, alike⟩
  · obtain ⟨numbers, grown⟩ := alike.insertVertex label attrs
    exact ⟨congrArg Except.ok numbers, grown⟩

theorem Alike.addRecord (alike : g.Alike h) (record : Value) :
    SameAnswer (g.addRecord record) (h.addRecord record) := by
  refine .checkSame _ alike fun label => ?_
  split
  · exact alike.addVertex label _
  · exact ⟨rfl, alike⟩

theorem Alike.addHtmlRecord (alike : g.Alike h) (record : Value) (attrs : Keywords) :
    SameAnswer (g.addHtmlRecord record attrs) (h.addHtmlRecord record attrs) :=
  .checkSame _ alike fun _ => .checkSame _ alike fun label => alike.addVertex label _

theorem Alike.updateVertex (alike : g.Alike h) (id : Value) (attrs : Keywords) :
    SameAnswer (g.updateVertex id attrs) (h.updateVertex id attrs) := by
  refine .checkSame _ alike fun _ => .askSame alike (alike.vertex id) fun found => ?_
  refine ⟨rfl, { alike with vertices := ?_ }⟩
  dsimp only [Action.modify_apply]
  rw [modifyVertex, modifyVertex, alike.vertices]

theorem Alike.insertEdge (alike : g.Alike h) (tail head : Endpoint) (attrs : Keywords) :
    SameAnswer (g.insertEdge tail head attrs) (h.insertEdge tail head attrs) := by
  obtain ⟨others, related, rfl⟩ := alike.exists_subgraphs
  exact ⟨rfl, alike_subgraphs related⟩

theorem Alike.addEdge (alike : g.Alike h) (tail head : Value) (attrs : Keywords) :
    SameAnswer (g.addEdge tail head attrs) (h.addEdge tail head attrs) := by
  refine .checkSame _ alike fun _ => .askSame alike (alike.endpoint tail) fun t =>
    .askSame alike (alike.endpoint head) fun u => ?_
  obtain ⟨numbers, grown⟩ := alike.insertEdge t u attrs
  exact ⟨congrArg Except.ok numbers, grown⟩

theorem Alike.addEdges (alike : g.Alike h) (attrs : Keywords) (pairs : List (Value × Value)) :
    SameAnswer (g.addEdges attrs pairs) (h.addEdges attrs pairs) := by
  induction pairs generalizing g h with
  | nil => exact ⟨rfl, alike⟩
  | cons pair rest ih =>
      obtain ⟨tail, head⟩ := pair
      exact (alike.addEdge tail head attrs).bind fun id g' h' grown =>
        (ih grown).bind fun ids _ _ final => ⟨rfl, final⟩

theorem Alike.chain (alike : g.Alike h) (endpoints : Value) (attrs : Keywords) :
    SameAnswer (g.chain endpoints attrs) (h.chain endpoints attrs) :=
  .checkSame _ alike fun _ => .checkSame _ alike fun items => alike.addEdges attrs (links items)

theorem Alike.fanOut (alike : g.Alike h) (tail heads : Value) (attrs : Keywords) :
    SameAnswer (g.fanOut tail heads attrs) (h.fanOut tail heads attrs) :=
  .checkSame _ alike fun _ => .checkSame _ alike fun _ =>
    .askSame alike (endpoints_congr alike.vertices _) fun _ => alike.addEdges attrs _

theorem Alike.updateEdge (alike : g.Alike h) (id : Value) (attrs : Keywords) :
    SameAnswer (g.updateEdge id attrs) (h.updateEdge id attrs) := by
  refine .checkSame _ alike fun _ => .askSame alike (alike.edge id) fun found => ?_
  refine ⟨rfl, { alike with edges := ?_ }⟩
  simp only [Action.modify_bind, Action.modify_apply, modifyEdge, alike.edges]

theorem Alike.removeEdge (alike : g.Alike h) (id : Value) :
    SameAnswer (g.removeEdge id) (h.removeEdge id) := by
  refine .askSame alike (alike.edge id) fun found => ⟨rfl, { alike with edges := ?_ }⟩
  simp only [Action.modify_apply, alike.edges]

theorem Alike.replaceSubgraph (alike : g.Alike h) {s t : Subgraph} (same : s.Alike t) :
    (g.replaceSubgraph s).Alike (h.replaceSubgraph t) := by
  refine { alike with subgraphs := ?_ }
  rw [Graph.replaceSubgraph, Graph.replaceSubgraph, List.forall₂_map_left_iff,
    List.forall₂_map_right_iff]
  refine alike.subgraphs.imp fun u v related => ?_
  rw [related.name, same.name]
  split
  · exact same
  · exact related

theorem Alike.takeSubgraphNumber (alike : g.Alike h) :
    g.takeSubgraphNumber.1 = h.takeSubgraphNumber.1 ∧
      g.takeSubgraphNumber.2.Alike h.takeSubgraphNumber.2 :=
  ⟨alike.nextSubgraph, { alike with nextSubgraph := congrArg (· + 1) alike.nextSubgraph }⟩

theorem Alike.storeSubgraph (alike : g.Alike h) {s t : Subgraph} (same : s.Alike t) :
    (g.storeSubgraph s).2.Alike (h.storeSubgraph t).2 :=
  { alike with subgraphs := List.rel_append alike.subgraphs (.cons same .nil) }

theorem Alike.addGroup (alike : g.Alike h) (isCluster : Bool) (ids : Value)
    (properties : Keywords) :
    SameAnswer (g.addGroup isCluster ids properties) (h.addGroup isCluster ids properties) := by
  refine .checkSame _ alike fun _ => .checkSame _ alike fun members =>
    .askSame alike (alike.checkMembers none members) fun _ => ?_
  obtain ⟨numbers, numbered⟩ := alike.takeSubgraphNumber
  rw [Action.change_bind, Action.change_bind, numbers]
  exact .checkSame _ numbered fun s => ⟨rfl, numbered.storeSubgraph (.refl s)⟩

theorem Alike.addToSubgraph (alike : g.Alike h) (id ids : Value) :
    SameAnswer (g.addToSubgraph id ids) (h.addToSubgraph id ids) := by
  refine .ask alike (alike.subgraph id) fun s t same => .checkSame _ alike fun members => ?_
  rw [same.name]
  exact .askSame alike (alike.checkMembers _ members) fun _ =>
    ⟨rfl, alike.replaceSubgraph (same.addMembers _)⟩

theorem Alike.removeFromSubgraph (alike : g.Alike h) (id ids : Value) :
    SameAnswer (g.removeFromSubgraph id ids) (h.removeFromSubgraph id ids) := by
  refine .ask alike (alike.subgraph id) fun s t same => ?_
  have removed : Agree Subgraph.Alike (s.remove ids) (t.remove ids) :=
    .after _ fun vs => same.removeMembers vs
  exact .check alike removed fun s' t' same' => ⟨rfl, alike.replaceSubgraph same'⟩

theorem Alike.updateSubgraph (alike : g.Alike h) (id : Value) (properties : Keywords) :
    SameAnswer (g.updateSubgraph id properties) (h.updateSubgraph id properties) := by
  refine .checkSame _ alike fun _ => .ask alike (alike.subgraph id) fun s t same => ?_
  obtain ⟨results, changed⟩ := same.setProperties properties.entries
  exact ⟨results, alike.replaceSubgraph changed⟩

theorem Alike.removeSubgraph (alike : g.Alike h) (id : Value) :
    SameAnswer (g.removeSubgraph id) (h.removeSubgraph id) := by
  refine .ask alike (alike.subgraph id) fun s t same => ⟨rfl, { alike with subgraphs := ?_ }⟩
  refine List.rel_filter (fun u v related => ?_) alike.subgraphs
  simp only [related.name, same.name]

theorem dropMember_alike {subgraphs others : List Subgraph}
    (related : List.Forall₂ Subgraph.Alike subgraphs others) (id : Value) :
    (dropMember id subgraphs).1 = (dropMember id others).1 ∧
      List.Forall₂ Subgraph.Alike (dropMember id subgraphs).2 (dropMember id others).2 := by
  induction related with
  | nil => exact ⟨rfl, .nil⟩
  | @cons s t _ _ first later ih =>
      have removed := first.removeMembers [id]
      rw [dropMember, dropMember]
      generalize s.removeMembers [id] = here at removed ⊢
      generalize t.removeMembers [id] = there at removed ⊢
      cases removed with
      | refused e => exact ⟨rfl, .cons first later⟩
      | answered same => exact ⟨ih.1, .cons same ih.2⟩

theorem Alike.dropMemberships (alike : g.Alike h) (id : Value) :
    SameAnswer (g.dropMemberships id) (h.dropMemberships id) := by
  obtain ⟨results, related⟩ := dropMember_alike alike.subgraphs id
  exact ⟨results, { alike with subgraphs := related }⟩

theorem Alike.removeVertex (alike : g.Alike h) (id : Value) :
    SameAnswer (g.removeVertex id) (h.removeVertex id) := by
  refine .askSame alike (alike.vertex id) fun found => ?_
  rw [Action.modify_bind, Action.modify_bind]
  have detached : Graph.Alike
      { g with edges := g.edges.filter fun e => !e.touches found.id }
      { h with edges := h.edges.filter fun e => !e.touches found.id } :=
    { alike with edges := by rw [alike.edges] }
  refine (detached.dropMemberships id).bind fun _ g' h' left => ⟨rfl, { left with vertices := ?_ }⟩
  dsimp only [Action.modify_apply]
  rw [left.vertices]

/-! ## All calls -/

theorem SameAnswer.outcome {α : Type} {reply : α → Reply} {action act : Action α}
    {call other : Call} (ends : call.action = reply <$> action)
    (other_ends : other.action = reply <$> act) (same : SameAnswer (action g) (act h)) :
    (g.perform call).Alike (h.perform other) := by
  rw [perform_map ends, perform_map other_ends]
  obtain ⟨result, graph⟩ := same.map reply
  exact ⟨result, graph⟩

theorem Alike.perform (alike : g.Alike h) (call : Call) :
    (g.perform call).Alike (h.perform call) := by
  cases call with
  | addVertex label attrs => exact (alike.addVertex label attrs).outcome rfl rfl
  | addRecord record => exact (alike.addRecord record).outcome rfl rfl
  | addHtmlRecord record attrs => exact (alike.addHtmlRecord record attrs).outcome rfl rfl
  | addEdge tail head attrs => exact (alike.addEdge tail head attrs).outcome rfl rfl
  | chain endpoints attrs => exact (alike.chain endpoints attrs).outcome rfl rfl
  | fanOut tail heads attrs => exact (alike.fanOut tail heads attrs).outcome rfl rfl
  | addSubgraph ids properties => exact (alike.addGroup false ids properties).outcome rfl rfl
  | addCluster ids properties => exact (alike.addGroup true ids properties).outcome rfl rfl
  | setGraphProperty key value => exact (alike.setGraphProperty key value).outcome rfl rfl
  | setGlobalProperties kind attrs => exact (alike.setGlobalProperties kind attrs).outcome rfl rfl
  | updateVertex id attrs => exact (alike.updateVertex id attrs).outcome rfl rfl
  | updateEdge id attrs => exact (alike.updateEdge id attrs).outcome rfl rfl
  | updateSubgraph id properties => exact (alike.updateSubgraph id properties).outcome rfl rfl
  | addToSubgraph id ids => exact (alike.addToSubgraph id ids).outcome rfl rfl
  | removeFromSubgraph id ids => exact (alike.removeFromSubgraph id ids).outcome rfl rfl
  | removeVertex id => exact (alike.removeVertex id).outcome rfl rfl
  | removeEdge id => exact (alike.removeEdge id).outcome rfl rfl
  | removeSubgraph id => exact (alike.removeSubgraph id).outcome rfl rfl

end Graph
end DotDoc
