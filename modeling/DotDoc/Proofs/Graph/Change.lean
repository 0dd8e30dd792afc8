import DotDoc.Proofs.Graph.Members
import Mathlib.Logic.Relation

/-!
# Elementary changes of a graph

Operations lead from one graph to the next through a few kinds of elementary changes, which
`Change` lists with the conditions that the operation checks before them.  Each operation is taken
apart once, here, along its steps.  A `Revision` is a change that takes no number from a counter; an
operation that creates something inserts a vertex or a subgraph, or one edge after the other.

Most operations do all of their work or none of it: every step that can be refused comes before the
first change.  Two of them have steps behind a change that could be refused, and cannot be.  A fan
adds its edges after all its ends were found; adding an edge looks its ends up again, but a new edge
leaves the vertices as they are.  Removing a vertex compares it with the members of all subgraphs,
after its edges are gone, and vertices are the only members.
-/

set_option autoImplicit false

namespace DotDoc

/-- The edge with the ports that are given as arguments, and with the other arguments as
attributes. -/
def Edge.update (changes : Keywords) (e : Edge) : Edge :=
  { e with
    tail := repoint (changes.find? "outport") e.tail
    head := repoint (changes.find? "inport") e.head
    attrs := e.attrs.putAll ((changes.erase "outport").erase "inport").entries }

namespace Graph

inductive Change (g : Graph) : Graph → Prop
  | storeAttribute (key value : Value) : Change g { g with attrs := g.attrs.store key value }
  | storeVertexDefaults (added : Entries Value) :
      Change g { g with vertexDefaults := g.vertexDefaults.putAll added }
  | storeEdgeDefaults (added : Entries Value) :
      Change g { g with edgeDefaults := g.edgeDefaults.putAll added }
  | insertVertex (label : Value) (attrs : Keywords) (given : label.isUnset = false) :
      Change g (g.insertVertex label attrs).2
  | updateVertex (v : Vertex) (stored : v ∈ g.vertices) (added : Entries Value) :
      Change g (g.modifyVertex v.id fun v => { v with attrs := v.attrs.putAll added })
  | insertEdge (tail head : Endpoint) (attrs : Keywords)
      (tail_found : g.EndsAt tail) (head_found : g.EndsAt head) :
      Change g (g.insertEdge tail head attrs).2
  | updateEdge (e : Edge) (stored : e ∈ g.edges) (attrs : Keywords) :
      Change g (g.modifyEdge e.id fun e => e.update attrs)
  | removeEdge (e : Edge) (stored : e ∈ g.edges) :
      Change g { g with edges := g.edges.filter fun f => f.id ≠ e.id }
  /-- The number of a subgraph that is refused for a property is lost. -/
  | skipNumber : Change g { g with nextSubgraph := g.nextSubgraph + 1 }
  | insertSubgraph (isCluster : Bool) (ids : List Value) (properties : Keywords) (s : Subgraph)
      (free : g.checkMembers none ids = .ok ())
      (created : Subgraph.create g.nextSubgraph isCluster (ids.map Value.plain) properties
        = .ok s) :
      Change g { g with nextSubgraph := g.nextSubgraph + 1, subgraphs := g.subgraphs ++ [s] }
  | addMembers (s : Subgraph) (stored : s ∈ g.subgraphs) (ids : List Value)
      (free : g.checkMembers (some s.name) ids = .ok ()) :
      Change g (g.replaceSubgraph (s.addMembers (ids.map Value.plain)))
  | removeMembers (s : Subgraph) (stored : s ∈ g.subgraphs) (members : List Value) :
      Change g (g.replaceSubgraph (s.without members))
  | setProperties (s : Subgraph) (stored : s ∈ g.subgraphs) (properties : Entries Value) :
      Change g (g.replaceSubgraph (Subgraph.setProperties properties s).2)
  | removeSubgraph (s : Subgraph) (stored : s ∈ g.subgraphs) :
      Change g { g with subgraphs := g.subgraphs.filter fun t => t.name ≠ s.name }
  | removeVertex (v : Vertex) (stored : v ∈ g.vertices) (id : Value)
      (named : id.integer? = some (v.id : Int)) :
      Change g { g with
        edges := g.edges.filter fun e => !e.touches v.id
        subgraphs := g.subgraphs.map (Subgraph.without [id])
        vertices := g.vertices.filter fun u => u.id ≠ v.id }

abbrev Changes : Graph → Graph → Prop :=
  Relation.ReflTransGen Change

variable {g g' : Graph}

theorem Change.changes (change : Change g g') : Changes g g' :=
  .single change

/-- A refusal that leaves the graph, or an answer and a graph of which something holds. -/
inductive WholeOrNothing {α : Type} (g : Graph) (P : α → Graph → Prop) :
    Except Error α × Graph → Prop
  | refused (e : Error) : WholeOrNothing g P (.error e, g)
  | done {answer : α} {after : Graph} (holds : P answer after) :
      WholeOrNothing g P (.ok answer, after)

namespace WholeOrNothing

variable {α β : Type} {P : α → Graph → Prop}

theorem ask {question : Graph → Except Error β} {next : β → Action α}
    (goes_on : ∀ answer, question g = .ok answer → WholeOrNothing g P (next answer g)) :
    WholeOrNothing g P ((Action.ask question >>= next) g) := by
  rw [Action.ask_bind]
  cases asked : question g with
  | error e => exact .refused e
  | ok answer => exact goes_on answer asked

theorem check {test : Except Error β} {next : β → Action α}
    (goes_on : ∀ answer, test = .ok answer → WholeOrNothing g P (next answer g)) :
    WholeOrNothing g P ((liftM test >>= next : Action α) g) := by
  rw [Action.check_bind]
  cases tested : test with
  | error e => exact .refused e
  | ok answer => exact goes_on answer tested

theorem imp {Q : α → Graph → Prop} {ends : Except Error α × Graph}
    (whole : WholeOrNothing g P ends) (weaker : ∀ answer after, P answer after → Q answer after) :
    WholeOrNothing g Q ends := by
  cases whole with
  | refused e => exact .refused e
  | done holds => exact .done (weaker _ _ holds)

theorem of_ok {ends : Except Error α × Graph} {answer : α} (whole : WholeOrNothing g P ends)
    (answered : ends.1 = .ok answer) : P answer ends.2 := by
  cases whole with
  | refused e => cases answered
  | done holds =>
      cases answered
      exact holds

end WholeOrNothing

/-! ## Changes without a new element -/

def counters (g : Graph) : Nat × Nat × Nat :=
  (g.nextVertex, g.nextEdge, g.nextSubgraph)

/-- A change that creates nothing. -/
structure Revision (g g' : Graph) : Prop where
  change : Change g g'
  counters_kept : g'.counters = g.counters

theorem setGraphProperty_revision (key value : Value) (g : Graph) :
    WholeOrNothing g (fun _ => Revision g) (g.setGraphProperty key value) := by
  refine .ask fun list stored => .done ?_
  unfold AttrList.set at stored
  split at stored
  · cases stored
  · cases stored
    exact ⟨.storeAttribute key value, rfl⟩

theorem setGlobalProperties_revision (kind : Value) (attrs : Keywords) (g : Graph) :
    WholeOrNothing g (fun _ => Revision g) (g.setGlobalProperties kind attrs) := by
  refine .check fun _ _ => ?_
  split
  · exact .done ⟨.storeVertexDefaults attrs.entries, rfl⟩
  · exact .done ⟨.storeEdgeDefaults attrs.entries, rfl⟩
  · exact .refused _

theorem updateVertex_revision (id : Value) (attrs : Keywords) (g : Graph) :
    WholeOrNothing g (fun _ => Revision g) (g.updateVertex id attrs) := by
  refine .check fun _ _ => .ask fun v found => .done ?_
  exact ⟨.updateVertex v (vertex_eq_ok found).1 attrs.entries, rfl⟩

theorem modifyEdge_modifyEdge {f h : Edge → Edge} (number_kept : ∀ e, (f e).id = e.id) (id : Nat)
    (g : Graph) : (g.modifyEdge id f).modifyEdge id h = g.modifyEdge id (h ∘ f) := by
  simp only [modifyEdge, List.map_map]
  congr 1
  refine List.map_congr_left fun e _ => ?_
  by_cases here : e.id = id
  · simp [here, number_kept]
  · simp [here]

theorem modifyEdge_update (attrs : Keywords) (id : Nat) (g : Graph) :
    ((g.modifyEdge id (Edge.repointTail (attrs.find? "outport"))).modifyEdge id
      (Edge.repointHead (attrs.find? "inport"))).modifyEdge id
        (Edge.store ((attrs.erase "outport").erase "inport"))
      = g.modifyEdge id (Edge.update attrs) := by
  have tail_kept (e : Edge) : (e.repointTail (attrs.find? "outport")).id = e.id := rfl
  have ends_kept (e : Edge) :
      ((Edge.repointHead (attrs.find? "inport") ∘ Edge.repointTail (attrs.find? "outport")) e).id
        = e.id := rfl
  rw [modifyEdge_modifyEdge tail_kept, modifyEdge_modifyEdge ends_kept]
  rfl

theorem updateEdge_revision (id : Value) (attrs : Keywords) (g : Graph) :
    WholeOrNothing g (fun _ => Revision g) (g.updateEdge id attrs) := by
  refine .check fun _ _ => .ask fun e found => .done ?_
  rw [modifyEdge_update]
  exact ⟨.updateEdge e (edge_eq_ok found).1 attrs, rfl⟩

theorem removeEdge_revision (id : Value) (g : Graph) :
    WholeOrNothing g (fun _ => Revision g) (g.removeEdge id) := by
  refine .ask fun e found => .done ?_
  exact ⟨.removeEdge e (edge_eq_ok found).1, rfl⟩

theorem addToSubgraph_revision (id ids : Value) (g : Graph) :
    WholeOrNothing g (fun _ => Revision g) (g.addToSubgraph id ids) := by
  refine .ask fun s found => .check fun members _ => .ask fun _ free => .done ?_
  exact ⟨.addMembers s (subgraph_eq_ok found).1 members free, rfl⟩

theorem removeFromSubgraph_revision (id ids : Value) (g : Graph) :
    WholeOrNothing g (fun _ => Revision g) (g.removeFromSubgraph id ids) := by
  refine .ask fun s found => .check fun t removed => .done ?_
  obtain ⟨members, _, removed⟩ := bind_eq_ok_iff.1 removed
  rw [Subgraph.removeMembers_eq_ok removed]
  exact ⟨.removeMembers s (subgraph_eq_ok found).1 members, rfl⟩

theorem removeSubgraph_revision (id : Value) (g : Graph) :
    WholeOrNothing g (fun _ => Revision g) (g.removeSubgraph id) := by
  refine .ask fun s found => .done ?_
  exact ⟨.removeSubgraph s (subgraph_eq_ok found).1, rfl⟩

/-- An update is refused at once, or it stores properties up to the first that is refused. -/
theorem updateSubgraph_cases (id : Value) (properties : Keywords) (g : Graph) :
    (∃ e, g.updateSubgraph id properties = (.error e, g)) ∨
      ∃ result g', g.updateSubgraph id properties = (result, g') ∧ Revision g g' := by
  unfold updateSubgraph
  rw [Action.check_bind]
  cases properties.checkNames ["sid"] with
  | error e => exact .inl ⟨e, rfl⟩
  | ok _ =>
      dsimp only
      rw [Action.ask_bind]
      cases found : g.subgraph id with
      | error e => exact .inl ⟨e, rfl⟩
      | ok s =>
          have stored := (subgraph_eq_ok found).1
          exact .inr ⟨_, _, rfl, .setProperties s stored properties.entries, rfl⟩

theorem dropMember_of_hashable {id : Value} {subgraphs : List Subgraph}
    (key : id.isHashable = true) (comparable : ∀ s ∈ subgraphs, s.isWritable = true) :
    dropMember id subgraphs = (.ok (), subgraphs.map (Subgraph.without [id])) := by
  have keys : Value.allHashable [id] = true := by simp [Value.allHashable, key]
  induction subgraphs with
  | nil => rfl
  | cons s rest ih =>
      have first := Subgraph.removeMembers_of_hashable keys (comparable s (List.mem_cons_self ..))
      have later := ih fun t member => comparable t (List.mem_cons_of_mem _ member)
      simp [dropMember, first, later]

theorem removeVertex_of_found (writable : g.isWritable = true) {id : Value} {v : Vertex}
    (found : g.vertex id = .ok v) :
    g.removeVertex id = (.ok (), { g with
      edges := g.edges.filter fun e => !e.touches v.id
      subgraphs := g.subgraphs.map (Subgraph.without [id])
      vertices := g.vertices.filter fun u => u.id ≠ v.id }) := by
  have key : id.isHashable = true := Value.isHashable_of_integer (vertex_eq_ok found).2
  have dropped : dropMember id g.subgraphs = _ :=
    dropMember_of_hashable key (List.all_eq_true.1 writable)
  unfold removeVertex
  rw [Action.ask_bind, found]
  dsimp only
  rw [Action.modify_bind, Action.bind_apply, dropMemberships]
  simp only [dropped]
  rfl

theorem removeVertex_revision (writable : g.isWritable = true) (id : Value) :
    WholeOrNothing g (fun _ => Revision g) (g.removeVertex id) := by
  cases found : g.vertex id with
  | error e =>
      have refused : g.removeVertex id = (.error e, g) := by
        rw [removeVertex, Action.ask_bind, found]
      rw [refused]
      exact .refused e
  | ok v =>
      rw [removeVertex_of_found writable found]
      obtain ⟨stored, named⟩ := vertex_eq_ok found
      exact .done ⟨.removeVertex v stored id named, rfl⟩

theorem addVertex_whole (label : Value) (attrs : Keywords) (g : Graph) :
    WholeOrNothing g
      (fun n g' => label.isUnset = false ∧ (n, g') = g.insertVertex label attrs)
      (g.addVertex label attrs) := by
  refine .check fun _ _ => ?_
  split
  · exact .refused _
  · rename_i given
    exact .done ⟨by simpa using given, rfl⟩

theorem addRecord_whole (record : Value) (g : Graph) :
    WholeOrNothing g
      (fun n g' => ∃ label attrs, label.isUnset = false ∧ (n, g') = g.insertVertex label attrs)
      (g.addRecord record) := by
  refine .check fun label _ => ?_
  split
  · exact (addVertex_whole label _ g).imp fun _ _ added => ⟨label, _, added⟩
  · exact .refused _

theorem addHtmlRecord_whole (record : Value) (attrs : Keywords) (g : Graph) :
    WholeOrNothing g
      (fun n g' => ∃ label attrs, label.isUnset = false ∧ (n, g') = g.insertVertex label attrs)
      (g.addHtmlRecord record attrs) := by
  refine .check fun _ _ => .check fun label _ => ?_
  exact (addVertex_whole label _ g).imp fun _ _ added => ⟨label, _, added⟩

/-- Edges are inserted one after the other, and take the given numbers. -/
inductive Connects : Graph → List Nat → Graph → Prop
  | none (g : Graph) : Connects g [] g
  | insert {g g' : Graph} {numbers : List Nat} (tail head : Endpoint) (attrs : Keywords)
      (tail_found : g.EndsAt tail) (head_found : g.EndsAt head)
      (later : Connects (g.insertEdge tail head attrs).2 numbers g') :
      Connects g (g.nextEdge :: numbers) g'

theorem addEdge_whole (tail head : Value) (attrs : Keywords) (g : Graph) :
    WholeOrNothing g
      (fun n g' => ∃ t h, g.endpoint tail = .ok t ∧ g.endpoint head = .ok h ∧
        (n, g') = g.insertEdge t h attrs)
      (g.addEdge tail head attrs) := by
  refine .check fun _ _ => .ask fun t tail_found => .ask fun h head_found => .done ?_
  exact ⟨t, h, tail_found, head_found, rfl⟩

theorem addEdge_connects (tail head : Value) (attrs : Keywords) (g : Graph) :
    WholeOrNothing g (fun n g' => Connects g [n] g') (g.addEdge tail head attrs) := by
  refine (addEdge_whole tail head attrs g).imp fun n g' added => ?_
  obtain ⟨t, h, tail_found, head_found, inserted⟩ := added
  cases inserted
  exact .insert t h attrs (endpoint_eq_ok tail_found) (endpoint_eq_ok head_found) (.none _)

theorem Connects.trans {g'' : Graph} {first second : List Nat} (before : Connects g first g')
    (after : Connects g' second g'') : Connects g (first ++ second) g'' := by
  induction before with
  | none g => exact after
  | insert tail head attrs tail_found head_found _ ih =>
      exact .insert tail head attrs tail_found head_found (ih after)

theorem addEdges_cons (attrs : Keywords) (tail head : Value) (rest : List (Value × Value))
    (g : Graph) :
    g.addEdges attrs ((tail, head) :: rest) = match g.addEdge tail head attrs with
      | (.error e, after) => (.error e, after)
      | (.ok id, grown) => ((grown.addEdges attrs rest).1.map (id :: ·),
          (grown.addEdges attrs rest).2) := by
  rw [addEdges, Action.bind_apply]
  generalize g.addEdge tail head attrs = ends
  obtain ⟨result, grown⟩ := ends
  cases result with
  | error e => rfl
  | ok id => exact Action.map_apply grown (id :: ·) (addEdges attrs rest)

theorem addEdges_connects (attrs : Keywords) (pairs : List (Value × Value)) (g : Graph) :
    ∃ numbers, Connects g numbers (g.addEdges attrs pairs).2 ∧
      ∀ answer, (g.addEdges attrs pairs).1 = .ok answer → answer = numbers := by
  induction pairs generalizing g with
  | nil => exact ⟨[], .none g, fun _ whole => (Except.ok.inj whole).symm⟩
  | cons pair rest ih =>
      obtain ⟨tail, head⟩ := pair
      rw [addEdges_cons]
      have added := addEdge_connects tail head attrs g
      generalize g.addEdge tail head attrs = ends at added ⊢
      cases added with
      | refused e => exact ⟨[], .none g, nofun⟩
      | @done number grown connected =>
          obtain ⟨later, rest_connected, answered⟩ := ih grown
          refine ⟨number :: later, connected.trans rest_connected, ?_⟩
          intro numbers whole
          dsimp only at whole
          cases result : (grown.addEdges attrs rest).1 with
          | error e =>
              rw [result] at whole
              cases whole
          | ok ids =>
              rw [result] at whole
              cases whole
              rw [answered ids result]

theorem chain_connects (endpoints : Value) (attrs : Keywords) (g : Graph) :
    ∃ numbers, Connects g numbers (g.chain endpoints attrs).2 ∧
      ∀ answer, (g.chain endpoints attrs).1 = .ok answer → answer = numbers := by
  unfold chain
  rw [Action.check_bind]
  split
  · rw [Action.check_bind]
    split
    · exact addEdges_connects attrs _ g
    · exact ⟨[], .none g, nofun⟩
  · exact ⟨[], .none g, nofun⟩

theorem endpoint_congr (vertices : g'.vertices = g.vertices) (v : Value) :
    g'.endpoint v = g.endpoint v := by
  simp only [endpoint, vertex, findVertex, vertices]

theorem endpoints_congr (vertices : g'.vertices = g.vertices) (items : List Value) :
    g'.endpoints items = g.endpoints items := by
  induction items with
  | nil => rfl
  | cons item rest ih => rw [endpoints, endpoints, endpoint_congr vertices, ih]

theorem addEdge_of_found {tail head : Value} {t h : Endpoint} {attrs : Keywords}
    (free : attrs.clashesWith ["tail", "head"] = false)
    (tail_found : g.endpoint tail = .ok t) (head_found : g.endpoint head = .ok h) :
    g.addEdge tail head attrs = (.ok g.nextEdge, (g.insertEdge t h attrs).2) := by
  simp only [addEdge, Action.check_bind, Keywords.checkNames_of_free free, Action.ask_bind,
    tail_found, head_found]
  rfl

theorem addEdge_of_clash {attrs : Keywords} (tail head : Value)
    (clash : attrs.clashesWith ["tail", "head"] = true) (g : Graph) :
    g.addEdge tail head attrs = (.error .wrongType, g) := by
  simp only [addEdge, Action.check_bind, Keywords.checkNames, if_pos clash]

/-- Once all ends are found, adding the edges one by one adds them all. -/
theorem addEdges_fan {tail : Value} {t : Endpoint} {attrs : Keywords} {items : List Value}
    {ends : List Endpoint} (free : attrs.clashesWith ["tail", "head"] = false)
    (tail_found : g.endpoint tail = .ok t) (heads_found : g.endpoints items = .ok ends) :
    ∃ numbers g', g.addEdges attrs (items.map fun head => (tail, head)) = (.ok numbers, g') ∧
      numbers.length = items.length ∧ Connects g numbers g' := by
  induction items generalizing g ends with
  | nil => exact ⟨[], g, rfl, rfl, .none g⟩
  | cons item rest ih =>
      obtain ⟨h, head_found, later⟩ := bind_eq_ok_iff.1 heads_found
      obtain ⟨others, rest_found, -⟩ := bind_eq_ok_iff.1 later
      have vertices : (g.insertEdge t h attrs).2.vertices = g.vertices := rfl
      obtain ⟨numbers, g', added, as_many, connected⟩ := ih
        ((endpoint_congr vertices tail).trans tail_found)
        ((endpoints_congr vertices rest).trans rest_found)
      refine ⟨g.nextEdge :: numbers, g', ?_, congrArg Nat.succ as_many,
        .insert t h attrs (endpoint_eq_ok tail_found) (endpoint_eq_ok head_found) connected⟩
      rw [List.map_cons, addEdges_cons, addEdge_of_found free tail_found head_found]
      simp only [added]
      rfl

/-- Looking up before adding makes a fan add all its edges or none. -/
theorem fanOut_whole (tail heads : Value) (attrs : Keywords) (g : Graph) :
    WholeOrNothing g
      (fun numbers g' => ∃ items, heads.elements = .ok items ∧ numbers.length = items.length ∧
        Connects g numbers g')
      (g.fanOut tail heads attrs) := by
  refine .check fun _ _ => .check fun items listed => .ask fun ends found => ?_
  obtain ⟨t, tail_found, rest⟩ := bind_eq_ok_iff.1 found
  obtain ⟨others, heads_found, -⟩ := bind_eq_ok_iff.1 rest
  cases clash : attrs.clashesWith ["tail", "head"] with
  | false =>
      obtain ⟨numbers, g', added, connected⟩ := addEdges_fan clash tail_found heads_found
      rw [added]
      exact .done ⟨items, listed, connected⟩
  | true =>
      cases items with
      | nil => exact .done ⟨[], listed, rfl, .none g⟩
      | cons item rest =>
          rw [List.map_cons, addEdges_cons, addEdge_of_clash tail item clash]
          exact .refused _

/-- Grouping is refused at once, or refused for a layer after a number was taken, or it adds a
subgraph of this number. -/
theorem addGroup_cases (isCluster : Bool) (ids : Value) (properties : Keywords) (g : Graph) :
    (∃ e, g.addGroup isCluster ids properties = (.error e, g) ∧ e.aboutLayer = false) ∨
    (∃ e, g.addGroup isCluster ids properties
        = (.error e, { g with nextSubgraph := g.nextSubgraph + 1 }) ∧
      Subgraph.LayerFault properties.entries e) ∨
    ∃ members s, g.checkMembers none members = .ok () ∧
      Subgraph.create g.nextSubgraph isCluster (members.map Value.plain) properties = .ok s ∧
      g.addGroup isCluster ids properties = (.ok s.name,
        { g with nextSubgraph := g.nextSubgraph + 1, subgraphs := g.subgraphs ++ [s] }) := by
  simp only [addGroup, Action.check_bind, Action.ask_bind, Action.change_bind]
  split
  · split
    · rename_i members _
      split
      · rename_i free
        cases created : Subgraph.create g.nextSubgraph isCluster (members.map Value.plain)
          properties with
        | error e =>
            refine .inr (.inl ⟨e, ?_, Subgraph.create_fault created⟩)
            simp only [takeSubgraphNumber, created]
        | ok s =>
            refine .inr (.inr ⟨members, s, free, created, ?_⟩)
            simp only [takeSubgraphNumber, created]
            rfl
      · rename_i e not_free
        exact .inl ⟨e, rfl, checkMembers_refusal not_free⟩
    · rename_i e not_listed
      exact .inl ⟨e, rfl, Value.elements_refusal not_listed⟩
  · rename_i e clash
    refine .inl ⟨e, rfl, ?_⟩
    unfold Keywords.checkNames at clash
    split at clash
    · cases clash
      rfl
    · cases clash

end Graph
end DotDoc
