import DotDoc.Proofs.Graph.Change

/-!
# What calls do

`Effect` lists the ways in which a call can end: its answer together with the graph afterwards.
Every call ends in one of them (`perform_effect`), so what is to be shown of all calls is shown of
each way.  In particular every call, refused or not, is a sequence of elementary changes, and what
these keep holds of every graph that calls lead to.
-/

set_option autoImplicit false

namespace DotDoc

inductive Purpose where
  | vertex
  | edges
  | group
  | revision
  deriving DecidableEq

namespace Call

def purpose : Call → Purpose
  | addVertex _ _ => .vertex
  | addRecord _ => .vertex
  | addHtmlRecord _ _ => .vertex
  | addEdge _ _ _ => .edges
  | chain _ _ => .edges
  | fanOut _ _ _ => .edges
  | addSubgraph _ _ => .group
  | addCluster _ _ => .group
  | _ => .revision

/-- Whether a refused call keeps what it did before the refusal. -/
def keepsPart : Call → Bool
  | chain _ _ => true
  | updateSubgraph _ _ => true
  | _ => false

def properties : Call → Entries Value
  | addSubgraph _ properties => properties.entries
  | addCluster _ properties => properties.entries
  | _ => []

end Call

def Reply.numbers : Reply → List Nat
  | element id => [id]
  | elements ids => ids
  | _ => []

namespace Graph

/-- How a call can end. -/
inductive Effect (g : Graph) : Call → Except Error Reply → Graph → Prop
  | refused {call : Call} {e : Error} (fault : call.purpose = .group → e.aboutLayer = false) :
      Effect g call (.error e) g
  /-- A new subgraph is refused for a layer, after its number was taken. -/
  | numberLost {call : Call} {e : Error} (purpose : call.purpose = .group)
      (fault : Subgraph.LayerFault call.properties e) :
      Effect g call (.error e) { g with nextSubgraph := g.nextSubgraph + 1 }
  | vertexAdded {call : Call} (purpose : call.purpose = .vertex) (label : Value)
      (attrs : Keywords) (given : label.isUnset = false) :
      Effect g call (.ok (.element g.nextVertex)) (g.insertVertex label attrs).2
  /-- Edges are added; only a chain can be refused after some of them. -/
  | edgesAdded {call : Call} {result : Except Error Reply} {numbers : List Nat} {g' : Graph}
      (purpose : call.purpose = .edges) (connected : Connects g numbers g')
      (answered : ∀ reply, result = .ok reply → reply.numbers = numbers)
      (part : ∀ e, result = .error e → call.keepsPart = true) : Effect g call result g'
  | groupAdded {call : Call} (purpose : call.purpose = .group) (isCluster : Bool)
      (ids : List Value) (properties : Keywords) (s : Subgraph)
      (free : g.checkMembers none ids = .ok ())
      (created : Subgraph.create g.nextSubgraph isCluster (ids.map Value.plain) properties
        = .ok s) :
      Effect g call (.ok (.subgraph s.name))
        { g with nextSubgraph := g.nextSubgraph + 1, subgraphs := g.subgraphs ++ [s] }
  | revised {call : Call} {g' : Graph} (purpose : call.purpose = .revision)
      (revision : Revision g g') : Effect g call (.ok .done) g'
  /-- An update is refused for a property after others were stored. -/
  | brokenOff {call : Call} {e : Error} {g' : Graph} (purpose : call.purpose = .revision)
      (part : call.keepsPart = true) (revision : Revision g g') : Effect g call (.error e) g'

variable {g : Graph} {call : Call}

theorem vertex_effect {action : Action Nat} (purpose : call.purpose = .vertex)
    (ends : call.action = .element <$> action)
    (added : WholeOrNothing g
      (fun n g' => ∃ label attrs, label.isUnset = false ∧ (n, g') = g.insertVertex label attrs)
      (action g)) :
    Effect g call (g.perform call).result (g.perform call).graph := by
  rw [perform_map ends]
  generalize action g = answer at added ⊢
  cases added with
  | refused e => exact .refused (by simp [purpose])
  | done inserted =>
      obtain ⟨label, attrs, given, inserted⟩ := inserted
      cases inserted
      exact .vertexAdded purpose label attrs given

theorem edges_effect {α : Type} {reply : α → Reply} {action : Action α}
    (purpose : call.purpose = .edges) (ends : call.action = reply <$> action)
    (connected : WholeOrNothing g (fun answer => Connects g (reply answer).numbers) (action g)) :
    Effect g call (g.perform call).result (g.perform call).graph := by
  rw [perform_map ends]
  generalize action g = answer at connected ⊢
  cases connected with
  | refused e => exact .refused (by simp [purpose])
  | done connected =>
      exact .edgesAdded purpose connected (fun _ same => by rw [← Except.ok.inj same]) nofun

theorem revision_effect {action : Action Unit} (purpose : call.purpose = .revision)
    (ends : call.action = .ofUnit <$> action)
    (revised : WholeOrNothing g (fun _ => Revision g) (action g)) :
    Effect g call (g.perform call).result (g.perform call).graph := by
  rw [perform_map ends]
  generalize action g = answer at revised ⊢
  cases revised with
  | refused e => exact .refused (by simp [purpose])
  | done revision => exact .revised purpose revision

theorem chain_effect (endpoints : Value) (attrs : Keywords) (g : Graph) :
    Effect g (.chain endpoints attrs) ((g.chain endpoints attrs).1.map .elements)
      (g.chain endpoints attrs).2 := by
  obtain ⟨numbers, connected, answered⟩ := chain_connects endpoints attrs g
  refine .edgesAdded rfl connected ?_ fun _ _ => rfl
  intro reply whole
  cases result : (g.chain endpoints attrs).1 with
  | error e =>
      rw [result] at whole
      cases whole
  | ok ids =>
      rw [result] at whole
      cases whole
      exact answered ids result

theorem addGroup_effect {ids : Value} {properties : Keywords} (isCluster : Bool)
    (purpose : call.purpose = .group) (given : call.properties = properties.entries) :
    Effect g call ((g.addGroup isCluster ids properties).1.map .subgraph)
      (g.addGroup isCluster ids properties).2 := by
  rcases addGroup_cases isCluster ids properties g with
    ⟨e, ends, fault⟩ | ⟨e, ends, fault⟩ | ⟨members, s, free, created, ends⟩
  · rw [ends]
    exact .refused fun _ => fault
  · rw [ends]
    exact .numberLost purpose (given ▸ fault)
  · rw [ends]
    exact .groupAdded purpose isCluster members properties s free created

theorem updateSubgraph_effect (id : Value) (properties : Keywords) (g : Graph) :
    Effect g (.updateSubgraph id properties)
      ((g.updateSubgraph id properties).1.map .ofUnit)
      (g.updateSubgraph id properties).2 := by
  rcases updateSubgraph_cases id properties g with ⟨e, ends⟩ | ⟨result, g', ends, revision⟩
  · rw [ends]
    exact .refused nofun
  · rw [ends]
    cases result with
    | error e => exact .brokenOff rfl rfl revision
    | ok _ => exact .revised rfl revision

theorem perform_effect (writable : g.isWritable = true) (call : Call) :
    Effect g call (g.perform call).result (g.perform call).graph := by
  cases call with
  | addVertex label attrs =>
      exact vertex_effect rfl rfl ((addVertex_whole label attrs g).imp fun _ _ added =>
        ⟨label, attrs, added⟩)
  | addRecord record => exact vertex_effect rfl rfl (addRecord_whole record g)
  | addHtmlRecord record attrs => exact vertex_effect rfl rfl (addHtmlRecord_whole record attrs g)
  | addEdge tail head attrs => exact edges_effect rfl rfl (addEdge_connects tail head attrs g)
  | chain endpoints attrs =>
      rw [perform_map rfl]
      exact chain_effect endpoints attrs g
  | fanOut tail heads attrs =>
      exact edges_effect rfl rfl ((fanOut_whole tail heads attrs g).imp fun _ _ added =>
        added.choose_spec.2.2)
  | addSubgraph ids properties =>
      rw [perform_map rfl]
      exact addGroup_effect false rfl rfl
  | addCluster ids properties =>
      rw [perform_map rfl]
      exact addGroup_effect true rfl rfl
  | setGraphProperty key value =>
      exact revision_effect rfl rfl (setGraphProperty_revision key value g)
  | setGlobalProperties kind attrs =>
      exact revision_effect rfl rfl (setGlobalProperties_revision kind attrs g)
  | updateVertex id attrs => exact revision_effect rfl rfl (updateVertex_revision id attrs g)
  | updateEdge id attrs => exact revision_effect rfl rfl (updateEdge_revision id attrs g)
  | updateSubgraph id properties =>
      rw [perform_map rfl]
      exact updateSubgraph_effect id properties g
  | addToSubgraph id ids => exact revision_effect rfl rfl (addToSubgraph_revision id ids g)
  | removeFromSubgraph id ids =>
      exact revision_effect rfl rfl (removeFromSubgraph_revision id ids g)
  | removeVertex id => exact revision_effect rfl rfl (removeVertex_revision writable id)
  | removeEdge id => exact revision_effect rfl rfl (removeEdge_revision id g)
  | removeSubgraph id => exact revision_effect rfl rfl (removeSubgraph_revision id g)

theorem Connects.changes {g' : Graph} {numbers : List Nat} (connected : Connects g numbers g') :
    Changes g g' := by
  induction connected with
  | none g => exact .refl
  | insert tail head attrs tail_found head_found _ ih =>
      exact (Change.insertEdge tail head attrs tail_found head_found).changes.trans ih

theorem Effect.changes {result : Except Error Reply} {g' : Graph}
    (effect : Effect g call result g') : Changes g g' := by
  cases effect with
  | refused fault => exact .refl
  | numberLost purpose fault => exact Change.skipNumber.changes
  | vertexAdded purpose label attrs given => exact (Change.insertVertex label attrs given).changes
  | edgesAdded purpose connected answered part => exact connected.changes
  | groupAdded purpose isCluster ids properties s free created =>
      exact (Change.insertSubgraph isCluster ids properties s free created).changes
  | revised purpose revision => exact revision.change.changes
  | brokenOff purpose part revision => exact revision.change.changes

theorem perform_changes (writable : g.isWritable = true) (call : Call) :
    Changes g (g.perform call).graph :=
  (perform_effect writable call).changes

end Graph
end DotDoc
