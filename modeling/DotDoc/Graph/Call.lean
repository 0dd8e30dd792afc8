import DotDoc.Graph.Edges
import DotDoc.Graph.Groups
import DotDoc.Graph.Vertices

/-!
# Calls

A `Call` is one operation on a graph with its arguments, as a value.  `Graph.perform` carries a
call out and gives its outcome: a reply or the reason of a refusal, and the graph that it leaves
either way.  `Graph.run` carries out a list of calls one after the other, whether they are refused
or not.
-/

set_option autoImplicit false

namespace DotDoc

inductive Call where
  | addVertex (label : Value) (attrs : Keywords)
  | addRecord (record : Value)
  | addHtmlRecord (record : Value) (attrs : Keywords)
  | addEdge (tail head : Value) (attrs : Keywords)
  | chain (endpoints : Value) (attrs : Keywords)
  | fanOut (tail heads : Value) (attrs : Keywords)
  | addSubgraph (ids : Value) (properties : Keywords)
  | addCluster (ids : Value) (properties : Keywords)
  | setGraphProperty (key value : Value)
  | setGlobalProperties (kind : Value) (attrs : Keywords)
  | updateVertex (id : Value) (attrs : Keywords)
  | updateEdge (id : Value) (attrs : Keywords)
  | updateSubgraph (id : Value) (properties : Keywords)
  | addToSubgraph (id ids : Value)
  | removeFromSubgraph (id ids : Value)
  | removeVertex (id : Value)
  | removeEdge (id : Value)
  | removeSubgraph (id : Value)

inductive Reply where
  | done
  | element (id : Nat)
  | elements (ids : List Nat)
  | subgraph (name : Text)
  deriving DecidableEq, Repr

def Reply.ofUnit (_ : Unit) : Reply :=
  .done

structure Outcome where
  result : Except Error Reply
  graph : Graph

namespace Graph

def setGraphProperty (key value : Value) : Action Unit := do
  let list ← Action.ask fun g => g.attrs.set key value
  modify fun g => { g with attrs := list }

def setGlobalProperties (kind : Value) (attrs : Keywords) : Action Unit := do
  attrs.checkNames ["kind"]
  match kind with
  | .str "node" =>
      modify fun g => { g with vertexDefaults := g.vertexDefaults.putAll attrs.entries }
  | .str "edge" => modify fun g => { g with edgeDefaults := g.edgeDefaults.putAll attrs.entries }
  | kind => throw (.notElementKind kind)

end Graph

def Call.action : Call → Action Reply
  | addVertex label attrs => .element <$> Graph.addVertex label attrs
  | addRecord record => .element <$> Graph.addRecord record
  | addHtmlRecord record attrs => .element <$> Graph.addHtmlRecord record attrs
  | addEdge tail head attrs => .element <$> Graph.addEdge tail head attrs
  | chain endpoints attrs => .elements <$> Graph.chain endpoints attrs
  | fanOut tail heads attrs => .elements <$> Graph.fanOut tail heads attrs
  | addSubgraph ids properties => .subgraph <$> Graph.addGroup false ids properties
  | addCluster ids properties => .subgraph <$> Graph.addGroup true ids properties
  | setGraphProperty key value => .ofUnit <$> Graph.setGraphProperty key value
  | setGlobalProperties kind attrs => .ofUnit <$> Graph.setGlobalProperties kind attrs
  | updateVertex id attrs => .ofUnit <$> Graph.updateVertex id attrs
  | updateEdge id attrs => .ofUnit <$> Graph.updateEdge id attrs
  | updateSubgraph id properties => .ofUnit <$> Graph.updateSubgraph id properties
  | addToSubgraph id ids => .ofUnit <$> Graph.addToSubgraph id ids
  | removeFromSubgraph id ids => .ofUnit <$> Graph.removeFromSubgraph id ids
  | removeVertex id => .ofUnit <$> Graph.removeVertex id
  | removeEdge id => .ofUnit <$> Graph.removeEdge id
  | removeSubgraph id => .ofUnit <$> Graph.removeSubgraph id

namespace Graph

def perform (call : Call) (g : Graph) : Outcome :=
  let (result, after) := call.action g
  ⟨result, after⟩

theorem perform_map {call : Call} {α : Type} {reply : α → Reply} {action : Action α}
    (ends : call.action = reply <$> action) (g : Graph) :
    g.perform call = ⟨(action g).1.map reply, (action g).2⟩ := by
  unfold perform
  rw [ends, Action.map_apply]

theorem eq_ok_of_perform {call : Call} {α : Type} {reply : α → Reply} {action : Action α}
    (ends : call.action = reply <$> action) {g : Graph} {answered : Reply}
    (done : (g.perform call).result = .ok answered) :
    ∃ answer, answered = reply answer ∧ action g = (.ok answer, (g.perform call).graph) := by
  rw [perform_map ends] at done ⊢
  generalize action g = finished at done ⊢
  obtain ⟨result, after⟩ := finished
  cases result with
  | error e => cases done
  | ok answer => exact ⟨answer, (Except.ok.inj done).symm, rfl⟩

def run (calls : List Call) (g : Graph) : Graph :=
  calls.foldl (fun held call => (held.perform call).graph) g

@[simp] theorem run_nil (g : Graph) : g.run [] = g := rfl

@[simp] theorem run_cons (call : Call) (calls : List Call) (g : Graph) :
    g.run (call :: calls) = (g.perform call).graph.run calls := rfl

theorem run_append (first second : List Call) (g : Graph) :
    g.run (first ++ second) = (g.run first).run second := by
  simp [run, List.foldl_append]

/-- The graphs that operations lead to from a new graph. -/
inductive Reachable : Graph → Prop where
  | new {attrs vertexDefaults edgeDefaults : Value} {g : Graph}
      (built : Graph.new attrs vertexDefaults edgeDefaults = .ok g) : Reachable g
  | perform {g : Graph} (call : Call) (reached : Reachable g) : Reachable (g.perform call).graph

theorem Reachable.run {g : Graph} (reached : Reachable g) (calls : List Call) :
    Reachable (g.run calls) := by
  induction calls generalizing g with
  | nil => exact reached
  | cons call rest ih => exact ih (reached.perform call)

theorem reachable_run_empty (calls : List Call) :
    Reachable ((ofLayers .empty .empty .empty).run calls) :=
  have built : Graph.new .null .null .null = .ok (ofLayers .empty .empty .empty) := rfl
  Reachable.run (.new built) calls

end Graph
end DotDoc
