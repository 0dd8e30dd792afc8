import DotDoc.Graph.Action

/-!
# Adding and changing edges

A new edge takes the next number.  Its ends are ids, alone or in a pair with a port.  A chain adds
its edges one after the other and keeps those before the first that is refused; a fan looks up all
ends before it adds its first edge, and adding the edges looks them up once more.
-/

set_option autoImplicit false

namespace DotDoc.Graph

open DotDoc.Action (ask)

def takeEdgeNumber : StateM Graph Nat :=
  fun g => (g.nextEdge, { g with nextEdge := g.nextEdge + 1 })

def storeEdge (e : Edge) : StateM Graph Unit :=
  modify fun g => { g with edges := g.edges ++ [e] }

/-- Stores one more edge.  A port that is not named with its vertex can be given by an attribute,
which is not stored. -/
def insertEdge (tail head : Endpoint) (attrs : Keywords) : StateM Graph Nat := do
  let outport := (attrs.find? "outport").bind Value.given?
  let inport := (attrs.find? "inport").bind Value.given?
  let id ← takeEdgeNumber
  storeEdge
    { id := id
      tail := tail.withDefaultPort outport
      head := head.withDefaultPort inport
      attrs := .ofKeywords ((attrs.erase "outport").erase "inport") }
  return id

theorem insertEdge_apply (tail head : Endpoint) (attrs : Keywords) (g : Graph) :
    g.insertEdge tail head attrs = (g.nextEdge, { g with
      edges := g.edges ++ [
        { id := g.nextEdge
          tail := tail.withDefaultPort ((attrs.find? "outport").bind Value.given?)
          head := head.withDefaultPort ((attrs.find? "inport").bind Value.given?)
          attrs := .ofKeywords ((attrs.erase "outport").erase "inport") }]
      nextEdge := g.nextEdge + 1 }) := rfl

def addEdge (tail head : Value) (attrs : Keywords) : Action Nat := do
  attrs.checkNames ["tail", "head"]
  let tail ← ask (endpoint tail)
  let head ← ask (endpoint head)
  insertEdge tail head attrs

/-- Every item with the one after it. -/
def links : List Value → List (Value × Value)
  | first :: second :: rest => (first, second) :: links (second :: rest)
  | _ => []

/-- Adds an edge for every pair, up to the first that is refused. -/
def addEdges (attrs : Keywords) : List (Value × Value) → Action (List Nat)
  | [] => return []
  | (tail, head) :: rest => do
      let id ← addEdge tail head attrs
      let ids ← addEdges attrs rest
      return id :: ids

def chain (endpoints : Value) (attrs : Keywords) : Action (List Nat) := do
  attrs.checkNames ["endpoints"]
  let items ← endpoints.elements
  addEdges attrs (links items)

/-- The ends of edges that values name, up to the first that names none. -/
def endpoints : List Value → Graph → Except Error (List Endpoint)
  | [], _ => .ok []
  | item :: rest, g => do
      let first ← g.endpoint item
      return first :: (← endpoints rest g)

def fanOut (tail heads : Value) (attrs : Keywords) : Action (List Nat) := do
  attrs.checkNames ["tail", "heads"]
  let items ← heads.elements
  let _ ← ask (endpoints (tail :: items))
  addEdges attrs (items.map fun head => (tail, head))

/-- Changes the ports of an edge that are given and then its attributes. -/
def updateEdge (id : Value) (attrs : Keywords) : Action Unit := do
  attrs.checkNames ["eid"]
  let found ← ask (edge id)
  modify (modifyEdge found.id (Edge.repointTail (attrs.find? "outport")))
  modify (modifyEdge found.id (Edge.repointHead (attrs.find? "inport")))
  modify (modifyEdge found.id (Edge.store ((attrs.erase "outport").erase "inport")))

def removeEdge (id : Value) : Action Unit := do
  let found ← ask (edge id)
  modify fun g => { g with edges := g.edges.filter fun e => e.id ≠ found.id }

end DotDoc.Graph
