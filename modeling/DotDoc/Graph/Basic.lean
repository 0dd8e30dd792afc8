import DotDoc.Graph.Element
import DotDoc.Graph.Subgraph

/-!
# Graphs

A directed graph with attributes of its own, defaults for vertices and edges, and tables of
vertices, edges and subgraphs in the order of their creation.  The three kinds are numbered
separately from zero, and a number is never used again.

Looking up an element takes any value as its id.  A vertex or an edge is found under every value
that is equal to its number, such as a truth value or a floating-point number without a fraction,
and a subgraph under its name.  A vertex or an edge is not looked up at all under a value that
cannot be a key.
-/

set_option autoImplicit false

namespace DotDoc

structure Graph where
  attrs : AttrList
  vertexDefaults : AttrList
  edgeDefaults : AttrList
  vertices : List Vertex
  edges : List Edge
  subgraphs : List Subgraph
  nextVertex : Nat
  nextEdge : Nat
  nextSubgraph : Nat

namespace Graph

def ofLayers (attrs vertexDefaults edgeDefaults : AttrList) : Graph :=
  ⟨attrs, vertexDefaults, edgeDefaults, [], [], [], 0, 0, 0⟩

/-- The attribute list of a source, which may be absent. -/
def layerOf (source : Value) : Except Error AttrList :=
  AttrList.empty.merge source .empty

def new (attrs vertexDefaults edgeDefaults : Value) : Except Error Graph := do
  return ofLayers (← layerOf attrs) (← layerOf vertexDefaults) (← layerOf edgeDefaults)

def findVertex (id : Value) (g : Graph) : Except Error (Option Vertex) := do
  match ← id.lookupId with
  | some n => pure (g.vertices.find? fun v => (v.id : Int) = n)
  | none => pure none

def findEdge (id : Value) (g : Graph) : Except Error (Option Edge) := do
  match ← id.lookupId with
  | some n => pure (g.edges.find? fun e => (e.id : Int) = n)
  | none => pure none

def findSubgraph (id : Value) (g : Graph) : Option Subgraph :=
  match id with
  | .str name => g.subgraphs.find? fun s => s.name = name.toList
  | _ => none

def vertex (id : Value) (g : Graph) : Except Error Vertex := do
  match ← g.findVertex id with
  | some v => pure v
  | none => throw (.vertexNotFound id)

def edge (id : Value) (g : Graph) : Except Error Edge := do
  match ← g.findEdge id with
  | some e => pure e
  | none => throw (.edgeNotFound id)

def subgraph (id : Value) (g : Graph) : Except Error Subgraph :=
  match g.findSubgraph id with
  | some s => .ok s
  | none => .error (.subgraphNotFound id)

/-- The end of an edge that a value names: an id, or a pair of an id and a port. -/
def endpoint (v : Value) (g : Graph) : Except Error Endpoint := do
  let named ← v.idAndPort
  let found ← g.vertex named.1
  return ⟨named.1, found.id, named.2.given?⟩

def modifyVertex (id : Nat) (f : Vertex → Vertex) (g : Graph) : Graph :=
  { g with vertices := g.vertices.map fun v => if v.id = id then f v else v }

def modifyEdge (id : Nat) (f : Edge → Edge) (g : Graph) : Graph :=
  { g with edges := g.edges.map fun e => if e.id = id then f e else e }

/-- The graph with a subgraph replaced by another of the same name. -/
def replaceSubgraph (changed : Subgraph) (g : Graph) : Graph :=
  { g with subgraphs := g.subgraphs.map fun s => if s.name = changed.name then changed else s }

end Graph
end DotDoc
