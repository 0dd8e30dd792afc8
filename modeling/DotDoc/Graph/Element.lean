import DotDoc.Attribute.Basic

/-!
# Vertices and edges

A vertex is a number with attributes.  An edge is a number with a tail, a head and attributes;
either end can name a port of its vertex.  Ports are kept apart from the attributes, and an update
takes them out of the arguments that it is given.

An end keeps the id under which its vertex was found, since this is the one that is written.
-/

set_option autoImplicit false

namespace DotDoc

structure Vertex where
  id : Nat
  attrs : AttrList

namespace Vertex

def label? (v : Vertex) : Option Value :=
  v.attrs.find? "label"

def summary (v : Vertex) : Text :=
  "<Vertex v".toList ++ Text.ofNat v.id ++ ' ' :: v.attrs.toDict.literal ++ ['>']

end Vertex

/-- An end of an edge: a vertex, and a port of it if one is named. -/
structure Endpoint where
  /-- The id that the vertex was found under. -/
  id : Value
  vertex : Nat
  port : Option Value

namespace Endpoint

/-- The end with another port, unless it names one already. -/
def withDefaultPort (port : Option Value) (e : Endpoint) : Endpoint :=
  match e.port with
  | some _ => e
  | none => { e with port := port }

end Endpoint

structure Edge where
  id : Nat
  tail : Endpoint
  head : Endpoint
  attrs : AttrList

namespace Edge

def touches (vertex : Nat) (e : Edge) : Bool :=
  e.tail.vertex = vertex || e.head.vertex = vertex

/-- The port that an argument names: a value that does not count as true names none. -/
def portOf (v : Value) : Option Value :=
  if v.isTruthy then some v else none

/-- An end with the port of an argument, if the argument is given. -/
def repoint (argument : Option Value) (e : Endpoint) : Endpoint :=
  match argument with
  | some v => { e with port := portOf v }
  | none => e

def repointTail (argument : Option Value) (e : Edge) : Edge :=
  { e with tail := repoint argument e.tail }

def repointHead (argument : Option Value) (e : Edge) : Edge :=
  { e with head := repoint argument e.head }

def store (attrs : Keywords) (e : Edge) : Edge :=
  { e with attrs := e.attrs.putAll attrs.entries }

def summary (e : Edge) : Text :=
  "<Edge e".toList ++ Text.ofNat e.id ++ " v".toList ++ e.tail.id.display
    ++ " -> v".toList ++ e.head.id.display ++ ['>']

end Edge
end DotDoc
