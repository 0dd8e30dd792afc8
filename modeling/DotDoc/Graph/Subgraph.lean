import DotDoc.Attribute.Basic
import DotDoc.Value.Equality

/-!
# Subgraphs

A subgraph groups vertices under defaults of their own; a cluster is a subgraph that is drawn
with a boundary and has attributes for it.  The name of a subgraph is made of its sort and its
number.  Members keep the order in which they were added and occur once.

The properties `node` and `edge` stand for the two layers of defaults: an unset value clears a
layer and a mapping adds to it.  Every other property styles the subgraph.
-/

set_option autoImplicit false

namespace DotDoc

structure Subgraph where
  number : Int
  isCluster : Bool
  members : List Value
  vertexDefaults : AttrList
  edgeDefaults : AttrList
  styling : AttrList

namespace Subgraph

def empty (number : Int) (isCluster : Bool) : Subgraph :=
  ⟨number, isCluster, [], .empty, .empty, .empty⟩

def name (s : Subgraph) : Text :=
  (if s.isCluster then "cluster" else "subgraph").toList ++ Text.ofInt s.number

def contains (v : Value) (s : Subgraph) : Bool :=
  v.occursIn s.members

/-- The subgraph with one more member, unless the value is a member already. -/
def addMember (v : Value) (s : Subgraph) : Subgraph :=
  if s.contains v then s else { s with members := s.members ++ [v] }

def addMembers (vs : List Value) (s : Subgraph) : Subgraph :=
  vs.foldl (fun held v => held.addMember v) s

def add (ids : Value) (s : Subgraph) : Except Error Subgraph := do
  return s.addMembers (← ids.elements)

/-- The subgraph without the given members.  They, and the members to compare them with, have to
be hashable. -/
def removeMembers (vs : List Value) (s : Subgraph) : Except Error Subgraph :=
  if Value.allHashable vs && Value.allHashable s.members then
    .ok { s with members := s.members.filter fun member => !member.occursIn vs }
  else .error .wrongType

def remove (ids : Value) (s : Subgraph) : Except Error Subgraph := do
  s.removeMembers (← ids.elements)

/-- A layer of defaults after one property for it, if the value is fit for a layer. -/
def layerWith (value : Value) (layer : AttrList) : Option AttrList :=
  if value.isUnset then some .empty
  else (value.mapping?).map fun entries => layer.storeAll entries

def setProperty (key : String) (value : Value) (s : Subgraph) : Except Error Subgraph :=
  if key = "node" then
    match layerWith value s.vertexDefaults with
    | some layer => .ok { s with vertexDefaults := layer }
    | none => .error (.layerNotMapping key value)
  else if key = "edge" then
    match layerWith value s.edgeDefaults with
    | some layer => .ok { s with edgeDefaults := layer }
    | none => .error (.layerNotMapping key value)
  else .ok { s with styling := s.styling.put key value }

/-- The subgraph after the properties up to the first that is refused, and the refusal. -/
def setProperties : Entries Value → Subgraph → Except Error Unit × Subgraph
  | [], s => (.ok (), s)
  | (key, value) :: rest, s =>
      match s.setProperty key value with
      | .ok changed => setProperties rest changed
      | .error e => (.error e, s)

def create (number : Int) (isCluster : Bool) (members : List Value) (properties : Keywords) :
    Except Error Subgraph :=
  match setProperties properties.entries ((empty number isCluster).addMembers members) with
  | (.ok (), s) => .ok s
  | (.error e, _) => .error e

def summary (s : Subgraph) : Text :=
  "<Subgraph ".toList ++ s.name ++ ' ' :: (Value.list s.members).literal ++ ['>']

end Subgraph
end DotDoc
