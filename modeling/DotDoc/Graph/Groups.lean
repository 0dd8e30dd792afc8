import DotDoc.Graph.Action

/-!
# Grouping vertices and removing them

A vertex is a member of at most one subgraph, so a subgraph takes only vertices of the graph that
no other subgraph holds.  A member counts as the number of its vertex, under whatever id it was
named.  Removing a vertex removes its edges and its memberships; removing a
subgraph leaves its vertices in place.
-/

set_option autoImplicit false

namespace DotDoc.Graph

open DotDoc.Action (ask)

/-- Refuses a value that is no vertex, or a member of a subgraph other than the owner. -/
def checkMember (owner : Option Text) (id : Value) (g : Graph) : Except Error Unit := do
  let _ ← g.vertex id
  match g.subgraphs.find? fun s => !(owner == some s.name) && s.contains id with
  | some holder => throw (.alreadyMember id holder.name)
  | none => pure ()

/-- Refuses the first value that cannot become a member. -/
def checkMembers (owner : Option Text) : List Value → Graph → Except Error Unit
  | [], _ => .ok ()
  | id :: rest, g => do
      g.checkMember owner id
      checkMembers owner rest g

def takeSubgraphNumber : StateM Graph Nat :=
  fun g => (g.nextSubgraph, { g with nextSubgraph := g.nextSubgraph + 1 })

def storeSubgraph (s : Subgraph) : StateM Graph Unit :=
  modify fun g => { g with subgraphs := g.subgraphs ++ [s] }

/-- Groups vertices into a new subgraph.  A layer that is no mapping is noticed after the number
of the subgraph has been taken.  Members are kept as plain numbers: they are only compared, and a
value that is equal to a number compares like it. -/
def addGroup (isCluster : Bool) (ids : Value) (properties : Keywords) : Action Text := do
  properties.checkNames ["vertex_ids"]
  let members ← ids.elements
  ask (checkMembers none members)
  let number ← takeSubgraphNumber
  let s ← Subgraph.create number isCluster (members.map Value.plain) properties
  storeSubgraph s
  return s.name

def addToSubgraph (id ids : Value) : Action Unit := do
  let found ← ask (subgraph id)
  let members ← ids.elements
  ask (checkMembers (some found.name) members)
  modify (replaceSubgraph (found.addMembers (members.map Value.plain)))

def removeFromSubgraph (id ids : Value) : Action Unit := do
  let found ← ask (subgraph id)
  let shrunk ← found.remove ids
  modify (replaceSubgraph shrunk)

/-- Merges properties into a subgraph, up to the first that is refused. -/
def updateSubgraph (id : Value) (properties : Keywords) : Action Unit := do
  properties.checkNames ["sid"]
  let found ← ask (subgraph id)
  let (result, changed) := found.setProperties properties.entries
  modify (replaceSubgraph changed)
  result

def removeSubgraph (id : Value) : Action Unit := do
  let found ← ask (subgraph id)
  modify fun g => { g with subgraphs := g.subgraphs.filter fun s => s.name ≠ found.name }

/-- The subgraphs without one member, up to the first whose members cannot be compared. -/
def dropMember (id : Value) : List Subgraph → Except Error Unit × List Subgraph
  | [] => (.ok (), [])
  | s :: rest =>
      match s.removeMembers [id] with
      | .error e => (.error e, s :: rest)
      | .ok changed =>
          let (result, later) := dropMember id rest
          (result, changed :: later)

def dropMemberships (id : Value) : Action Unit := fun g =>
  let (result, subgraphs) := dropMember id g.subgraphs
  (result, { g with subgraphs := subgraphs })

def removeVertex (id : Value) : Action Unit := do
  let found ← ask (vertex id)
  modify fun g => { g with edges := g.edges.filter fun e => !e.touches found.id }
  dropMemberships id
  modify fun g => { g with vertices := g.vertices.filter fun v => v.id ≠ found.id }

/-- Adds members to a subgraph without asking whether they are vertices or taken. -/
def addMembersUnchecked (id ids : Value) (g : Graph) : Except Error Graph := do
  let found ← g.subgraph id
  return g.replaceSubgraph (← found.add ids)

end DotDoc.Graph
