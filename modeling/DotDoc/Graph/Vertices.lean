import DotDoc.Graph.Action
import DotDoc.Html.Build
import DotDoc.Record.Build

/-!
# Adding and changing vertices

A new vertex takes the next number.  Its label is its first attribute and has to be given; what
shows a record or a table has its label and its shape from there.
-/

set_option autoImplicit false

namespace DotDoc.Graph

open DotDoc.Action (ask)

def takeVertexNumber : StateM Graph Nat :=
  fun g => (g.nextVertex, { g with nextVertex := g.nextVertex + 1 })

def storeVertex (v : Vertex) : StateM Graph Unit :=
  modify fun g => { g with vertices := g.vertices ++ [v] }

/-- Stores one more vertex: its label comes first and unset attributes are left out. -/
def insertVertex (label : Value) (attrs : Keywords) : StateM Graph Nat := do
  let list := (AttrList.ofKeywords attrs).prepend (.str "label") label
  let id ← takeVertexNumber
  storeVertex ⟨id, list⟩
  return id

theorem insertVertex_apply (label : Value) (attrs : Keywords) (g : Graph) :
    g.insertVertex label attrs = (g.nextVertex, { g with
      vertices := g.vertices
        ++ [⟨g.nextVertex, (AttrList.ofKeywords attrs).prepend (.str "label") label⟩]
      nextVertex := g.nextVertex + 1 }) := rfl

def addVertex (label : Value) (attrs : Keywords) : Action Nat := do
  attrs.checkNames ["label"]
  if label.isUnset then throw .labelRequired else insertVertex label attrs

theorem addVertex_of_given {label : Value} {attrs : Keywords}
    (accepted : attrs.clashesWith ["label"] = false) (given : label.isUnset = false) (g : Graph) :
    g.addVertex label attrs = (.ok g.nextVertex, (g.insertVertex label attrs).2) := by
  rw [addVertex, if_neg (by simp [given]),
    Action.check_of_ok g (Keywords.checkNames_of_free accepted)]
  rfl

/-- The label of a value that has one: a record, a part of one, or a table. -/
def labelOf : Value → Except Error Value
  | .record record => do return .str (String.ofList (← record.label))
  | .recordCell cell => cell.label
  | .table table => .ok (.str (String.ofList table.label))
  | _ => .error .missingMember

def addRecord (record : Value) : Action Nat := do
  let label ← labelOf record
  match record with
  | .record r => addVertex label (.ofEntries r.vertexAttributes)
  | _ => throw .missingMember

/-- Adds a vertex that shows a table, without a shape around it unless one is given. -/
def addHtmlRecord (record : Value) (attrs : Keywords) : Action Nat := do
  attrs.checkNames ["record"]
  let label ← labelOf record
  addVertex label (attrs.withDefault "shape" (.str "plaintext"))

def updateVertex (id : Value) (attrs : Keywords) : Action Unit := do
  attrs.checkNames ["vid"]
  let found ← ask (vertex id)
  modify (modifyVertex found.id fun v => { v with attrs := v.attrs.putAll attrs.entries })

end DotDoc.Graph
