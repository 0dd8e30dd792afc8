import DotDoc.Attribute.Basic

/-!
# Operations on attribute lists

An `Operation` is one change of an attribute list with its arguments, as a value.
`AttrList.perform` carries an operation out and gives its answer, or the reason of a refusal, and
the list afterwards.  A refused operation leaves the list as it was, with one exception: an update
from a sequence of pairs keeps the pairs before the item that is refused.
-/

set_option autoImplicit false

namespace DotDoc

inductive Operation where
  | set (key value : Value)
  | delete (key : Value)
  | pop (key : Value) (default : Option Value)
  | popFirst
  | setDefault (key default : Value)
  | update (source : Option Value) (named : Keywords)
  | prepend (key value : Value)
  | clear

namespace Value

def pairKey? (item : Value) : Option Value :=
  item.pair.toOption.map Prod.fst

/-- The keys that a source of attributes stores under: those of a mapping, or of its pairs. -/
def storedKeys (source : Value) : List Value :=
  match source.mapping? with
  | some entries => entries.map Prod.fst
  | none => (source.elements?.getD []).filterMap pairKey?

def isString : Value → Bool
  | str _ => true
  | _ => false

end Value

namespace Operation

/-- The keys that an operation is given, those of its named arguments apart, which are names. -/
def keys : Operation → List Value
  | set key _ => [key]
  | delete key => [key]
  | pop key _ => [key]
  | popFirst => []
  | setDefault key _ => [key]
  | update source _ => (source.map Value.storedKeys).getD []
  | prepend key _ => [key]
  | clear => []

def hasStringKeys (op : Operation) : Bool :=
  op.keys.all Value.isString

end Operation

namespace AttrList

/-- Stores pairs one after the other, up to the first item that is refused. -/
def storePairs : List Value → AttrList → Except Error Unit × AttrList
  | [], l => (.ok (), l)
  | item :: rest, l =>
      match item.pair.bind fun (key, value) => l.set key value with
      | .ok stored => storePairs rest stored
      | .error e => (.error e, l)

/-- Stores what a mapping, or a sequence of pairs, holds, up to the first item that is refused. -/
def storeSource (source : Value) (l : AttrList) : Except Error Unit × AttrList :=
  match source.mapping? with
  | some entries => (.ok (), l.storeAll entries)
  | none =>
      match source.elements with
      | .ok items => storePairs items l
      | .error e => (.error e, l)

/-- Stores what an optional source holds and, unless that is refused, the named attributes. -/
def absorb (source : Option Value) (named : Keywords) (l : AttrList) :
    Except Error Unit × AttrList :=
  match source with
  | none => (.ok (), l.putAll named.entries)
  | some source =>
      match l.storeSource source with
      | (.ok (), stored) => (.ok (), stored.putAll named.entries)
      | (.error e, stored) => (.error e, stored)

/-- The answer of an operation that changes the list only when it is not refused. -/
def answered {α : Type} (answer : α → Value) (result : Except Error (α × AttrList))
    (l : AttrList) : Except Error Value × AttrList :=
  match result with
  | .ok (given, changed) => (.ok (answer given), changed)
  | .error e => (.error e, l)

def perform (op : Operation) (l : AttrList) : Except Error Value × AttrList :=
  match op with
  | .set key value => answered (fun _ => .null) ((l.set key value).map fun held => ((), held)) l
  | .delete key => answered (fun _ => .null) ((l.delete key).map fun held => ((), held)) l
  | .pop key default => answered id (l.pop key default) l
  | .popFirst => answered (fun entry => .tuple [.str entry.1, entry.2]) l.popFirst l
  | .setDefault key default => answered id (l.setDefault key default) l
  | .update source named =>
      let (result, held) := l.absorb source named
      (result.map fun _ => .null, held)
  | .prepend key value => (.ok .null, l.prepend key value)
  | .clear => (.ok .null, .empty)

def run (ops : List Operation) (l : AttrList) : AttrList :=
  ops.foldl (fun held op => (held.perform op).2) l

@[simp] theorem run_nil (l : AttrList) : l.run [] = l := rfl

@[simp] theorem run_cons (op : Operation) (ops : List Operation) (l : AttrList) :
    l.run (op :: ops) = (l.perform op).2.run ops := rfl

/-! ## Storing and merging

`storePairs`, `storeSource` and `absorb` say what is left after a refusal; where nothing is refused
they store what `setPairs`, `update` and `merge` store, and they refuse the same sources. -/

theorem setPairs_eq (items : List Value) (l : AttrList) :
    l.setPairs items = (l.storePairs items).1.map fun _ => (l.storePairs items).2 := by
  induction items generalizing l with
  | nil => rfl
  | cons item rest ih =>
      cases pair : item.pair with
      | error e => simp [setPairs, storePairs, pair, bind, Except.bind, Except.map]
      | ok parts =>
          cases stored : l.set parts.1 parts.2 with
          | error e => simp [setPairs, storePairs, pair, stored, bind, Except.bind, Except.map]
          | ok held => simp [setPairs, storePairs, pair, stored, bind, Except.bind, ih held]

theorem update_eq (source : Value) (l : AttrList) :
    l.update source = (l.storeSource source).1.map fun _ => (l.storeSource source).2 := by
  unfold AttrList.update storeSource
  cases source.mapping? with
  | some entries => rfl
  | none =>
      cases source.elements with
      | error e => rfl
      | ok items => exact setPairs_eq items l

theorem merge_eq (source : Value) (named : Keywords) (l : AttrList) :
    l.merge source named
      = (l.absorb source.given? named).1.map fun _ => (l.absorb source.given? named).2 := by
  by_cases absent : source = .null
  · subst absent
    rfl
  · have given : source.given? = some source := by
      cases source <;> first | rfl | exact absurd rfl absent
    have merged : l.merge source named
        = (l.update source).map fun held => held.putAll named.entries := by
      cases source <;> first | rfl | exact absurd rfl absent
    rw [merged, update_eq, given, absorb]
    rcases l.storeSource source with ⟨_ | _, stored⟩ <;> rfl

end AttrList
end DotDoc
