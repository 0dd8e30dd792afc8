import DotDoc.Action
import DotDoc.Graph.Basic

/-!
# Actions on a graph

The operations of a graph are actions on it.  The arguments of an operation are checked before the
graph is asked: no argument may have the name of a parameter.
-/

set_option autoImplicit false

namespace DotDoc

abbrev Action (α : Type) :=
  ActionOn Graph α

/-- Refuses arguments under a name that is taken by a parameter. -/
def Keywords.checkNames (parameters : List String) (k : Keywords) : Except Error Unit :=
  if k.clashesWith parameters then .error .wrongType else .ok ()

theorem Keywords.checkNames_of_free {parameters : List String} {k : Keywords}
    (free : k.clashesWith parameters = false) : k.checkNames parameters = .ok () := by
  rw [checkNames, if_neg (by simp [free])]

end DotDoc
