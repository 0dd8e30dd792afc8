import DotDoc.Attribute.Entries
import DotDoc.Value.Basic

/-!
# Keywords

The named arguments of a call: values under distinct names, in the order of the call.
-/

set_option autoImplicit false

namespace DotDoc

structure Keywords where
  entries : Entries Value
  distinct : (Entries.keys entries).Nodup := by decide

namespace Keywords

def empty : Keywords := ⟨[], by simp⟩

instance : Inhabited Keywords := ⟨empty⟩

def ofEntries (entries : Entries Value) : Keywords :=
  ⟨Entries.putAll entries [], Entries.nodup_keys_putAll (by simp)⟩

def find? (name : String) (k : Keywords) : Option Value :=
  Entries.find? name k.entries

def mentions (names : List String) (k : Keywords) : Bool :=
  (Entries.keys k.entries).any names.contains

/-- Whether a name is taken already: by the receiver of the call or by one of its parameters. -/
def clashesWith (parameters : List String) (k : Keywords) : Bool :=
  k.mentions ("self" :: parameters)

def erase (name : String) (k : Keywords) : Keywords :=
  ⟨Entries.erase name k.entries, Entries.nodup_keys_erase k.distinct⟩

/-- `value` under `name` in front of the others, unless the name has a value already, which then
stands in front. -/
def withDefault (name : String) (value : Value) (k : Keywords) : Keywords :=
  ⟨(name, (k.find? name).getD value) :: (k.erase name).entries, by
    have absent : name ∉ Entries.keys (k.erase name).entries := by
      simp [erase, Entries.keys_erase]
    exact List.nodup_cons.2 ⟨absent, (k.erase name).distinct⟩⟩

end Keywords
end DotDoc
