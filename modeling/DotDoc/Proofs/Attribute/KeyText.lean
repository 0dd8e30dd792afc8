import DotDoc.Proofs.Attribute.Events

/-!
# Keys and their texts

A value is stored under the text of its key, whatever the key is.  Looking up, removing and
storing a default compare the key itself with the names, which are texts, so only a string finds
what is stored under it.  Any other key behaves as one that is always absent: it is not found
after storing, an unset value under it removes nothing, and a default for it replaces what stands
under its text.
-/

set_option autoImplicit false

namespace DotDoc
namespace AttrList

/-- Whether a key acts on a list as its text: what is stored under it is found under it, an unset
value takes away what stands under the text, and a default does not replace that. -/
structure ActsAsText (key : Value) (l : AttrList) : Prop where
  found : ∀ value : Value, value.isUnset = false →
    ∃ stored, l.set key value = .ok stored ∧ stored.get key = .ok value
  taken_out : ∀ value marker : Value, value.isUnset = false → marker.isUnset = true →
    ∃ stored rest, l.set key value = .ok stored ∧ stored.set key marker = .ok rest ∧
      key.name ∉ rest.keys
  removed : ∀ marker : Value, marker.isUnset = true →
    ∃ rest, l.set key marker = .ok rest ∧ key.name ∉ rest.keys
  default_kept : ∀ default : Value, ∃ answer changed,
    l.setDefault key default = .ok (answer, changed) ∧
      ∀ held, l.find? key.name = some held → changed.find? key.name = some held

variable {key value : Value} {l : AttrList}

theorem actsAsText_str (name : String) (l : AttrList) : ActsAsText (.str name) l where
  found value set := by
    refine ⟨_, set_str name value l, ?_⟩
    rw [get_str, find?_put_of_set set]
  taken_out value marker _ unset := by
    refine ⟨_, _, set_str name value l, set_str name marker _, ?_⟩
    rw [put_of_unset unset]
    exact not_mem_keys_erase name _
  removed marker unset := by
    refine ⟨_, set_str name marker l, ?_⟩
    rw [put_of_unset unset]
    exact not_mem_keys_erase name _
  default_kept default := by
    rw [setDefault_str]
    cases held : l.find? name with
    | none => exact ⟨_, _, rfl, fun _ found => by cases held.symm.trans found⟩
    | some value => exact ⟨_, _, rfl, fun _ found => found⟩

theorem set_of_isHashable (hashable : key.isHashable = true) (value : Value) (l : AttrList) :
    l.set key value = .ok (l.store key value) := by
  simp [set, hashable]

theorem store_unset_of_not_string (other : key.isString = false) (unset : value.isUnset = true)
    (l : AttrList) : l.store key value = l := by
  cases key with
  | str name => cases other
  | _ => exact if_pos unset

theorem store_of_set (set : value.isUnset = false) (key : Value) (l : AttrList) :
    l.store key value = ⟨Entries.put key.name value l.entries⟩ := by
  simp [store, set]

theorem lookup_of_not_string (other : key.isString = false) (hashable : key.isHashable = true)
    (l : AttrList) : l.lookup key = .ok none := by
  have absent : key.lookupKey = .ok none := by
    unfold Value.lookupKey
    split
    · cases other
    · exact if_pos hashable
  rw [lookup, absent]
  rfl

theorem get_of_not_string (other : key.isString = false) (hashable : key.isHashable = true)
    (l : AttrList) : l.get key = .error (.keyNotFound key) := by
  rw [get, lookup_of_not_string other hashable]
  rfl

theorem setDefault_of_not_string (other : key.isString = false) (hashable : key.isHashable = true)
    (value : Value) (l : AttrList) : l.setDefault key value = .ok (value, l.store key value) := by
  rw [setDefault, lookup_of_not_string other hashable]
  simp only [bind, Except.bind, set_of_isHashable hashable]
  rfl

/-- A key that can be looked up acts as its text exactly when it is a string.  Another key is not
found whatever was stored under it, an unset value under it changes nothing, and a set one stands
under its text afterwards, also when it is a default. -/
theorem acts_as_text_iff_isString (hashable : key.isHashable = true) (l : AttrList) :
    (ActsAsText key l ↔ key.isString = true) ∧
    (key.isString = false → ∀ value : Value,
      (l.store key value).get key = .error (.keyNotFound key) ∧
      (value.isUnset = true → l.set key value = .ok l ∧ l.setDefault key value = .ok (value, l)) ∧
      (value.isUnset = false → ∃ stored : AttrList,
        stored.entries = Entries.put key.name value l.entries ∧
        l.set key value = .ok stored ∧ l.setDefault key value = .ok (value, stored))) := by
  refine ⟨⟨fun acts => ?_, fun string => ?_⟩, fun other value => ⟨?_, fun unset => ?_, fun set => ?_⟩⟩
  · by_contra other
    have other : key.isString = false := by simpa using other
    obtain ⟨stored, _, found⟩ := acts.found (.bool true) rfl
    rw [get_of_not_string other hashable] at found
    cases found
  · obtain ⟨name, rfl⟩ := Value.isString_iff.1 string
    exact actsAsText_str name l
  · exact get_of_not_string other hashable _
  · rw [set_of_isHashable hashable, setDefault_of_not_string other hashable,
      store_unset_of_not_string other unset]
    exact ⟨rfl, rfl⟩
  · exact ⟨l.store key value, by rw [store_of_set set], set_of_isHashable hashable value l,
      setDefault_of_not_string other hashable value l⟩

def oneEntry : AttrList :=
  ⟨[("1", .str "x")]⟩

theorem numberKey_acts_apart :
    (Value.int 1).isHashable = true ∧ ¬ ActsAsText (.int 1) oneEntry ∧
    oneEntry.setDefault (.int 1) (.str "y") = .ok (.str "y", ⟨[("1", .str "y")]⟩) := by
  have hashable : (Value.int 1).isHashable = true := rfl
  obtain ⟨acts_iff, apart⟩ := acts_as_text_iff_isString hashable oneEntry
  obtain ⟨stored, entries, -, default⟩ := (apart rfl (.str "y")).2.2 rfl
  have replaced : stored = ⟨[("1", .str "y")]⟩ := congrArg AttrList.mk entries
  exact ⟨hashable, fun acts => Bool.noConfusion (acts_iff.1 acts), replaced ▸ default⟩

/-- A value that was stored under a number stays after the number was unset. -/
theorem number_key_not_removed :
    empty.set (.int 1) (.str "x") = .ok oneEntry ∧
    oneEntry.get (.int 1) = .error (.keyNotFound (.int 1)) ∧
    oneEntry.set (.int 1) .unset = .ok oneEntry ∧
    (Value.int 1).name ∈ oneEntry.keys ∧ ¬ ActsAsText (.int 1) empty := by
  refine ⟨rfl, rfl, rfl, by decide, fun acts => ?_⟩
  obtain ⟨stored, rest, first, second, gone⟩ := acts.taken_out (.str "x") .unset rfl rfl
  cases first
  cases second
  exact gone (List.mem_singleton_self _)

end AttrList
end DotDoc
