import DotDoc.Proofs.Attribute.Events

/-!
# A value in front

Prepending takes out what a list holds under the key, puts the value in front under the text of
the key, and then puts everything else behind it.  What is taken out is looked for under the key
itself, which only a string can be found by.

So there is one way for the value to be lost.  When the key is no string but its text is a name of
the list, the entry under that name is among what is put behind: its value replaces the new one in
front, and stays where it is when the new value is unset.  In every other case the list ends up
with the value in front of all entries with other names, in their order.
-/

set_option autoImplicit false

namespace DotDoc
namespace AttrList

/-- Whether one list has a value under a name, none if it is unset, in front of the entries that
another list has under other names. -/
def PutInFront (name : String) (value : Value) (l after : AttrList) : Prop :=
  after.entries
    = (value.kept?.map fun held => (name, held)).toList
        ++ l.entries.filter fun entry => entry.1 ≠ name

variable {key value : Value} {l : AttrList}

theorem eraseKey_of_not_string (other : key.isString = false) (l : AttrList) :
    l.eraseKey key = l := by
  cases key with
  | str name => cases other
  | _ => rfl

theorem nodup_keys_eraseKey (distinct : l.keys.Nodup) (key : Value) :
    (l.eraseKey key).keys.Nodup := by
  cases key with
  | str name => exact Entries.nodup_keys_erase distinct
  | _ => exact distinct

theorem erase_eraseKey (key : Value) (l : AttrList) :
    (l.eraseKey key).erase key.name = l.erase key.name := by
  cases key with
  | str name => exact erase_of_not_mem (not_mem_keys_erase name l)
  | _ => rfl

theorem prepend_of_unset (distinct : l.keys.Nodup) (unset : value.isUnset = true) :
    l.prepend key value = l.eraseKey key := by
  have rest : l.prepend key value = ⟨Entries.putAll (l.eraseKey key).entries []⟩ := by
    rw [prepend, store_empty_of_unset key unset]
    rfl
  rw [rest, Entries.putAll_nil_of_nodup (nodup_keys_eraseKey distinct key)]

theorem prepend_eq_cons (distinct : l.keys.Nodup) (set : value.isUnset = false) :
    l.prepend key value
      = ⟨(key.name, ((l.eraseKey key).find? key.name).getD value)
          :: (l.erase key.name).entries⟩ := by
  have rest_distinct := nodup_keys_eraseKey distinct key
  have others : Entries.erase key.name (l.eraseKey key).entries = (l.erase key.name).entries :=
    congrArg AttrList.entries (erase_eraseKey key l)
  have others_distinct : (l.erase key.name).keys.Nodup := Entries.nodup_keys_erase distinct
  rw [prepend, store_empty_of_set key set, Entries.putAll_cons_of_nodup rest_distinct, others,
    Entries.putAll_nil_of_nodup others_distinct]
  rfl

theorem putInFront_of_absent (distinct : l.keys.Nodup)
    (absent : (l.eraseKey key).find? key.name = none) :
    PutInFront key.name value l (l.prepend key value) := by
  cases unset : value.isUnset with
  | true =>
      have free : key.name ∉ (l.eraseKey key).keys := by simp [mem_keys_iff, absent]
      rw [PutInFront, prepend_of_unset distinct unset, Value.kept?_eq_none_iff.2 unset,
        ← erase_of_not_mem free, erase_eraseKey]
      rfl
  | false =>
      have kept : value.kept? = some value := Value.kept?_eq_some_iff.2 ⟨unset, rfl⟩
      rw [PutInFront, prepend_eq_cons distinct unset, absent, kept]
      rfl

/-- An entry under the text of a key that is no string leaves the value in front only if it has
that value already. -/
theorem putInFront_iff_of_held (distinct : l.keys.Nodup) (other : key.isString = false)
    {held : Value} (found : l.find? key.name = some held) :
    PutInFront key.name value l (l.prepend key value) ↔ value.isUnset = false ∧ held = value := by
  cases unset : value.isUnset with
  | true =>
      rw [PutInFront, prepend_of_unset distinct unset, eraseKey_of_not_string other,
        Value.kept?_eq_none_iff.2 unset]
      have member : key.name ∈ l.keys := by simp [mem_keys_iff, found]
      constructor
      · intro same
        have gone : l.erase key.name = l := congrArg AttrList.mk same.symm
        exact absurd member (gone ▸ not_mem_keys_erase key.name l)
      · rintro ⟨set, -⟩
        cases set
  | false =>
      have kept : value.kept? = some value := Value.kept?_eq_some_iff.2 ⟨unset, rfl⟩
      rw [PutInFront, prepend_eq_cons distinct unset, eraseKey_of_not_string other, found, kept]
      simp [AttrList.erase, Entries.erase]

/-- Prepending is never refused.  It leaves the value in front of all entries with other names,
unless the key is no string and its text is a name of the list with another value.  In that case
the new value is lost: the old one comes to the front, or stays in place if the new one is
unset. -/
theorem prepend_exact_iff (distinct : l.keys.Nodup) (key value : Value) :
    (l.perform (.prepend key value)).1 = .ok .null ∧
    (PutInFront key.name value l (l.perform (.prepend key value)).2 ↔
      key.isString = true ∨ key.name ∉ l.keys ∨
        value.isUnset = false ∧ l.find? key.name = some value) ∧
    ∀ held, key.isString = false → l.find? key.name = some held →
      (value.isUnset = true → (l.perform (.prepend key value)).2 = l) ∧
      (value.isUnset = false → (l.perform (.prepend key value)).2.entries
        = (key.name, held) :: l.entries.filter fun entry => entry.1 ≠ key.name) := by
  refine ⟨rfl, ?_, fun held other found => ⟨fun unset => ?_, fun set => ?_⟩⟩
  · cases string : key.isString with
    | true =>
        obtain ⟨name, rfl⟩ := Value.isString_iff.1 string
        have absent : (l.eraseKey (.str name)).find? name = none := Entries.find?_erase_self ..
        exact iff_of_true (putInFront_of_absent distinct absent) (.inl rfl)
    | false =>
        cases found : l.find? key.name with
        | none =>
            have absent : (l.eraseKey key).find? key.name = none := by
              rwa [eraseKey_of_not_string string]
            have free : key.name ∉ l.keys := by simp [mem_keys_iff, found]
            exact iff_of_true (putInFront_of_absent distinct absent) (.inr (.inl free))
        | some held =>
            have member : key.name ∈ l.keys := by simp [mem_keys_iff, found]
            have stays : PutInFront key.name value l (l.perform (.prepend key value)).2 ↔
                value.isUnset = false ∧ held = value :=
              putInFront_iff_of_held distinct string found
            simp [stays, member]
  · have unchanged : l.prepend key value = l.eraseKey key := prepend_of_unset distinct unset
    rwa [eraseKey_of_not_string other] at unchanged
  · have replaced : l.prepend key value = _ := prepend_eq_cons distinct set
    rw [eraseKey_of_not_string other, found] at replaced
    exact congrArg AttrList.entries replaced

def numberLast : AttrList :=
  ⟨[("a", .str "b"), ("1", .str "old")]⟩

theorem numberLast_keeps_old_value :
    numberLast.keys.Nodup ∧
    ¬ PutInFront "1" (.str "new") numberLast
      (numberLast.perform (.prepend (.int 1) (.str "new"))).2 ∧
    (numberLast.perform (.prepend (.int 1) (.str "new"))).2.entries
      = [("1", .str "old"), ("a", .str "b")] := by
  have distinct : numberLast.keys.Nodup := by decide
  obtain ⟨-, exact_iff, lost⟩ := prepend_exact_iff distinct (.int 1) (.str "new")
  have other : Value.str "old" ≠ .str "new" := by simp
  refine ⟨distinct, fun in_front => ?_, (lost (.str "old") rfl rfl).2 rfl⟩
  rcases exact_iff.1 in_front with string | free | ⟨-, found⟩
  · cases string
  · exact free (by decide)
  · exact other (Option.some.inj found)

def numberFirst : AttrList :=
  ⟨[("1", .str "old"), ("a", .str "b")]⟩

/-- Prepending under a number that is a name of the list changes nothing, whether the value is set
or not. -/
theorem number_key_prepends_nothing :
    numberFirst.perform (.prepend (.int 1) (.str "new")) = (.ok .null, numberFirst) ∧
    ¬ PutInFront "1" (.str "new") numberFirst numberFirst ∧
    numberFirst.perform (.prepend (.int 1) .unset) = (.ok .null, numberFirst) ∧
    ¬ PutInFront "1" .unset numberFirst numberFirst := by
  refine ⟨rfl, fun same => ?_, rfl, fun same => ?_⟩
  · have first := (List.cons.inj same).1
    simp at first
  · have lengths := congrArg List.length same
    exact absurd lengths (by decide)

end AttrList
end DotDoc
