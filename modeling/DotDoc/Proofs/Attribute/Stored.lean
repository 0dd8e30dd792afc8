import DotDoc.Attribute.Basic
import DotDoc.Proofs.Graph.Lookup

/-!
# What attribute lists store

Putting entries adds their keys and no others.  An attribute list is `Tidy` apart from some names
when its names are distinct, its values are set and none of its names is among those.  Every way
of storing and removing keeps a list tidy, whatever values come in: an unset one is never put into
the list, it takes an entry away.
-/

set_option autoImplicit false

namespace DotDoc

namespace Entries

variable {α : Type}

theorem mem_put {key : String} {value : α} {entries : Entries α} {entry : String × α}
    (member : entry ∈ put key value entries) : entry = (key, value) ∨ entry ∈ entries := by
  induction entries with
  | nil => exact .inl (List.mem_singleton.1 member)
  | cons first rest ih =>
      obtain ⟨k, held⟩ := first
      rw [put] at member
      split at member
      · rename_i here
        rcases List.mem_cons.1 member with rfl | later
        · exact .inl (by rw [here])
        · exact .inr (List.mem_cons_of_mem _ later)
      · rcases List.mem_cons.1 member with rfl | later
        · exact .inr (List.mem_cons_self ..)
        · exact (ih later).imp_right (List.mem_cons_of_mem _)

theorem mem_keys_put_iff {key : String} {value : α} {entries : Entries α} (name : String) :
    name ∈ keys (put key value entries) ↔ name = key ∨ name ∈ keys entries := by
  by_cases present : key ∈ keys entries
  · rw [keys_put_of_mem present]
    constructor
    · exact .inr
    · rintro (rfl | member)
      · exact present
      · exact member
  · rw [keys_put_of_not_mem present, List.mem_append, List.mem_singleton, or_comm]

theorem mem_keys_putAll_iff {added entries : Entries α} (name : String) :
    name ∈ keys (putAll added entries) ↔ name ∈ keys added ∨ name ∈ keys entries := by
  induction added generalizing entries with
  | nil => simp [putAll]
  | cons entry later ih =>
      have step : putAll (entry :: later) entries = putAll later (put entry.1 entry.2 entries) :=
        rfl
      rw [step, ih, mem_keys_put_iff, keys_cons, List.mem_cons, or_left_comm, or_assoc]

theorem find?_of_not_mem {key : String} {entries : Entries α} (absent : key ∉ keys entries) :
    find? key entries = none := by
  induction entries with
  | nil => rfl
  | cons entry rest ih =>
      obtain ⟨k, held⟩ := entry
      have other : k ≠ key := fun same => absent (by simp [same])
      have not_later : key ∉ keys rest := fun member => absent (by simp [member])
      rw [find?, if_neg other, ih not_later]

theorem erase_of_not_mem {key : String} {entries : Entries α} (absent : key ∉ keys entries) :
    erase key entries = entries := by
  rw [erase, List.filter_eq_self]
  intro entry member
  have other : entry.1 ≠ key := fun same => absent (same ▸ List.mem_map_of_mem member)
  simp [other]

theorem putAll_cons_of_not_mem {key : String} {value : α} {added entries : Entries α}
    (absent : key ∉ keys added) :
    putAll added ((key, value) :: entries) = (key, value) :: putAll added entries := by
  induction added generalizing entries with
  | nil => rfl
  | cons entry later ih =>
      obtain ⟨k, v⟩ := entry
      have other : key ≠ k := fun same => absent (by simp [same])
      have not_later : key ∉ keys later := fun member => absent (by simp [member])
      have first : putAll ((k, v) :: later) ((key, value) :: entries)
          = putAll later ((key, value) :: put k v entries) := by
        simp [putAll, put, other]
      rw [first, ih not_later]
      rfl

end Entries

namespace Keywords

theorem clashesWith_eq_false_iff {parameters : List String} {k : Keywords} :
    k.clashesWith parameters = false ↔
      ∀ name ∈ Entries.keys k.entries, name ≠ "self" ∧ name ∉ parameters := by
  simp [clashesWith, mentions, List.any_eq_false]

theorem mem_erase_iff {name : String} {k : Keywords} {entry : String × Value} :
    entry ∈ (k.erase name).entries ↔ entry ∈ k.entries ∧ entry.1 ≠ name := by
  simp [erase, Entries.erase]

end Keywords

namespace AttrList

theorem store_empty_of_set (key : Value) {value : Value} (set : value.isUnset = false) :
    (AttrList.empty.store key value).entries = [(key.name, value)] := by
  simp [store, set, empty, Entries.put]

theorem store_empty_of_unset (key : Value) {value : Value} (unset : value.isUnset = true) :
    AttrList.empty.store key value = .empty := by
  cases key <;> simp [store, unset, AttrList.erase, Entries.erase, empty]

theorem prepend_str (name : String) {value : Value} (l : AttrList)
    (set : value.isUnset = false) :
    (l.prepend (.str name) value).entries
      = (name, value) :: Entries.putAll (l.erase name).entries [] := by
  have absent : name ∉ Entries.keys (l.erase name).entries := by
    rw [AttrList.erase, Entries.keys_erase]
    simp
  rw [prepend, store_empty_of_set (.str name) set]
  exact Entries.putAll_cons_of_not_mem absent

/-- Names are distinct and not among those kept apart, and all values are set. -/
structure Tidy (apart : List String) (l : AttrList) : Prop where
  names_distinct : l.keys.Nodup
  names_free : ∀ name ∈ l.keys, name ∉ apart
  values_set : ∀ entry ∈ l.entries, entry.2.isUnset = false

theorem tidy_empty (apart : List String) : empty.Tidy apart :=
  ⟨List.nodup_nil, nofun, nofun⟩

section

variable {apart : List String} {l : AttrList}

theorem Tidy.insert (tidy : l.Tidy apart) {name : String} {value : Value} (free : name ∉ apart)
    (set : value.isUnset = false) : Tidy apart ⟨Entries.put name value l.entries⟩ where
  names_distinct := Entries.nodup_keys_put tidy.names_distinct
  names_free := by
    intro other member
    rcases (Entries.mem_keys_put_iff other).1 member with rfl | held
    · exact free
    · exact tidy.names_free other held
  values_set := by
    intro entry member
    rcases Entries.mem_put member with rfl | held
    · exact set
    · exact tidy.values_set entry held

theorem Tidy.erase (tidy : l.Tidy apart) (name : String) : (l.erase name).Tidy apart where
  names_distinct := Entries.nodup_keys_erase tidy.names_distinct
  names_free := by
    intro other member
    rw [AttrList.erase, keys, Entries.keys_erase] at member
    exact tidy.names_free other (List.mem_of_mem_filter member)
  values_set := fun entry member => tidy.values_set entry (List.mem_of_mem_filter member)

theorem Tidy.eraseKey (tidy : l.Tidy apart) (key : Value) : (l.eraseKey key).Tidy apart := by
  cases key with
  | str name => exact tidy.erase name
  | _ => exact tidy

theorem Tidy.put (tidy : l.Tidy apart) {name : String} (free : name ∉ apart) (value : Value) :
    (l.put name value).Tidy apart := by
  unfold AttrList.put
  split
  · exact tidy.erase name
  · rename_i set
    exact tidy.insert free (by simpa using set)

theorem Tidy.putAll (tidy : l.Tidy apart) {added : Entries Value}
    (free : ∀ entry ∈ added, entry.1 ∉ apart) : (l.putAll added).Tidy apart := by
  induction added generalizing l with
  | nil => exact tidy
  | cons entry rest ih =>
      apply ih (tidy.put (free entry (List.mem_cons_self ..)) entry.2)
      intro later member
      exact free later (List.mem_cons_of_mem _ member)

theorem Tidy.store (tidy : l.Tidy apart) {key : Value} (free : key.name ∉ apart) (value : Value) :
    (l.store key value).Tidy apart := by
  unfold AttrList.store
  split
  · split
    · exact tidy.erase _
    · exact tidy
  · rename_i set
    exact tidy.insert free (by simpa using set)

theorem putAll_of_set {added : Entries Value}
    (set : ∀ entry ∈ added, entry.2.isUnset = false) (l : AttrList) :
    l.putAll added = ⟨Entries.putAll added l.entries⟩ := by
  induction added generalizing l with
  | nil => rfl
  | cons entry rest ih =>
      have first : l.put entry.1 entry.2 = ⟨Entries.put entry.1 entry.2 l.entries⟩ := by
        simp [AttrList.put, set entry (List.mem_cons_self ..)]
      have later := ih (fun next member => set next (List.mem_cons_of_mem _ member))
        (l.put entry.1 entry.2)
      rw [first] at later
      simpa [AttrList.putAll, Entries.putAll, first] using later

theorem Tidy.prepend (tidy : l.Tidy apart) {key : Value} (free : key.name ∉ apart)
    (value : Value) : (l.prepend key value).Tidy apart := by
  have rest := tidy.eraseKey key
  have front : (AttrList.empty.store key value).Tidy apart := (tidy_empty apart).store free value
  have whole := front.putAll fun entry member =>
    rest.names_free entry.1 (List.mem_map_of_mem member)
  rwa [putAll_of_set rest.values_set] at whole

theorem Tidy.ofKeywords {named : Keywords} (free : ∀ entry ∈ named.entries, entry.1 ∉ apart) :
    (AttrList.ofKeywords named).Tidy apart :=
  (tidy_empty apart).putAll free

end

section

variable {l l' : AttrList}

theorem Tidy.storeAll (tidy : l.Tidy []) (added : List (Value × Value)) :
    (l.storeAll added).Tidy [] := by
  induction added generalizing l with
  | nil => exact tidy
  | cons entry rest ih => exact ih (tidy.store List.not_mem_nil entry.2)

theorem set_eq_ok {key value : Value} (stored : l.set key value = .ok l') :
    l' = l.store key value := by
  unfold set at stored
  split at stored
  · cases stored
  · exact (Except.ok.inj stored).symm

theorem Tidy.setPairs (tidy : l.Tidy []) {pairs : List Value}
    (stored : AttrList.setPairs pairs l = .ok l') : l'.Tidy [] := by
  induction pairs generalizing l with
  | nil =>
      cases stored
      exact tidy
  | cons item rest ih =>
      obtain ⟨⟨key, value⟩, _, stored⟩ := bind_eq_ok_iff.1 stored
      obtain ⟨next, first, later⟩ := bind_eq_ok_iff.1 stored
      rw [set_eq_ok first] at later
      exact ih (tidy.store List.not_mem_nil value) later

theorem Tidy.update (tidy : l.Tidy []) {source : Value} (stored : l.update source = .ok l') :
    l'.Tidy [] := by
  unfold AttrList.update at stored
  split at stored
  · cases stored
    exact tidy.storeAll _
  · obtain ⟨items, _, stored⟩ := bind_eq_ok_iff.1 stored
    exact tidy.setPairs stored

theorem Tidy.merge (tidy : l.Tidy []) {source : Value} {named : Keywords}
    (stored : l.merge source named = .ok l') : l'.Tidy [] := by
  unfold AttrList.merge at stored
  split at stored
  · cases stored
    exact tidy.putAll fun _ _ => List.not_mem_nil
  · obtain ⟨updated, first, answer⟩ := bind_eq_ok_iff.1 stored
    cases answer
    exact (tidy.update first).putAll fun _ _ => List.not_mem_nil

end

end AttrList
end DotDoc
