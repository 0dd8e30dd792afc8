import DotDoc.Attribute.Operation
import DotDoc.Proofs.Attribute.Stored

/-!
# What happens to single attributes

An `Event` happens to one attribute: a value is stored under its name, the name is removed, or a
value is put in front of all others.  Every operation on an attribute list whose keys are strings
is a series of events, of which a refused operation has none, or those before the refusal.

An event that leaves no value under its name takes the name out and keeps the order of the others.
Otherwise a stored value stays where its name is, or comes last, and a prepended one comes first.
-/

set_option autoImplicit false

namespace DotDoc

namespace Entries

variable {α : Type}

theorem mem_keys_iff {key : String} {entries : Entries α} :
    key ∈ keys entries ↔ (find? key entries).isSome = true := by
  induction entries with
  | nil => simp [find?]
  | cons entry rest ih =>
      obtain ⟨k, held⟩ := entry
      by_cases here : k = key
      · simp [find?, here]
      · simp [find?, here, Ne.symm here, ih]

theorem find?_erase_self (key : String) (entries : Entries α) :
    find? key (erase key entries) = none := by
  apply find?_of_not_mem
  rw [keys_erase]
  simp

theorem erase_cons (key : String) (entry : String × α) (rest : Entries α) :
    erase key (entry :: rest)
      = if entry.1 = key then erase key rest else entry :: erase key rest := by
  by_cases here : entry.1 = key <;> simp [erase, here]

theorem find?_erase_of_ne {key other : String} (different : other ≠ key) (entries : Entries α) :
    find? other (erase key entries) = find? other entries := by
  induction entries with
  | nil => rfl
  | cons entry rest ih =>
      obtain ⟨k, held⟩ := entry
      rw [erase_cons]
      by_cases here : k = key
      · simp [here, find?, Ne.symm different, ih]
      · rw [if_neg here, find?, find?, ih]

theorem putAll_nil_of_nodup {entries : Entries α} (distinct : (keys entries).Nodup) :
    putAll entries [] = entries := by
  induction entries with
  | nil => rfl
  | cons entry rest ih =>
      obtain ⟨absent, later⟩ := List.nodup_cons.1 distinct
      have first : putAll (entry :: rest) [] = putAll rest [(entry.1, entry.2)] := rfl
      rw [first, putAll_cons_of_not_mem absent, ih later]

theorem putAll_cons_of_nodup {key : String} {value : α} {added entries : Entries α}
    (distinct : (keys added).Nodup) :
    putAll added ((key, value) :: entries)
      = (key, (find? key added).getD value) :: putAll (erase key added) entries := by
  induction added generalizing value entries with
  | nil => rfl
  | cons entry later ih =>
      obtain ⟨k, v⟩ := entry
      obtain ⟨absent, later_distinct⟩ := List.nodup_cons.1 distinct
      have first : putAll ((k, v) :: later) ((key, value) :: entries)
          = putAll later (put k v ((key, value) :: entries)) := rfl
      by_cases here : k = key
      · subst here
        rw [first, put, if_pos rfl, ih later_distinct, find?_of_not_mem absent, find?, if_pos rfl,
          erase_cons, if_pos rfl]
        rfl
      · rw [first, put, if_neg (Ne.symm here), ih later_distinct, find?, if_neg here, erase_cons,
          if_neg here]
        rfl

end Entries

namespace Value

/-- The value itself, unless it is unset. -/
def kept? (v : Value) : Option Value :=
  if v.isUnset then none else some v

theorem kept?_eq_none_iff {v : Value} : v.kept? = none ↔ v.isUnset = true := by
  simp [kept?]

theorem kept?_eq_some_iff {v held : Value} :
    v.kept? = some held ↔ v.isUnset = false ∧ v = held := by
  simp [kept?]

theorem isString_iff {v : Value} : v.isString = true ↔ ∃ name, v = .str name := by
  cases v <;> simp [isString]

end Value

inductive Event where
  | stored (name : String) (value : Value)
  | removed (name : String)
  | prepended (name : String) (value : Value)

namespace Event

def name : Event → String
  | stored name _ => name
  | removed name => name
  | prepended name _ => name

@[simp] theorem name_stored (n : String) (v : Value) : (stored n v).name = n := rfl

@[simp] theorem name_removed (n : String) : (removed n).name = n := rfl

@[simp] theorem name_prepended (n : String) (v : Value) : (prepended n v).name = n := rfl

/-- The value that stands under the name afterwards. -/
def value? : Event → Option Value
  | stored _ value => value.kept?
  | removed _ => none
  | prepended _ value => value.kept?

def apply : Event → AttrList → AttrList
  | stored name value, l => l.put name value
  | removed name, l => l.erase name
  | prepended name value, l => l.prepend (.str name) value

theorem eq_of_value {event : Event} {held : Value} (value : event.value? = some held) :
    ∃ name, held.isUnset = false ∧ (event = stored name held ∨ event = prepended name held) := by
  cases event with
  | stored name given =>
      obtain ⟨set, rfl⟩ := Value.kept?_eq_some_iff.1 value
      exact ⟨name, set, .inl rfl⟩
  | removed name => cases value
  | prepended name given =>
      obtain ⟨set, rfl⟩ := Value.kept?_eq_some_iff.1 value
      exact ⟨name, set, .inr rfl⟩

/-- The events of storing pairs, up to the first item that is no pair. -/
def ofPairs : List Value → List Event
  | [] => []
  | item :: rest =>
      match item.pair with
      | .ok (key, value) => stored key.name value :: ofPairs rest
      | .error _ => []

def ofSource (source : Value) : List Event :=
  match source.mapping? with
  | some entries => entries.map fun entry => stored entry.1.name entry.2
  | none => ofPairs (source.elements?.getD [])

def ofNamed (named : Keywords) : List Event :=
  named.entries.map fun entry => stored entry.1 entry.2

/-- The events of an update: the named attributes are stored if the source is not refused. -/
def ofUpdate (source : Option Value) (named : Keywords) (l : AttrList) : List Event :=
  match source with
  | none => ofNamed named
  | some source =>
      match (l.storeSource source).1 with
      | .ok _ => ofSource source ++ ofNamed named
      | .error _ => ofSource source

end Event

/-- The events of an operation on a list, in the order in which they happen. -/
def Operation.events (op : Operation) (l : AttrList) : List Event :=
  match op with
  | .set key value => [.stored key.name value]
  | .delete key => if key.name ∈ l.keys then [.removed key.name] else []
  | .pop key _ => if key.name ∈ l.keys then [.removed key.name] else []
  | .popFirst => (l.keys.take 1).map .removed
  | .setDefault key default => if key.name ∈ l.keys then [] else [.stored key.name default]
  | .update source named => Event.ofUpdate source named l
  | .prepend key value => [.prepended key.name value]
  | .clear => l.keys.map .removed

namespace AttrList

def after (events : List Event) (l : AttrList) : AttrList :=
  events.foldl (fun held event => event.apply held) l

variable {l : AttrList}

@[simp] theorem after_nil (l : AttrList) : l.after [] = l := rfl

@[simp] theorem after_cons (event : Event) (events : List Event) (l : AttrList) :
    l.after (event :: events) = (event.apply l).after events := rfl

theorem after_append (first second : List Event) (l : AttrList) :
    l.after (first ++ second) = (l.after first).after second := by
  simp [after, List.foldl_append]

theorem mem_keys_iff {name : String} : name ∈ l.keys ↔ (l.find? name).isSome = true :=
  Entries.mem_keys_iff

theorem Tidy.apply (tidy : l.Tidy []) (event : Event) : (event.apply l).Tidy [] := by
  cases event with
  | stored name value => exact tidy.put List.not_mem_nil value
  | removed name => exact tidy.erase name
  | prepended name value => exact tidy.prepend List.not_mem_nil value

theorem putAll_erase_eq (tidy : l.Tidy []) (name : String) :
    Entries.putAll (l.erase name).entries [] = (l.erase name).entries :=
  Entries.putAll_nil_of_nodup (tidy.erase name).names_distinct

theorem put_of_unset {name : String} {value : Value} (unset : value.isUnset = true) :
    l.put name value = l.erase name :=
  if_pos unset

theorem apply_of_gone (tidy : l.Tidy []) {event : Event} (gone : event.value? = none) :
    event.apply l = l.erase event.name := by
  cases event with
  | stored name value =>
      exact put_of_unset (Value.kept?_eq_none_iff.1 gone)
  | removed name => rfl
  | prepended name value =>
      have unset := Value.kept?_eq_none_iff.1 gone
      have rest : l.prepend (.str name) value
          = ⟨Entries.putAll (l.erase name).entries []⟩ := by
        rw [AttrList.prepend, store_empty_of_unset (.str name) unset]
        rfl
      simp only [Event.apply, Event.name, rest, putAll_erase_eq tidy]

theorem put_of_set {name : String} {value : Value} (set : value.isUnset = false) :
    l.put name value = ⟨Entries.put name value l.entries⟩ := by
  simp [AttrList.put, set]

theorem prepend_of_set (tidy : l.Tidy []) {name : String} {value : Value}
    (set : value.isUnset = false) :
    l.prepend (.str name) value = ⟨(name, value) :: (l.erase name).entries⟩ := by
  have entries := prepend_str name l set
  rw [putAll_erase_eq tidy] at entries
  exact congrArg AttrList.mk entries

theorem keys_erase (name : String) : (l.erase name).keys = l.keys.filter fun k => k ≠ name :=
  Entries.keys_erase name l.entries

theorem erase_of_not_mem {name : String} (absent : name ∉ l.keys) : l.erase name = l :=
  congrArg AttrList.mk (Entries.erase_of_not_mem absent)

theorem filter_keys_of_not_mem {name : String} (absent : name ∉ l.keys) :
    (l.keys.filter fun k => k ≠ name) = l.keys := by
  rw [List.filter_eq_self]
  intro k member
  simpa using ne_of_mem_of_not_mem member absent

theorem keys_put_of_mem {name : String} {value : Value} (set : value.isUnset = false)
    (present : name ∈ l.keys) : (l.put name value).keys = l.keys := by
  rw [put_of_set set]
  exact Entries.keys_put_of_mem present

theorem keys_put_of_not_mem {name : String} {value : Value} (set : value.isUnset = false)
    (absent : name ∉ l.keys) : (l.put name value).keys = l.keys ++ [name] := by
  rw [put_of_set set]
  exact Entries.keys_put_of_not_mem absent

theorem keys_prepend (tidy : l.Tidy []) {name : String} {value : Value}
    (set : value.isUnset = false) :
    (l.prepend (.str name) value).keys = name :: l.keys.filter fun k => k ≠ name := by
  rw [prepend_of_set tidy set, ← keys_erase]
  rfl

theorem not_mem_keys_erase (name : String) (l : AttrList) : name ∉ (l.erase name).keys := by
  rw [keys_erase]
  simp

theorem find?_put_of_set {name : String} {value : Value} (set : value.isUnset = false) :
    (l.put name value).find? name = some value := by
  rw [put_of_set set]
  exact Entries.find?_put_self ..

theorem find?_apply_self (tidy : l.Tidy []) (event : Event) :
    (event.apply l).find? event.name = event.value? := by
  cases value : event.value? with
  | none =>
      rw [apply_of_gone tidy value]
      exact Entries.find?_erase_self ..
  | some held =>
      obtain ⟨name, set, rfl | rfl⟩ := Event.eq_of_value value
      · exact find?_put_of_set set
      · simp only [Event.apply, Event.name, prepend_of_set tidy set]
        simp [AttrList.find?, Entries.find?]

theorem find?_apply_of_ne (tidy : l.Tidy []) (event : Event) {other : String}
    (different : other ≠ event.name) : (event.apply l).find? other = l.find? other := by
  cases value : event.value? with
  | none =>
      rw [apply_of_gone tidy value]
      exact Entries.find?_erase_of_ne different _
  | some held =>
      obtain ⟨name, set, rfl | rfl⟩ := Event.eq_of_value value
      · simp only [Event.apply, put_of_set set]
        exact Entries.find?_put_of_ne different ..
      · have later : name ≠ other := Ne.symm different
        simp only [Event.apply, prepend_of_set tidy set, AttrList.find?, Entries.find?, if_neg later]
        exact Entries.find?_erase_of_ne different _

/-! ## Operations as series of events -/

theorem store_str (name : String) (value : Value) (l : AttrList) :
    l.store (.str name) value = l.put name value := rfl

theorem set_str (name : String) (value : Value) (l : AttrList) :
    l.set (.str name) value = .ok (l.put name value) := by
  simp [set, store_str, Value.isHashable]

theorem lookup_str (name : String) (l : AttrList) : l.lookup (.str name) = .ok (l.find? name) :=
  rfl

theorem get_str (name : String) (l : AttrList) :
    l.get (.str name) = match l.find? name with
      | some value => .ok value
      | none => .error (.keyNotFound (.str name)) := by
  rw [get, lookup_str]
  cases l.find? name <;> rfl

theorem delete_str (name : String) (l : AttrList) :
    l.delete (.str name) = match l.find? name with
      | some _ => .ok (l.erase name)
      | none => .error (.keyNotFound (.str name)) := by
  rw [delete, get_str]
  cases l.find? name <;> rfl

theorem pop_str (name : String) (default : Option Value) (l : AttrList) :
    l.pop (.str name) default = match l.find? name, default with
      | some value, _ => .ok (value, l.erase name)
      | none, some value => .ok (value, l)
      | none, none => .error (.keyNotFound (.str name)) := by
  simp only [pop, lookup_str]
  cases l.find? name <;> cases default <;> rfl

theorem setDefault_str (name : String) (default : Value) (l : AttrList) :
    l.setDefault (.str name) default = match l.find? name with
      | some value => .ok (value, l)
      | none => .ok (default, l.put name default) := by
  simp only [setDefault, lookup_str, set_str]
  cases l.find? name <;> rfl

theorem putAll_eq_after (added : Entries Value) (l : AttrList) :
    l.putAll added = l.after (added.map fun entry => .stored entry.1 entry.2) := by
  rw [putAll, after, List.foldl_map]
  rfl

theorem storeAll_eq_after {added : List (Value × Value)}
    (strings : ∀ key ∈ added.map Prod.fst, key.isString = true) (l : AttrList) :
    l.storeAll added = l.after (added.map fun entry => .stored entry.1.name entry.2) := by
  induction added generalizing l with
  | nil => rfl
  | cons entry rest ih =>
      obtain ⟨key, value⟩ := entry
      obtain ⟨name, rfl⟩ := Value.isString_iff.1 (strings key (List.mem_cons_self ..))
      exact ih (fun other member => strings other (List.mem_cons_of_mem _ member)) (l.put name value)

theorem storePairs_eq_after {items : List Value}
    (strings : ∀ key ∈ items.filterMap Value.pairKey?, key.isString = true) (l : AttrList) :
    (l.storePairs items).2 = l.after (Event.ofPairs items) := by
  induction items generalizing l with
  | nil => rfl
  | cons item rest ih =>
      cases pair : item.pair with
      | error e => simp [storePairs, Event.ofPairs, pair, Except.bind]
      | ok parts =>
          obtain ⟨key, value⟩ := parts
          have first : item.pairKey? = some key := by
            simp [Value.pairKey?, pair, Except.toOption]
          rw [List.filterMap_cons_some first] at strings
          obtain ⟨name, rfl⟩ := Value.isString_iff.1 (strings key (List.mem_cons_self ..))
          have later := ih (fun other member => strings other (List.mem_cons_of_mem _ member))
            (l.put name value)
          simpa [storePairs, Event.ofPairs, pair, Except.bind, set_str, Event.apply] using later

theorem storeSource_eq_after {source : Value}
    (strings : ∀ key ∈ source.storedKeys, key.isString = true) (l : AttrList) :
    (l.storeSource source).2 = l.after (Event.ofSource source) := by
  unfold Value.storedKeys at strings
  unfold storeSource Event.ofSource
  cases mapping : source.mapping? with
  | some entries =>
      rw [mapping] at strings
      exact storeAll_eq_after strings l
  | none =>
      rw [mapping] at strings
      cases items : source.elements? with
      | none => simp [Value.elements, items, Event.ofPairs]
      | some items =>
          rw [items] at strings
          simpa [Value.elements, items] using storePairs_eq_after strings l

theorem absorb_eq_after {source : Option Value}
    (strings : ∀ key ∈ (source.map Value.storedKeys).getD [], key.isString = true)
    (named : Keywords) (l : AttrList) :
    (l.absorb source named).2 = l.after (Event.ofUpdate source named l) := by
  cases source with
  | none => exact putAll_eq_after named.entries l
  | some source =>
      have stored := storeSource_eq_after strings l
      rcases outcome : l.storeSource source with ⟨e | _, held⟩
      · rw [outcome] at stored
        simpa only [absorb, Event.ofUpdate, outcome] using stored
      · rw [outcome] at stored
        simp only [absorb, Event.ofUpdate, outcome, after_append, ← stored]
        exact putAll_eq_after named.entries held

theorem after_removed {names : List String} {l : AttrList} (every : ∀ name ∈ l.keys, name ∈ names) :
    l.after (names.map .removed) = .empty := by
  induction names generalizing l with
  | nil =>
      have none_left : l.keys = [] :=
        List.eq_nil_iff_forall_not_mem.2 fun name member => List.not_mem_nil (every name member)
      have no_entries : l.entries = [] := List.map_eq_nil_iff.1 none_left
      exact congrArg AttrList.mk no_entries
  | cons name rest ih =>
      apply ih
      intro other member
      change other ∈ (l.erase name).keys at member
      rw [keys_erase] at member
      obtain ⟨old, different⟩ := List.mem_filter.1 member
      exact (List.mem_cons.1 (every other old)).resolve_left (by simpa using different)

theorem erase_first (tidy : l.Tidy []) {entry : String × Value} {rest : Entries Value}
    (entries : l.entries = entry :: rest) : l.erase entry.1 = ⟨rest⟩ := by
  have distinct := tidy.names_distinct
  rw [keys, entries] at distinct
  obtain ⟨absent, -⟩ := List.nodup_cons.1 distinct
  rw [AttrList.erase, entries, Entries.erase_cons, if_pos rfl, Entries.erase_of_not_mem absent]

theorem perform_set_str (name : String) (value : Value) (l : AttrList) :
    (l.perform (.set (.str name) value)).2 = l.put name value := by
  simp [perform, set_str, answered, Except.map]

/-- An operation whose keys are strings does what its events do. -/
theorem perform_eq_after (tidy : l.Tidy []) {op : Operation} (strings : op.hasStringKeys = true) :
    (l.perform op).2 = l.after (op.events l) := by
  have keys := List.all_eq_true.1 strings
  cases op with
  | set key value =>
      obtain ⟨name, rfl⟩ := Value.isString_iff.1 (keys key (List.mem_singleton_self _))
      exact perform_set_str name value l
  | delete key =>
      obtain ⟨name, rfl⟩ := Value.isString_iff.1 (keys key (List.mem_singleton_self _))
      cases held : l.find? name <;>
        simp [perform, delete_str, held, answered, Except.map, Operation.events, mem_keys_iff,
          Event.apply]
  | pop key default =>
      obtain ⟨name, rfl⟩ := Value.isString_iff.1 (keys key (List.mem_singleton_self _))
      cases held : l.find? name <;> cases default <;>
        simp [perform, pop_str, held, answered, Operation.events, mem_keys_iff, Event.apply]
  | popFirst =>
      cases entries : l.entries with
      | nil => simp [perform, popFirst, entries, answered, Operation.events, AttrList.keys]
      | cons entry rest =>
          simp [perform, popFirst, entries, answered, Operation.events, AttrList.keys, Event.apply,
            erase_first tidy entries]
  | setDefault key default =>
      obtain ⟨name, rfl⟩ := Value.isString_iff.1 (keys key (List.mem_singleton_self _))
      cases held : l.find? name <;>
        simp [perform, setDefault_str, held, answered, Operation.events, mem_keys_iff, Event.apply]
  | update source named => exact absorb_eq_after keys named l
  | prepend key value =>
      obtain ⟨name, rfl⟩ := Value.isString_iff.1 (keys key (List.mem_singleton_self _))
      rfl
  | clear => exact (after_removed fun _ member => member).symm

end AttrList
end DotDoc
