import DotDoc.Proofs.Attribute.Events

/-!
# The order of attributes

A history holds the events of an attribute list, the newest first.  A name arrives when a value is
prepended under it, or stored under it while it has none; a value that is stored under a name that
has one does not make it arrive again.

The names of a list stand in the order of their last arrivals: those that were prepended come
first, the latest in front, and those that were inserted follow, the earliest in front.  One event
keeps this order, and so do all operations whose keys are strings, one after the other.
-/

set_option autoImplicit false

namespace DotDoc

/-- How a name comes into a list: in front of all others or behind them. -/
inductive Entrance where
  | prepended
  | inserted

structure Arrival where
  entrance : Entrance
  time : Nat

/-- Whether the name of one arrival stands in front of the name of another. -/
def Arrival.Before : Arrival → Arrival → Prop
  | ⟨.prepended, time⟩, ⟨.prepended, other⟩ => other < time
  | ⟨.prepended, _⟩, ⟨.inserted, _⟩ => True
  | ⟨.inserted, _⟩, ⟨.prepended, _⟩ => False
  | ⟨.inserted, time⟩, ⟨.inserted, other⟩ => time < other

theorem Arrival.before_inserted {a : Arrival} {time : Nat} (earlier : a.time < time) :
    a.Before ⟨.inserted, time⟩ := by
  obtain ⟨_ | _, _⟩ := a
  · trivial
  · exact earlier

theorem Arrival.prepended_before {a : Arrival} {time : Nat} (earlier : a.time < time) :
    Before ⟨.prepended, time⟩ a := by
  obtain ⟨_ | _, _⟩ := a
  · exact earlier
  · trivial

/-- Events, the newest first. -/
abbrev History := List Event

namespace History

/-- The value that the last event about a name left under it. -/
def value? (name : String) : History → Option Value
  | [] => none
  | event :: earlier => if event.name = name then event.value? else value? name earlier

def arrivalWith (name : String) (event : Event) (earlier : History) : Option Arrival :=
  if event.name = name ∧ event.value?.isSome then
    match event with
    | .stored .. =>
        if (value? name earlier).isNone then some ⟨.inserted, earlier.length⟩ else none
    | .removed _ => none
    | .prepended .. => some ⟨.prepended, earlier.length⟩
  else none

/-- The last arrival of a name. -/
def arrival? (name : String) : History → Option Arrival
  | [] => none
  | event :: earlier => (arrivalWith name event earlier).or (arrival? name earlier)

/-- Whether one name stands in front of another by their last arrivals. -/
def Precedes (history : History) (first second : String) : Prop :=
  ∃ a b, history.arrival? first = some a ∧ history.arrival? second = some b ∧ a.Before b

/-- Names in order: those that were prepended, the latest first, and then those that were
inserted, the earliest first, each with the time of its last arrival. -/
def InOrder (history : History) (names : List String) : Prop :=
  ∃ front back : List (String × Nat), names = front.map Prod.fst ++ back.map Prod.fst ∧
    (∀ entry ∈ front, history.arrival? entry.1 = some ⟨.prepended, entry.2⟩) ∧
    (∀ entry ∈ back, history.arrival? entry.1 = some ⟨.inserted, entry.2⟩) ∧
    (front.map Prod.snd).Pairwise (fun time later => later < time) ∧
    (back.map Prod.snd).Pairwise (fun time later => time < later)

variable {history : History} {event : Event} {name : String}

theorem value?_cons_self (event : Event) (earlier : History) :
    value? event.name (event :: earlier) = event.value? := by
  simp [value?]

theorem value?_cons_of_ne (other : name ≠ event.name) (earlier : History) :
    value? name (event :: earlier) = value? name earlier := by
  simp [value?, Ne.symm other]

theorem arrival?_cons_of_ne (other : name ≠ event.name) (earlier : History) :
    arrival? name (event :: earlier) = arrival? name earlier := by
  simp [arrival?, arrivalWith, Ne.symm other]

theorem arrival?_stored_of_held {value : Value} (held : (value? name history).isSome = true) :
    arrival? name (.stored name value :: history) = arrival? name history := by
  obtain ⟨old, held⟩ := Option.isSome_iff_exists.1 held
  simp [arrival?, arrivalWith, held]

theorem arrival?_stored_of_none {value : Value} (set : value.isUnset = false)
    (free : value? name history = none) :
    arrival? name (.stored name value :: history) = some ⟨.inserted, history.length⟩ := by
  simp [arrival?, arrivalWith, Event.name, Event.value?, Value.kept?, set, free]

theorem arrival?_prepended {value : Value} (set : value.isUnset = false) :
    arrival? name (.prepended name value :: history) = some ⟨.prepended, history.length⟩ := by
  simp [arrival?, arrivalWith, Event.name, Event.value?, Value.kept?, set]

theorem arrival?_time_lt {arrival : Arrival} (arrived : history.arrival? name = some arrival) :
    arrival.time < history.length := by
  induction history with
  | nil => cases arrived
  | cons event earlier ih =>
      rcases Option.or_eq_some_iff.1 arrived with now | ⟨-, before⟩
      · have newest : arrival.time = earlier.length := by
          unfold arrivalWith at now
          grind
        exact newest ▸ Nat.lt_succ_self _
      · exact Nat.lt_succ_of_lt (ih before)

theorem exists_arrival_of_value (held : (value? name history).isSome = true) :
    ∃ arrival, history.arrival? name = some arrival := by
  induction history with
  | nil => cases held
  | cons event earlier ih =>
      by_cases about : name = event.name
      · subst about
        rw [value?_cons_self] at held
        obtain ⟨value, held⟩ := Option.isSome_iff_exists.1 held
        obtain ⟨name, set, rfl | rfl⟩ := Event.eq_of_value held
        · cases before : value? name earlier with
          | none => exact ⟨_, arrival?_stored_of_none set before⟩
          | some old =>
              have held_before : (value? name earlier).isSome = true := by rw [before]; rfl
              obtain ⟨arrival, arrived⟩ := ih held_before
              exact ⟨arrival, (arrival?_stored_of_held held_before).trans arrived⟩
        · exact ⟨_, arrival?_prepended set⟩
      · rw [value?_cons_of_ne about] at held
        rw [arrival?_cons_of_ne about]
        exact ih held

theorem Precedes.arrival {first second : String} (precedes : history.Precedes first second)
    {a b : Arrival} (arrived : history.arrival? first = some a)
    (other : history.arrival? second = some b) : a.Before b := by
  obtain ⟨a', b', first_arrived, second_arrived, before⟩ := precedes
  cases arrived.symm.trans first_arrived
  cases other.symm.trans second_arrived
  exact before

theorem inOrder_of_pairwise {names : List String} (ordered : names.Pairwise history.Precedes)
    (arrived : ∀ name ∈ names, ∃ arrival, history.arrival? name = some arrival) :
    history.InOrder names := by
  induction names with
  | nil => exact ⟨[], [], rfl, nofun, nofun, .nil, .nil⟩
  | cons name rest ih =>
      obtain ⟨first, later⟩ := List.pairwise_cons.1 ordered
      obtain ⟨front, back, rfl, in_front, behind, latest_first, earliest_first⟩ :=
        ih later fun other member => arrived other (List.mem_cons_of_mem _ member)
      obtain ⟨⟨entrance, time⟩, arrival⟩ := arrived name (List.mem_cons_self ..)
      have before_front : ∀ entry ∈ front,
          Arrival.Before ⟨entrance, time⟩ ⟨.prepended, entry.2⟩ := by
        intro entry member
        have among : entry.1 ∈ front.map Prod.fst ++ back.map Prod.fst :=
          List.mem_append_left _ (List.mem_map_of_mem member)
        exact (first _ among).arrival arrival (in_front entry member)
      have before_back : ∀ entry ∈ back, Arrival.Before ⟨entrance, time⟩ ⟨.inserted, entry.2⟩ := by
        intro entry member
        have among : entry.1 ∈ front.map Prod.fst ++ back.map Prod.fst :=
          List.mem_append_right _ (List.mem_map_of_mem member)
        exact (first _ among).arrival arrival (behind entry member)
      cases entrance with
      | prepended =>
          refine ⟨(name, time) :: front, back, rfl, ?_, behind, ?_, earliest_first⟩
          · exact List.forall_mem_cons.2 ⟨arrival, in_front⟩
          · exact List.pairwise_cons.2 ⟨List.forall_mem_map.2 before_front, latest_first⟩
      | inserted =>
          have no_front : front = [] := List.eq_nil_iff_forall_not_mem.2 before_front
          subst no_front
          refine ⟨[], (name, time) :: back, rfl, nofun, ?_, .nil, ?_⟩
          · exact List.forall_mem_cons.2 ⟨arrival, behind⟩
          · exact List.pairwise_cons.2 ⟨List.forall_mem_map.2 before_back, earliest_first⟩

end History

open History (Precedes)

/-- Whether a list holds the values of a history, with the names in the order of arrival. -/
structure AttrList.Follows (history : History) (l : AttrList) : Prop where
  tidy : l.Tidy []
  values : ∀ name, l.find? name = history.value? name
  ordered : l.keys.Pairwise history.Precedes

namespace AttrList

namespace Follows

variable {history : History} {l : AttrList} {event : Event}

theorem held_iff (follows : Follows history l) {name : String} :
    name ∈ l.keys ↔ (history.value? name).isSome = true := by
  rw [mem_keys_iff, follows.values]

theorem arrived (follows : Follows history l) {name : String} (member : name ∈ l.keys) :
    ∃ arrival, history.arrival? name = some arrival :=
  History.exists_arrival_of_value (follows.held_iff.1 member)

theorem values_apply (follows : Follows history l) (event : Event) (name : String) :
    (event.apply l).find? name = History.value? name (event :: history) := by
  by_cases about : name = event.name
  · rw [about, find?_apply_self follows.tidy, History.value?_cons_self]
  · rw [find?_apply_of_ne follows.tidy event about, History.value?_cons_of_ne about,
      follows.values]

theorem others_ordered (follows : Follows history l) (event : Event) :
    (l.keys.filter fun name => name ≠ event.name).Pairwise (Precedes (event :: history)) := by
  apply (follows.ordered.filter _).imp_of_mem
  intro first second first_left second_left precedes
  have first_other : first ≠ event.name := by simpa using List.of_mem_filter first_left
  have second_other : second ≠ event.name := by simpa using List.of_mem_filter second_left
  rw [Precedes, History.arrival?_cons_of_ne first_other, History.arrival?_cons_of_ne second_other]
  exact precedes

theorem other_arrived (follows : Follows history l) (event : Event) {name : String}
    (member : name ∈ l.keys) (other : name ≠ event.name) :
    ∃ arrival, History.arrival? name (event :: history) = some arrival ∧
      arrival.time < history.length := by
  obtain ⟨arrival, arrived⟩ := follows.arrived member
  exact ⟨arrival, (History.arrival?_cons_of_ne other history).trans arrived,
    History.arrival?_time_lt arrived⟩

theorem ordered_stored_of_mem (follows : Follows history l) {name : String} {value : Value}
    (set : value.isUnset = false) (member : name ∈ l.keys) :
    (l.put name value).keys.Pairwise (Precedes (.stored name value :: history)) := by
  have same : ∀ other, History.arrival? other (.stored name value :: history)
      = history.arrival? other := by
    intro other
    by_cases about : other = name
    · rw [about]
      exact History.arrival?_stored_of_held (follows.held_iff.1 member)
    · exact History.arrival?_cons_of_ne about history
  rw [keys_put_of_mem set member]
  apply follows.ordered.imp
  intro first second precedes
  rwa [Precedes, same, same]

theorem ordered_stored_of_not_mem (follows : Follows history l) {name : String} {value : Value}
    (set : value.isUnset = false) (free : name ∉ l.keys) :
    (l.put name value).keys.Pairwise (Precedes (.stored name value :: history)) := by
  have others := follows.others_ordered (.stored name value)
  rw [Event.name, filter_keys_of_not_mem free] at others
  rw [keys_put_of_not_mem set free]
  refine List.pairwise_append.2 ⟨others, List.pairwise_singleton .., ?_⟩
  intro other member last is_name
  cases List.mem_singleton.1 is_name
  have different : other ≠ name := fun same => free (same ▸ member)
  obtain ⟨arrival, arrived, earlier⟩ :=
    follows.other_arrived (.stored name value) member different
  have free_before : history.value? name = none := by
    rw [← follows.values]
    exact Entries.find?_of_not_mem free
  exact ⟨arrival, _, arrived, History.arrival?_stored_of_none set free_before,
    Arrival.before_inserted earlier⟩

theorem ordered_prepended (follows : Follows history l) {name : String} {value : Value}
    (set : value.isUnset = false) :
    (l.prepend (.str name) value).keys.Pairwise
      (Precedes (.prepended name value :: history)) := by
  rw [keys_prepend follows.tidy set]
  refine List.pairwise_cons.2 ⟨?_, follows.others_ordered (.prepended name value)⟩
  intro other left
  obtain ⟨member, different⟩ := List.mem_filter.1 left
  obtain ⟨arrival, arrived, earlier⟩ :=
    follows.other_arrived (.prepended name value) member (by simpa using different)
  exact ⟨_, arrival, History.arrival?_prepended set, arrived, Arrival.prepended_before earlier⟩

theorem step (follows : Follows history l) (event : Event) :
    Follows (event :: history) (event.apply l) where
  tidy := follows.tidy.apply event
  values := follows.values_apply event
  ordered := by
    cases value : event.value? with
    | none =>
        rw [apply_of_gone follows.tidy value, keys_erase]
        exact follows.others_ordered event
    | some held =>
        obtain ⟨name, set, rfl | rfl⟩ := Event.eq_of_value value
        · by_cases member : name ∈ l.keys
          · exact follows.ordered_stored_of_mem set member
          · exact follows.ordered_stored_of_not_mem set member
        · exact follows.ordered_prepended set

theorem after (follows : Follows history l) (events : List Event) :
    Follows (events.reverse ++ history) (l.after events) := by
  induction events generalizing l history with
  | nil => exact follows
  | cons event rest ih =>
      rw [List.reverse_cons, List.append_assoc]
      exact ih (follows.step event)

end Follows

end AttrList

/-! ## Runs -/

/-- The update that building a list comes down to.  A source that is given under the name of the
parameter is no attribute. -/
def Operation.construction (source : Option Value) (named : Keywords) : Operation :=
  match source, named.find? "attrs" with
  | none, some value => .update value.given? (named.erase "attrs")
  | source, _ => .update (source.bind Value.given?) named

def History.extended (history : History) (ops : List Operation) (l : AttrList) : History :=
  match ops with
  | [] => history
  | op :: rest => extended ((op.events l).reverse ++ history) rest (l.perform op).2

namespace AttrList

variable {l : AttrList} {history : History}

theorem follows_empty : Follows [] empty where
  tidy := tidy_empty []
  values _ := rfl
  ordered := .nil

theorem Follows.run (follows : Follows history l) {ops : List Operation}
    (strings : ∀ op ∈ ops, op.hasStringKeys = true) :
    Follows (history.extended ops l) (l.run ops) := by
  induction ops generalizing l history with
  | nil => exact follows
  | cons op rest ih =>
      have performed := follows.after (op.events l)
      rw [← perform_eq_after follows.tidy (strings op (List.mem_cons_self ..))] at performed
      exact ih performed fun later member => strings later (List.mem_cons_of_mem _ member)

theorem absorb_of_merge {source : Value} {named : Keywords} {merged : AttrList}
    (ok : l.merge source named = .ok merged) : (l.absorb source.given? named).2 = merged := by
  rw [merge_eq] at ok
  cases result : (l.absorb source.given? named).1 with
  | error e =>
      rw [result] at ok
      cases ok
  | ok _ =>
      rw [result] at ok
      exact Except.ok.inj ok

theorem perform_construction {source : Option Value} {named : Keywords} {start : AttrList}
    (built : build source named = .ok start) :
    (empty.perform (.construction source named)).2 = start := by
  unfold build at built
  split at built
  · cases built
  · cases source with
    | none =>
        cases parameter : named.find? "attrs" with
        | none =>
            rw [parameter] at built
            simp only [Operation.construction, parameter]
            exact Except.ok.inj built
        | some value =>
            rw [parameter] at built
            simp only [Operation.construction, parameter]
            exact absorb_of_merge built
    | some source =>
        cases parameter : named.find? "attrs" with
        | none =>
            rw [parameter] at built
            simp only [Operation.construction]
            exact absorb_of_merge built
        | some value =>
            rw [parameter] at built
            cases built

/-- Whether an operation on a list takes one name out. -/
inductive Removes (l : AttrList) : Operation → String → Prop
  | delete (name : String) : Removes l (.delete (.str name)) name
  | pop (name : String) (default : Option Value) : Removes l (.pop (.str name) default) name
  | popFirst {name : String} {rest : List String} (first : l.keys = name :: rest) :
      Removes l .popFirst name
  | set (name : String) {value : Value} (unset : value.isUnset = true) :
      Removes l (.set (.str name) value) name
  | prepend (name : String) {value : Value} (unset : value.isUnset = true) :
      Removes l (.prepend (.str name) value) name

theorem Removes.perform_eq (tidy : l.Tidy []) {op : Operation} {name : String}
    (removes : l.Removes op name) : (l.perform op).2 = l.erase name := by
  have absent_stays : l.find? name = none → l.erase name = l := fun absent =>
    erase_of_not_mem (by simp [mem_keys_iff, absent])
  cases removes with
  | delete _ =>
      cases held : l.find? name with
      | none => simp [perform, delete_str, held, answered, Except.map, absent_stays held]
      | some value => simp [perform, delete_str, held, answered, Except.map]
  | pop _ default =>
      cases held : l.find? name with
      | none => cases default <;> simp [perform, pop_str, held, answered, absent_stays held]
      | some value => simp [perform, pop_str, held, answered]
  | popFirst first =>
      obtain ⟨entry, others, entries, rfl, -⟩ := List.map_eq_cons_iff.1 first
      simp [perform, AttrList.popFirst, entries, answered, erase_first tidy entries]
  | set _ unset => rw [perform_set_str, put_of_unset unset]
  | prepend _ unset =>
      have gone : (Event.prepended name _).value? = none := Value.kept?_eq_none_iff.2 unset
      exact apply_of_gone tidy gone

/-- What a list owes to its history: the order of its names, their values, and the place of a
name that is stored, taken out or stored again. -/
structure ByArrival (history : History) (l : AttrList) : Prop where
  in_order : history.InOrder l.keys
  last_values : ∀ name, l.find? name = history.value? name
  stored_stays : ∀ (name : String) (value : Value), name ∈ l.keys → value.isUnset = false →
    (l.perform (.set (.str name) value)).2.keys = l.keys
  removed_only : ∀ (op : Operation) (name : String), l.Removes op name →
    (l.perform op).2.keys = l.keys.filter fun k => k ≠ name
  stored_again_last : ∀ (op : Operation) (name : String) (value : Value), l.Removes op name →
    value.isUnset = false →
      ((l.perform op).2.perform (.set (.str name) value)).2.keys
        = (l.keys.filter fun k => k ≠ name) ++ [name]

theorem Follows.byArrival (follows : Follows history l) : ByArrival history l where
  in_order := History.inOrder_of_pairwise follows.ordered fun _ member => follows.arrived member
  last_values := follows.values
  stored_stays name value member set := by
    rw [perform_set_str, keys_put_of_mem set member]
  removed_only op name removes := by
    rw [removes.perform_eq follows.tidy, keys_erase]
  stored_again_last op name value removes set := by
    rw [removes.perform_eq follows.tidy, perform_set_str,
      keys_put_of_not_mem set (not_mem_keys_erase name l), keys_erase]

/-- The names of a list stand in the order of their last arrivals, whatever operations were
carried out on it, and each has the value that was stored last. -/
theorem names_ordered_by_arrival {source : Option Value} {named : Keywords} {start : AttrList}
    (built : build source named = .ok start) {ops : List Operation}
    (strings : ∀ op ∈ .construction source named :: ops, op.hasStringKeys = true) :
    ByArrival (History.extended [] (.construction source named :: ops) empty) (start.run ops) := by
  have whole := (follows_empty.run strings).byArrival
  rwa [run_cons, perform_construction built] at whole

def blueBox : AttrList :=
  ⟨[("color", .str "blue"), ("label", .str "old"), ("shape", .str "box")]⟩

def blueBoxSource : Value :=
  .dict [(.str "color", .str "blue"), (.str "label", .str "old")]

def blueBoxNamed : Keywords :=
  ⟨[("shape", .str "box")], by decide⟩

/-- Changes of names that are present, absent, taken out and stored again.  The last two are
refused, the latter after its first pair. -/
def blueBoxEdits : List Operation :=
  [.set (.str "color") (.str "red"), .prepend (.str "label") (.str "new"), .delete (.str "color"),
    .set (.str "color") (.str "green"), .set (.str "shape") .unset,
    .setDefault (.str "style") (.str "dashed"), .prepend (.str "style") (.str "bold"),
    .pop (.str "shape") none,
    .update (some (.list [.tuple [.str "width", .int 2], .int 5])) blueBoxNamed]

theorem blueBox_ordered_by_arrival :
    build (some blueBoxSource) blueBoxNamed = .ok blueBox ∧
    (∀ op ∈ .construction (some blueBoxSource) blueBoxNamed :: blueBoxEdits,
      op.hasStringKeys = true) ∧
    (blueBox.run blueBoxEdits).keys = ["style", "label", "color", "width"] ∧
    ByArrival
      (History.extended [] (.construction (some blueBoxSource) blueBoxNamed :: blueBoxEdits) empty)
      (blueBox.run blueBoxEdits) :=
  have built : build (some blueBoxSource) blueBoxNamed = .ok blueBox := rfl
  ⟨built, by decide, by decide, names_ordered_by_arrival built (by decide)⟩

end AttrList
end DotDoc
