import DotDoc.Graph.Call
import Mathlib.Data.List.Nodup

/-!
# What looking up finds

Names of subgraphs are injective: the sort is told by the first letter, and the number by its
decimal digits.  An id that is found is the number of a stored element, so every operation that
gets past its lookups works on elements of the graph.  `checkMembers_eq_ok` says which values may
become members.
-/

set_option autoImplicit false

namespace DotDoc

theorem bind_eq_ok_iff {α β : Type} {first : Except Error α} {next : α → Except Error β}
    {answer : β} :
    first >>= next = .ok answer ↔ ∃ a, first = .ok a ∧ next a = .ok answer := by
  cases first <;> simp [bind, Except.bind]

namespace Text

theorem ofNat_injective : Function.Injective ofNat := by
  intro a b same
  have parsed := congrArg (fun digits => Nat.ofDigitChars 10 digits 0) same
  simpa [ofNat] using parsed

theorem isDigit_of_mem_ofNat {n : Nat} {c : Char} (member : c ∈ ofNat n) : c.isDigit = true :=
  Nat.isDigit_of_mem_toDigits (by decide) (by decide) member

theorem ofInt_injective : Function.Injective ofInt := by
  have sign_not_digit : ∀ m n : Nat, ofNat m ≠ '-' :: ofNat (n + 1) := by
    intro m n same
    have digit : ('-' : Char).isDigit = true :=
      isDigit_of_mem_ofNat (n := m) (by rw [same]; exact List.mem_cons_self ..)
    exact absurd digit (by decide)
  intro a b same
  cases a with
  | ofNat m =>
      cases b with
      | ofNat n => exact congrArg Int.ofNat (ofNat_injective same)
      | negSucc n => exact absurd same (sign_not_digit m n)
  | negSucc m =>
      cases b with
      | ofNat n => exact absurd same.symm (sign_not_digit n m)
      | negSucc n =>
          have digits : ofNat (m + 1) = ofNat (n + 1) := (List.cons.inj same).2
          have numbers : m + 1 = n + 1 := ofNat_injective digits
          rw [Nat.add_right_cancel numbers]

end Text

namespace Value

theorem occursIn_iff_of_ints {n : Int} {items : List Value}
    (ints : ∀ item ∈ items, ∃ m, item = .int m) :
    (int n).occursIn items = true ↔ int n ∈ items := by
  rw [occursIn, List.any_eq_true]
  constructor
  · rintro ⟨item, member, equal⟩
    obtain ⟨m, rfl⟩ := ints item member
    have numbers : m = n := by simpa using equal
    exact numbers ▸ member
  · intro member
    exact ⟨int n, member, by simp⟩

theorem allHashable_iff {items : List Value} :
    allHashable items = true ↔ ∀ item ∈ items, item.isHashable = true := by
  induction items with
  | nil => simp [allHashable]
  | cons item rest ih => simp [allHashable, ih]

theorem allHashable_of_ints {items : List Value} (ints : ∀ item ∈ items, ∃ n, item = .int n) :
    allHashable items = true := by
  rw [allHashable_iff]
  intro item member
  obtain ⟨n, rfl⟩ := ints item member
  rfl

@[simp] theorem isInteger_iff {v : Value} {n : Int} :
    v.isInteger n = true ↔ v.integer? = some n := by
  rw [isInteger, beq_iff_eq]

theorem isHashable_of_integer {v : Value} {n : Int} (number : v.integer? = some n) :
    v.isHashable = true := by
  cases v <;> first | rfl | cases number

theorem plain_of_integer {v : Value} {n : Int} (number : v.integer? = some n) :
    v.plain = .int n := by
  rw [plain, number]

theorem int_same (n : Int) (v : Value) : (int n).same v = v.isInteger n := by
  rw [same]

theorem same_int (v : Value) (n : Int) : v.same (.int n) = v.isInteger n := by
  cases v <;> simp [same, isInteger, integer?, mapping?, eq_comm]

theorem occursIn_singleton_int (id : Value) (n : Int) :
    (Value.int n).occursIn [id] = id.isInteger n := by
  simp [occursIn, same_int]

theorem lookupId_eq_some_iff {v : Value} {n : Int} :
    v.lookupId = .ok (some n) ↔ v.integer? = some n := by
  unfold lookupId
  constructor
  · intro found
    split at found
    · exact Except.ok.inj found
    · cases found
  · intro number
    rw [if_pos (isHashable_of_integer number), number]

end Value

/-- Whether a refusal is about a layer of defaults. -/
def Error.aboutLayer : Error → Bool
  | layerNotMapping _ _ => true
  | _ => false

theorem bind_eq_error_iff {α β : Type} {first : Except Error α} {next : α → Except Error β}
    {e : Error} :
    first >>= next = .error e ↔ first = .error e ∨ ∃ a, first = .ok a ∧ next a = .error e := by
  cases first <;> simp [bind, Except.bind]

namespace Value

theorem elements_refusal {v : Value} {e : Error} (refused : v.elements = .error e) :
    e.aboutLayer = false := by
  unfold elements at refused
  split at refused
  · cases refused
  · cases refused
    rfl

theorem lookupId_refusal {v : Value} {e : Error} (refused : v.lookupId = .error e) :
    e.aboutLayer = false := by
  unfold lookupId at refused
  split at refused
  · cases refused
  · cases refused
    rfl

end Value

namespace Subgraph

theorem name_inj {s t : Subgraph} (same : s.name = t.name) :
    s.isCluster = t.isCluster ∧ s.number = t.number := by
  obtain ⟨m, b, _, _, _, _⟩ := s
  obtain ⟨n, c, _, _, _, _⟩ := t
  cases b <;> cases c <;> simp [name] at same
  · exact ⟨rfl, Text.ofInt_injective same⟩
  · exact ⟨rfl, Text.ofInt_injective same⟩

end Subgraph

/-- The id of an end is equal to the number of its vertex. -/
def Endpoint.Named (e : Endpoint) : Prop :=
  e.id.integer? = some (e.vertex : Int)

namespace Graph

variable {g : Graph}

theorem found_by_number {α : Type} {number : α → Nat} {items : List α} {id : Value} {a : α}
    (search : (do
      match ← id.lookupId with
      | some n => pure (items.find? fun a => (number a : Int) = n)
      | none => pure none : Except Error (Option α)) = .ok (some a)) :
    a ∈ items ∧ id.integer? = some (number a : Int) := by
  obtain ⟨key, looked_up, hit⟩ := bind_eq_ok_iff.1 search
  cases key with
  | none => cases hit
  | some n =>
      have named := Value.lookupId_eq_some_iff.1 looked_up
      have result : items.find? (fun a => (number a : Int) = n) = some a := Except.ok.inj hit
      have same : (number a : Int) = n := by simpa using List.find?_some result
      exact ⟨List.mem_of_find?_eq_some result, same ▸ named⟩

def HasVertex (n : Nat) (g : Graph) : Prop :=
  ∃ v ∈ g.vertices, v.id = n

theorem vertex_eq_ok {id : Value} {v : Vertex} (found : g.vertex id = .ok v) :
    v ∈ g.vertices ∧ id.integer? = some (v.id : Int) := by
  obtain ⟨hit, search, answer⟩ := bind_eq_ok_iff.1 found
  cases hit with
  | none => cases answer
  | some u =>
      cases answer
      exact found_by_number search

theorem number_of_named {id : Value} {m n : Nat} (here : id.integer? = some (m : Int))
    (there : id.integer? = some (n : Int)) : m = n :=
  Int.ofNat.inj (Option.some.inj (here.symm.trans there))

theorem edge_eq_ok {id : Value} {e : Edge} (found : g.edge id = .ok e) :
    e ∈ g.edges ∧ id.integer? = some (e.id : Int) := by
  obtain ⟨hit, search, answer⟩ := bind_eq_ok_iff.1 found
  cases hit with
  | none => cases answer
  | some u =>
      cases answer
      exact found_by_number search

/-- An end at a vertex of the graph. -/
structure EndsAt (g : Graph) (e : Endpoint) : Prop where
  stored : g.HasVertex e.vertex
  named : e.Named

theorem endpoint_eq_ok {v : Value} {e : Endpoint} (found : g.endpoint v = .ok e) :
    g.EndsAt e := by
  obtain ⟨named, _, rest⟩ := bind_eq_ok_iff.1 found
  obtain ⟨u, looked_up, answer⟩ := bind_eq_ok_iff.1 rest
  cases answer
  obtain ⟨stored, number⟩ := vertex_eq_ok looked_up
  exact ⟨⟨u, stored, rfl⟩, number⟩

theorem vertex_refusal {id : Value} {e : Error} (refused : g.vertex id = .error e) :
    e.aboutLayer = false := by
  rcases bind_eq_error_iff.1 refused with unfit | ⟨hit, _, answer⟩
  · rcases bind_eq_error_iff.1 unfit with no_key | ⟨key, _, search⟩
    · exact Value.lookupId_refusal no_key
    · cases key <;> cases search
  · cases hit with
    | none => cases answer; rfl
    | some v => cases answer

theorem findSubgraph_eq_some {id : Value} {s : Subgraph} (found : g.findSubgraph id = some s) :
    s ∈ g.subgraphs ∧ id = .str (String.ofList s.name) := by
  cases id with
  | str name =>
      have result : g.subgraphs.find? (fun s => s.name = name.toList) = some s := found
      have same : s.name = name.toList := by simpa using List.find?_some result
      refine ⟨List.mem_of_find?_eq_some result, ?_⟩
      rw [same, String.ofList_toList]
  | _ => cases found

theorem findSubgraph_of_ok {id : Value} {s : Subgraph} (found : g.subgraph id = .ok s) :
    g.findSubgraph id = some s := by
  unfold subgraph at found
  cases search : g.findSubgraph id with
  | none => simp [search] at found
  | some t =>
      rw [search] at found
      cases found
      rfl

theorem subgraph_eq_ok {id : Value} {s : Subgraph} (found : g.subgraph id = .ok s) :
    s ∈ g.subgraphs ∧ id = .str (String.ofList s.name) :=
  findSubgraph_eq_some (findSubgraph_of_ok found)

theorem checkMember_eq_ok {owner : Option Text} {id : Value}
    (checked : g.checkMember owner id = .ok ()) :
    (∃ v ∈ g.vertices, id.integer? = some (v.id : Int)) ∧
      ∀ s ∈ g.subgraphs, owner ≠ some s.name → s.contains id = false := by
  obtain ⟨v, looked_up, rest⟩ := bind_eq_ok_iff.1 checked
  obtain ⟨stored, number⟩ := vertex_eq_ok looked_up
  refine ⟨⟨v, stored, number⟩, ?_⟩
  cases search : g.subgraphs.find? fun s => !(owner == some s.name) && s.contains id with
  | some holder =>
      rw [search] at rest
      cases rest
  | none =>
      intro s member other
      have passed_over := List.find?_eq_none.1 search s member
      simpa [other] using passed_over

theorem checkMembers_eq_ok {owner : Option Text} {ids : List Value}
    (checked : g.checkMembers owner ids = .ok ()) :
    ∀ id ∈ ids, (∃ v ∈ g.vertices, id.integer? = some (v.id : Int)) ∧
      ∀ s ∈ g.subgraphs, owner ≠ some s.name → s.contains id = false := by
  induction ids with
  | nil => simp
  | cons first rest ih =>
      obtain ⟨_, first_checked, rest_checked⟩ := bind_eq_ok_iff.1 checked
      intro id member
      rcases List.mem_cons.1 member with rfl | later
      · exact checkMember_eq_ok first_checked
      · exact ih rest_checked id later

theorem ints_of_checked {owner : Option Text} {ids : List Value}
    (checked : g.checkMembers owner ids = .ok ()) :
    ∀ m ∈ ids.map Value.plain, ∃ n, m = .int n := by
  intro m member
  obtain ⟨id, given, rfl⟩ := List.mem_map.1 member
  obtain ⟨⟨v, _, named⟩, _⟩ := checkMembers_eq_ok checked id given
  exact ⟨v.id, Value.plain_of_integer named⟩

theorem checkMember_refusal {owner : Option Text} {id : Value} {e : Error}
    (refused : g.checkMember owner id = .error e) : e.aboutLayer = false := by
  rcases bind_eq_error_iff.1 refused with no_vertex | ⟨v, _, taken⟩
  · exact vertex_refusal no_vertex
  · split at taken
    · cases taken; rfl
    · cases taken

theorem checkMembers_refusal {owner : Option Text} {ids : List Value} {e : Error}
    (refused : g.checkMembers owner ids = .error e) : e.aboutLayer = false := by
  induction ids with
  | nil => cases refused
  | cons first rest ih =>
      rcases bind_eq_error_iff.1 refused with first_refused | ⟨_, _, rest_refused⟩
      · exact checkMember_refusal first_refused
      · exact ih rest_refused

end Graph
end DotDoc
