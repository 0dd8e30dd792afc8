import DotDoc.Graph.Document
import DotDoc.Proofs.Graph.Lookup

/-!
# Members and properties of one subgraph

Adding members keeps the old ones and repeats none, and removing members only takes some away.
Neither touches the sort and the number of a subgraph, and properties do not touch its members
either, so a subgraph keeps its name for as long as it is stored.
-/

set_option autoImplicit false

namespace DotDoc.Subgraph

variable {s t : Subgraph}

theorem not_mem_of_contains_eq_false {id : Value} {n : Int} (named : id.integer? = some n)
    (absent : s.contains id = false) : .int n ∉ s.members := by
  intro member
  have present : s.contains id = true :=
    List.any_eq_true.2 ⟨.int n, member, by simp [Value.int_same, named]⟩
  rw [absent] at present
  cases present

@[simp] theorem addMember_number (v : Value) : (s.addMember v).number = s.number := by
  unfold addMember; split <;> rfl

@[simp] theorem addMember_isCluster (v : Value) : (s.addMember v).isCluster = s.isCluster := by
  unfold addMember; split <;> rfl

@[simp] theorem addMembers_nil (s : Subgraph) : s.addMembers [] = s := rfl

@[simp] theorem addMembers_cons (v : Value) (vs : List Value) (s : Subgraph) :
    s.addMembers (v :: vs) = (s.addMember v).addMembers vs := rfl

@[simp] theorem addMembers_number (vs : List Value) : (s.addMembers vs).number = s.number := by
  induction vs generalizing s with
  | nil => rfl
  | cons v rest ih => rw [addMembers_cons, ih, addMember_number]

@[simp] theorem addMembers_isCluster (vs : List Value) :
    (s.addMembers vs).isCluster = s.isCluster := by
  induction vs generalizing s with
  | nil => rfl
  | cons v rest ih => rw [addMembers_cons, ih, addMember_isCluster]

theorem mem_addMember {v m : Value} (member : m ∈ (s.addMember v).members) :
    m ∈ s.members ∨ m = v := by
  unfold addMember at member
  split at member
  · exact .inl member
  · simpa using member

theorem mem_addMembers {vs : List Value} {m : Value} (member : m ∈ (s.addMembers vs).members) :
    m ∈ s.members ∨ m ∈ vs := by
  induction vs generalizing s with
  | nil => exact .inl member
  | cons v rest ih =>
      rcases ih member with earlier | later
      · rcases mem_addMember earlier with held | rfl
        · exact .inl held
        · exact .inr (List.mem_cons_self ..)
      · exact .inr (List.mem_cons_of_mem _ later)

theorem nodup_addMember {n : Int} (distinct : s.members.Nodup) :
    (s.addMember (.int n)).members.Nodup := by
  unfold addMember
  split
  · exact distinct
  · rename_i absent
    have fresh : .int n ∉ s.members := not_mem_of_contains_eq_false rfl (by simpa using absent)
    refine List.nodup_append.2 ⟨distinct, by simp, ?_⟩
    intro m held new member same
    rw [List.mem_singleton.1 member] at same
    exact fresh (same ▸ held)

theorem nodup_addMembers {vs : List Value} (ints : ∀ v ∈ vs, ∃ n, v = .int n)
    (distinct : s.members.Nodup) : (s.addMembers vs).members.Nodup := by
  induction vs generalizing s with
  | nil => exact distinct
  | cons v rest ih =>
      obtain ⟨n, rfl⟩ := ints v (List.mem_cons_self ..)
      exact ih (fun w member => ints w (List.mem_cons_of_mem _ member)) (nodup_addMember distinct)

/-- The subgraph without the given members, all of which can be compared. -/
def without (vs : List Value) (s : Subgraph) : Subgraph :=
  { s with members := s.members.filter fun member => !member.occursIn vs }

theorem without_of_integer {id : Value} {n : Int} (ints : ∀ m ∈ s.members, ∃ k, m = .int k)
    (named : id.integer? = some n) : s.without [id] = s.without [.int n] := by
  rw [without, without]
  congr 1
  refine List.filter_congr fun m member => ?_
  obtain ⟨k, rfl⟩ := ints m member
  rw [Value.occursIn_singleton_int, Value.occursIn_singleton_int, Value.isInteger, Value.isInteger,
    named, Value.integer?]

theorem removeMembers_eq_ok {vs : List Value} (removed : s.removeMembers vs = .ok t) :
    t = s.without vs := by
  unfold removeMembers at removed
  split at removed
  · exact (Except.ok.inj removed).symm
  · cases removed

theorem removeMembers_of_hashable {vs : List Value} (keys : Value.allHashable vs = true)
    (comparable : s.isWritable = true) : s.removeMembers vs = .ok (s.without vs) := by
  have both : (Value.allHashable vs && Value.allHashable s.members) = true := by
    rw [keys]; exact comparable
  simp [removeMembers, both, without]

/-- The number, the sort and the members are the same. -/
def SameGroup (s t : Subgraph) : Prop :=
  t.number = s.number ∧ t.isCluster = s.isCluster ∧ t.members = s.members

theorem SameGroup.trans {r : Subgraph} (first : SameGroup r s) (second : SameGroup s t) :
    SameGroup r t :=
  ⟨second.1.trans first.1, second.2.1.trans first.2.1, second.2.2.trans first.2.2⟩

theorem setProperty_sameGroup {key : String} {value : Value}
    (changed : s.setProperty key value = .ok t) : SameGroup s t := by
  unfold setProperty at changed
  split at changed
  · split at changed
    · cases changed; exact ⟨rfl, rfl, rfl⟩
    · cases changed
  · split at changed
    · split at changed
      · cases changed; exact ⟨rfl, rfl, rfl⟩
      · cases changed
    · cases changed; exact ⟨rfl, rfl, rfl⟩

theorem setProperties_sameGroup (properties : Entries Value) :
    SameGroup s (setProperties properties s).2 := by
  induction properties generalizing s with
  | nil => exact ⟨rfl, rfl, rfl⟩
  | cons entry rest ih =>
      obtain ⟨key, value⟩ := entry
      rw [setProperties]
      cases result : s.setProperty key value with
      | ok changed => exact (setProperty_sameGroup result).trans ih
      | error e => exact ⟨rfl, rfl, rfl⟩

theorem create_sameGroup {number : Int} {isCluster : Bool} {members : List Value}
    {properties : Keywords} (created : create number isCluster members properties = .ok s) :
    SameGroup ((empty number isCluster).addMembers members) s := by
  unfold create at created
  have kept := setProperties_sameGroup (s := (empty number isCluster).addMembers members)
    properties.entries
  split at created
  · rename_i result
    cases created
    rw [result] at kept
    exact kept
  · cases created

/-- A property that is refused as a layer, and the refusal. -/
inductive LayerFault (properties : Entries Value) : Error → Prop
  | intro (layer : String) (value : Value) (given : (layer, value) ∈ properties)
      (is_layer : layer = "node" ∨ layer = "edge")
      (unfit : value.isUnset = false ∧ value.mapping? = none) :
      LayerFault properties (.layerNotMapping layer value)

theorem layerWith_eq_none {value : Value} {layer : AttrList}
    (refused : layerWith value layer = none) : value.isUnset = false ∧ value.mapping? = none := by
  unfold layerWith at refused
  split at refused
  · cases refused
  · rename_i set
    exact ⟨by simpa using set, by simpa using refused⟩

theorem setProperty_fault {key : String} {value : Value} {e : Error}
    (refused : s.setProperty key value = .error e) : LayerFault [(key, value)] e := by
  unfold setProperty at refused
  split at refused
  · rename_i is_node
    split at refused
    · cases refused
    · rename_i unfit
      cases refused
      exact .intro key value (by simp) (.inl is_node) (layerWith_eq_none unfit)
  · split at refused
    · rename_i is_edge
      split at refused
      · cases refused
      · rename_i unfit
        cases refused
        exact .intro key value (by simp) (.inr is_edge) (layerWith_eq_none unfit)
    · cases refused

theorem LayerFault.mono {fewer more : Entries Value} {e : Error} (fault : LayerFault fewer e)
    (subset : fewer ⊆ more) : LayerFault more e := by
  cases fault with
  | intro layer value given is_layer unfit =>
      exact .intro layer value (subset given) is_layer unfit

theorem setProperties_fault {properties : Entries Value} {e : Error}
    (refused : (setProperties properties s).1 = .error e) : LayerFault properties e := by
  induction properties generalizing s with
  | nil => cases refused
  | cons entry rest ih =>
      obtain ⟨key, value⟩ := entry
      rw [setProperties] at refused
      cases result : s.setProperty key value with
      | ok changed =>
          rw [result] at refused
          exact (ih refused).mono (List.subset_cons_self _ _)
      | error first =>
          rw [result] at refused
          cases refused
          exact (setProperty_fault result).mono (by simp)

theorem create_fault {number : Int} {isCluster : Bool} {members : List Value}
    {properties : Keywords} {e : Error}
    (refused : create number isCluster members properties = .error e) :
    LayerFault properties.entries e := by
  unfold create at refused
  split at refused
  · cases refused
  · rename_i first _ result
    cases refused
    exact setProperties_fault (congrArg Prod.fst result)

end DotDoc.Subgraph
