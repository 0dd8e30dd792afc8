import DotDoc.Proofs.Graph.BrokenOff
import DotDoc.Proofs.Graph.Variants

/-!
# Who may join a subgraph

A new subgraph takes vertices that no subgraph holds, and a stored one takes vertices that no
other subgraph holds.  The first value that is no such vertex is the reason of the refusal: it is
no vertex, or it is held, and then by one subgraph only, because subgraphs share no members.  What
is taken comes behind the old members, each value once and where it is named first.

Members are the numbers of vertices, so a list of them is written as a list of numbers here.
-/

set_option autoImplicit false

namespace DotDoc

namespace Value

/-- A value that can be looked up and is no number, unless it is an integer. -/
def isId : Value → Bool
  | bool _ => false
  | float _ => false
  | v => v.isHashable

theorem isHashable_of_isId {v : Value} (fit : v.isId = true) : v.isHashable = true := by
  cases v with
  | bool _ => cases fit
  | float _ => cases fit
  | _ => exact fit

theorem eq_int_of_isId {v : Value} {n : Int} (fit : v.isId = true) (number : v.integer? = some n) :
    v = .int n := by
  cases v with
  | int m => exact congrArg int (Option.some.inj number)
  | bool _ => cases fit
  | float _ => cases fit
  | _ => cases number

theorem plain_of_isId {v : Value} (fit : v.isId = true) : v.plain = v := by
  cases number : v.integer? with
  | none => rw [plain, number]
  | some n => rw [plain_of_integer number, eq_int_of_isId fit number]

theorem map_plain_of_isId {items : List Value} (fit : ∀ id ∈ items, id.isId = true) :
    items.map plain = items :=
  (List.map_congr_left fun id member => plain_of_isId (fit id member)).trans (List.map_id _)

/-- Numbers of vertices as values. -/
def numbered (numbers : List Nat) : List Value :=
  numbers.map fun (n : Nat) => .int n

theorem mem_numbered {n : Nat} {numbers : List Nat} : .int n ∈ numbered numbers ↔ n ∈ numbers := by
  simp only [numbered, List.mem_map, int.injEq, Int.natCast_inj, exists_eq_right]

theorem exists_numbered {items : List Value} (numbers : ∀ v ∈ items, ∃ n : Nat, v = .int n) :
    ∃ ns, items = numbered ns := by
  induction items with
  | nil => exact ⟨[], rfl⟩
  | cons v rest ih =>
      obtain ⟨n, rfl⟩ := numbers v (List.mem_cons_self ..)
      obtain ⟨ns, rfl⟩ := ih fun w member => numbers w (List.mem_cons_of_mem _ member)
      exact ⟨n :: ns, rfl⟩

end Value

open Value (numbered)

namespace Subgraph

variable {s : Subgraph}

theorem contains_numbered {held : List Nat} (members : s.members = numbered held) (n : Nat) :
    s.contains (.int n) = true ↔ n ∈ held := by
  have ints : ∀ m ∈ s.members, ∃ k, m = .int k := by
    intro m member
    rw [members] at member
    obtain ⟨k, _, rfl⟩ := List.mem_map.1 member
    exact ⟨k, rfl⟩
  rw [contains, Value.occursIn_iff_of_ints ints, members, Value.mem_numbered]

/-- What is added comes behind the old members, each number once and where it stands first. -/
theorem members_addMembers {held : List Nat} (members : s.members = numbered held)
    (new : List Nat) :
    (s.addMembers (numbered new)).members
      = numbered (held ++ (new.filter (· ∉ held)).eraseDups) := by
  induction new generalizing s held with
  | nil => simp [numbered, addMembers, members]
  | cons n rest ih =>
      have step : s.addMembers (numbered (n :: rest))
          = (s.addMember (.int n)).addMembers (numbered rest) := rfl
      rw [step]
      by_cases present : n ∈ held
      · have kept : s.addMember (.int n) = s := if_pos ((contains_numbered members n).2 present)
        rw [kept, ih members, List.filter_cons_of_neg (by simp [present])]
      · have absent : ¬s.contains (.int n) = true :=
          fun found => present ((contains_numbered members n).1 found)
        have added : (s.addMember (.int n)).members = numbered (held ++ [n]) := by
          rw [addMember, if_neg absent, members]
          simp [numbered]
        have others : rest.filter (· ∉ held ++ [n])
            = (rest.filter (· ∉ held)).filter fun k => !k == n := by
          rw [List.filter_filter]
          refine List.filter_congr fun k _ => ?_
          by_cases same : k = n <;> simp [same]
        rw [ih added, others, List.filter_cons_of_pos (by simp [present]), List.eraseDups_cons,
          List.append_assoc]
        rfl

theorem create_of_fit {number : Int} {isCluster : Bool} {members : List Value}
    {properties : Keywords} (fit : ∀ entry ∈ properties.entries, ¬Unfit entry) :
    ∃ s, create number isCluster members properties = .ok s := by
  have stored := setProperties_of_fit properties.distinct fit
    ((empty number isCluster).addMembers members)
  exact ⟨_, by rw [create, stored]⟩

end Subgraph

namespace Graph

variable {g : Graph}

/-- A stored vertex that none of some subgraphs holds. -/
structure MayJoin (g : Graph) (others : Subgraph → Prop) (id : Value) : Prop where
  stored : ∃ v ∈ g.vertices, id = .int v.id
  not_held : ∀ s ∈ g.subgraphs, others s → id ∉ s.members

/-- Why a value may not join: it is no vertex, or one of the subgraphs holds it, which is then the
only one that does. -/
inductive Obstacle (g : Graph) (others : Subgraph → Prop) (id : Value) : Error → Prop
  | missing (absent : ¬∃ v ∈ g.vertices, id = .int v.id) :
      Obstacle g others id (.vertexNotFound id)
  | held (stored : ∃ v ∈ g.vertices, id = .int v.id) (holder : Subgraph)
      (listed : holder ∈ g.subgraphs) (other : others holder) (member : id ∈ holder.members)
      (only : ∀ s ∈ g.subgraphs, id ∈ s.members → s = holder) :
      Obstacle g others id (.alreadyMember id holder.name)

theorem vertex_cases (c : g.Consistent) {id : Value} (fit : id.isId = true) :
    (∃ v ∈ g.vertices, id = .int v.id ∧ g.vertex id = .ok v) ∨
      ((¬∃ v ∈ g.vertices, id = .int v.id) ∧ g.vertex id = .error (.vertexNotFound id)) := by
  by_cases stored : ∃ v ∈ g.vertices, id = .int v.id
  · obtain ⟨v, member, rfl⟩ := stored
    exact .inl ⟨v, member, rfl, c.vertex_of_mem member⟩
  · refine .inr ⟨stored, ?_⟩
    cases found : g.vertex id with
    | ok v =>
        obtain ⟨member, number⟩ := vertex_eq_ok found
        exact absurd ⟨v, member, Value.eq_int_of_isId fit number⟩ stored
    | error e =>
        rcases bind_eq_error_iff.1 found with no_search | ⟨hit, _, answer⟩
        · rcases bind_eq_error_iff.1 no_search with no_key | ⟨key, _, search⟩
          · rw [Value.lookupId, if_pos (Value.isHashable_of_isId fit)] at no_key
            cases no_key
          · cases key <;> cases search
        · cases hit with
          | none =>
              cases answer
              rfl
          | some v => cases answer

theorem checkMember_cases (c : g.Consistent) {owner : Option Text} {others : Subgraph → Prop}
    (owned : ∀ s ∈ g.subgraphs, others s ↔ owner ≠ some s.name) {id : Value}
    (fit : id.isId = true) :
    (g.MayJoin others id ∧ g.checkMember owner id = .ok ()) ∨
      ∃ e, g.Obstacle others id e ∧ g.checkMember owner id = .error e := by
  rcases vertex_cases c fit with ⟨v, stored, rfl, found⟩ | ⟨absent, not_found⟩
  · have number : ∃ u ∈ g.vertices, Value.int v.id = .int u.id := ⟨v, stored, rfl⟩
    cases search : g.subgraphs.find? fun s =>
        !(owner == some s.name) && s.contains (.int v.id) with
    | none =>
        have passed : g.checkMember owner (.int v.id) = .ok () := by
          simp only [checkMember, found, bind, Except.bind, search]
          rfl
        refine .inl ⟨⟨number, fun s listed other member => ?_⟩, passed⟩
        have passed_over := List.find?_eq_none.1 search s listed
        have apart := (owned s listed).1 other
        have held := (c.contains_iff listed v.id).2 member
        simp [apart, held] at passed_over
    | some holder =>
        have refused : g.checkMember owner (.int v.id)
            = .error (.alreadyMember (.int v.id) holder.name) := by
          simp only [checkMember, found, bind, Except.bind, search]
          rfl
        have listed := List.mem_of_find?_eq_some search
        have hit := List.find?_some search
        simp only [Bool.and_eq_true, Bool.not_eq_true', beq_eq_false_iff_ne] at hit
        have member := (c.contains_iff listed v.id).1 hit.2
        refine .inr ⟨_, .held number holder listed ((owned holder listed).2 hit.1) member ?_,
          refused⟩
        intro s s_listed in_s
        by_contra different
        exact c.disjoint_of_ne s_listed listed different in_s member
  · refine .inr ⟨_, .missing absent, ?_⟩
    rw [checkMember, not_found]
    rfl

theorem checkMembers_cases (c : g.Consistent) {owner : Option Text} {others : Subgraph → Prop}
    (owned : ∀ s ∈ g.subgraphs, others s ↔ owner ≠ some s.name) {items : List Value}
    (fit : ∀ id ∈ items, id.isId = true) :
    ((∀ id ∈ items, g.MayJoin others id) ∧ g.checkMembers owner items = .ok ()) ∨
      ∃ before id later e, items = before ++ id :: later ∧ (∀ v ∈ before, g.MayJoin others v) ∧
        g.Obstacle others id e ∧ g.checkMembers owner items = .error e := by
  induction items with
  | nil => exact .inl ⟨nofun, rfl⟩
  | cons first rest ih =>
      rcases checkMember_cases c owned (fit first (List.mem_cons_self ..)) with
        ⟨joins, checked⟩ | ⟨e, obstacle, refused⟩
      · have step : g.checkMembers owner (first :: rest) = g.checkMembers owner rest := by
          rw [checkMembers, checked]
          rfl
        rw [step]
        rcases ih fun id member => fit id (List.mem_cons_of_mem _ member) with
          ⟨all_join, passed⟩ | ⟨before, id, later, e, rfl, before_join, obstacle, refused⟩
        · exact .inl ⟨List.forall_mem_cons.2 ⟨joins, all_join⟩, passed⟩
        · exact .inr ⟨first :: before, id, later, e, rfl,
            List.forall_mem_cons.2 ⟨joins, before_join⟩, obstacle, refused⟩
      · refine .inr ⟨[], first, rest, e, rfl, nofun, obstacle, ?_⟩
        rw [checkMembers, refused]
        rfl

/-! ## Joining as a whole -/

/-- An operation accepts values as members exactly when all of them may join, and it is refused
otherwise for the first that may not. -/
structure AcceptsMembers (g : Graph) (others : Subgraph → Prop) (items : List Value) {α : Type}
    (result : Except Error α) : Prop where
  accepted_iff : (∃ a, result = .ok a) ↔ ∀ id ∈ items, g.MayJoin others id
  refused_first : ∀ e, result = .error e → ∃ before id later, items = before ++ id :: later ∧
    (∀ v ∈ before, g.MayJoin others v) ∧ g.Obstacle others id e

theorem Obstacle.not_mayJoin {others : Subgraph → Prop} {id : Value} {e : Error}
    (obstacle : g.Obstacle others id e) : ¬g.MayJoin others id := by
  intro joins
  cases obstacle with
  | missing absent => exact absent joins.stored
  | held _ holder listed other member _ => exact joins.not_held holder listed other member

theorem acceptsMembers_of_checked (c : g.Consistent) (owner : Option Text)
    {others : Subgraph → Prop} (owned : ∀ s ∈ g.subgraphs, others s ↔ owner ≠ some s.name)
    {items : List Value} (fit : ∀ id ∈ items, id.isId = true) {α : Type} {result : Except Error α}
    (passed : g.checkMembers owner items = .ok () → ∃ a, result = .ok a)
    (refused : ∀ e, g.checkMembers owner items = .error e → result = .error e) :
    AcceptsMembers g others items result := by
  rcases checkMembers_cases c owned fit with
    ⟨all_join, checked⟩ | ⟨before, id, later, e, rfl, before_join, obstacle, checked⟩
  · obtain ⟨a, answered⟩ := passed checked
    refine ⟨iff_of_true ⟨a, answered⟩ all_join, fun e failed => ?_⟩
    rw [answered] at failed
    cases failed
  · have failed := refused e checked
    constructor
    · rw [failed]
      refine iff_of_false nofun fun all_join => obstacle.not_mayJoin (all_join id ?_)
      simp
    · rintro first same
      rw [failed] at same
      cases same
      exact ⟨before, id, later, rfl, before_join, obstacle⟩

theorem numbered_of_checked {owner : Option Text} {items : List Value}
    (fit : ∀ id ∈ items, id.isId = true) (checked : g.checkMembers owner items = .ok ()) :
    ∃ numbers, items = numbered numbers := by
  refine Value.exists_numbered fun id member => ?_
  obtain ⟨⟨v, _, number⟩, _⟩ := checkMembers_eq_ok checked id member
  exact ⟨v.id, Value.eq_int_of_isId (fit id member) number⟩

theorem addGroup_of_elements (isCluster : Bool) {ids : Value} {items : List Value}
    {properties : Keywords} (listed : ids.elements = .ok items)
    (fit : ∀ id ∈ items, id.isId = true) (free : properties.clashesWith ["vertex_ids"] = false)
    (fit_layers : ∀ entry ∈ properties.entries, ¬Subgraph.Unfit entry) :
    (∀ e, g.checkMembers none items = .error e →
      g.addGroup isCluster ids properties = (.error e, g)) ∧
    (g.checkMembers none items = .ok () → ∃ s numbers, items = numbered numbers ∧
      s.isCluster = isCluster ∧ s.members = numbered numbers.eraseDups ∧
      g.addGroup isCluster ids properties = (.ok s.name,
        { g with nextSubgraph := g.nextSubgraph + 1, subgraphs := g.subgraphs ++ [s] })) := by
  unfold addGroup
  rw [Action.check_of_ok g (Keywords.checkNames_of_free free), Action.check_of_ok g listed]
  constructor
  · intro e refused
    rw [Action.ask_bind, refused]
  · intro checked
    rw [Action.ask_of_ok g checked, Value.map_plain_of_isId fit]
    obtain ⟨numbers, rfl⟩ := numbered_of_checked fit checked
    obtain ⟨s, created⟩ :
        ∃ s, Subgraph.create g.nextSubgraph isCluster (numbered numbers) properties = .ok s :=
      Subgraph.create_of_fit fit_layers
    obtain ⟨_, sort, members⟩ := Subgraph.create_sameGroup created
    have none_held : (Subgraph.empty g.nextSubgraph isCluster).members = numbered [] := rfl
    have joined := Subgraph.members_addMembers none_held numbers
    refine ⟨s, numbers, rfl, ?_, ?_, ?_⟩
    · rw [sort, Subgraph.addMembers_isCluster]
      rfl
    · rw [members, joined]
      simp
    · exact Action.check_of_ok _ created

theorem addToSubgraph_of_elements {id ids : Value} {items : List Value} {s : Subgraph}
    (found : g.findSubgraph id = some s) (listed : ids.elements = .ok items)
    (fit : ∀ id ∈ items, id.isId = true) :
    (∀ e, g.checkMembers (some s.name) items = .error e →
      g.addToSubgraph id ids = (.error e, g)) ∧
    (g.checkMembers (some s.name) items = .ok () →
      g.addToSubgraph id ids = (.ok (), g.replaceSubgraph (s.addMembers items))) := by
  have looked_up : g.subgraph id = .ok s := by rw [subgraph, found]
  have asked := Value.map_plain_of_isId fit
  unfold addToSubgraph
  rw [Action.ask_of_ok g looked_up, Action.check_of_ok g listed, Action.ask_bind, asked]
  constructor
  · intro e checked
    rw [checked]
  · intro checked
    rw [checked]
    rfl

theorem addMembers_of_checked (c : g.Consistent) {id : Value} {items : List Value} {s : Subgraph}
    (found : g.findSubgraph id = some s) (fit : ∀ id ∈ items, id.isId = true)
    (checked : g.checkMembers (some s.name) items = .ok ()) :
    ∃ held numbers joined, s.members = numbered held ∧ items = numbered numbers ∧
      joined = { s with
        members := numbered (held ++ (numbers.filter (· ∉ held)).eraseDups) } ∧
      s.addMembers items = joined ∧ (g.replaceSubgraph joined).findSubgraph id = some joined := by
  obtain ⟨stored, named⟩ := c.findSubgraph_eq_some_iff.1 found
  have plain := Value.map_plain_of_isId fit
  obtain ⟨numbers, rfl⟩ := numbered_of_checked fit checked
  obtain ⟨held, members⟩ : ∃ held, s.members = numbered held := by
    refine Value.exists_numbered fun m member => ?_
    obtain ⟨v, _, number⟩ := c.members_stored s stored m member
    exact ⟨v.id, number⟩
  have shape : s.addMembers (numbered numbers) = { s with
      members := numbered (held ++ (numbers.filter (· ∉ held)).eraseDups) } := by
    rw [Subgraph.addMembers_eq, Subgraph.members_addMembers members]
  have still_c := consistent_addMembers c stored checked
  rw [plain, shape] at still_c
  refine ⟨held, numbers, _, members, rfl, rfl, shape,
    still_c.findSubgraph_eq_some_iff.2 ⟨?_, named⟩⟩
  exact List.mem_map.2 ⟨s, stored, if_pos rfl⟩

/-- A new subgraph takes values exactly when they are vertices that no subgraph holds, and a stored
one exactly when they are vertices that no other subgraph holds.  What is taken stands behind the
old members, each value once and where it is named first. -/
theorem members_accepted_iff_disjoint (reached : Reachable g) {ids : Value} {items : List Value}
    (listed : ids.elements = .ok items) (fit : ∀ id ∈ items, id.isId = true) :
    (∀ isCluster properties, properties.clashesWith ["vertex_ids"] = false →
      (∀ entry ∈ properties.entries, ¬Subgraph.Unfit entry) →
        AcceptsMembers g (fun _ => True) items (g.addGroup isCluster ids properties).1 ∧
        ∀ name, (g.addGroup isCluster ids properties).1 = .ok name →
          ∃ s numbers, items = numbered numbers ∧ s.name = name ∧ s.isCluster = isCluster ∧
            s.members = numbered numbers.eraseDups ∧
            (g.addGroup isCluster ids properties).2 =
              { g with nextSubgraph := g.nextSubgraph + 1, subgraphs := g.subgraphs ++ [s] }) ∧
    ∀ id s, g.findSubgraph id = some s →
      AcceptsMembers g (· ≠ s) items (g.addToSubgraph id ids).1 ∧
      ∀ g', g.addToSubgraph id ids = (.ok (), g') →
        ∃ held numbers joined, s.members = numbered held ∧ items = numbered numbers ∧
          joined = { s with
            members := numbered (held ++ (numbers.filter (· ∉ held)).eraseDups) } ∧
          g' = g.replaceSubgraph joined ∧ g'.findSubgraph id = some joined := by
  have c := reached.consistent
  constructor
  · intro isCluster properties free fit_layers
    obtain ⟨refused, passed⟩ := addGroup_of_elements (g := g) isCluster listed fit free fit_layers
    constructor
    · refine acceptsMembers_of_checked c none (fun s _ => by simp) fit ?_ ?_
      · intro checked
        obtain ⟨s, _, _, _, _, added⟩ := passed checked
        exact ⟨s.name, by rw [added]⟩
      · exact fun e checked => congrArg Prod.fst (refused e checked)
    · intro name added
      have ends : g.addGroup isCluster ids properties
          = (.ok name, (g.addGroup isCluster ids properties).2) := Prod.ext added rfl
      have checked : g.checkMembers none items = .ok () := checked_of_addGroup listed ends
      obtain ⟨s, numbers, whole, sort, members, answered⟩ := passed checked
      rw [answered] at added ⊢
      cases added
      exact ⟨s, numbers, whole, rfl, sort, members, rfl⟩
  · intro id s found
    obtain ⟨stored, named⟩ := c.findSubgraph_eq_some_iff.1 found
    obtain ⟨refused, passed⟩ := addToSubgraph_of_elements found listed fit
    constructor
    · refine acceptsMembers_of_checked c (some s.name) ?_ fit ?_ ?_
      · intro t t_stored
        rw [not_iff_not, Option.some.injEq]
        exact ⟨fun same => by rw [same], fun names => c.eq_of_name_eq t_stored stored names.symm⟩
      · intro checked
        exact ⟨(), by rw [passed checked]⟩
      · exact fun e checked => congrArg Prod.fst (refused e checked)
    · intro g' joined
      have checked : g.checkMembers (some s.name) items = .ok () := by
        cases result : g.checkMembers (some s.name) items with
        | ok _ => rfl
        | error e =>
            rw [refused e result] at joined
            cases joined
      obtain ⟨held, numbers, after, members, whole, shape, taken, still_found⟩ :=
        addMembers_of_checked c found fit checked
      rw [passed checked, taken] at joined
      cases joined
      exact ⟨held, numbers, after, members, whole, shape, rfl, still_found⟩

def sharedOutGraph : Graph :=
  (ofLayers .empty .empty .empty).run
    [.addVertex (.str "a") .empty, .addVertex (.str "b") .empty, .addVertex (.str "c") .empty,
      .addVertex (.str "d") .empty, .addCluster (.list [.int 1]) .empty,
      .addSubgraph (.list [.int 0]) .empty]

/-- Two vertices join a cluster, each named twice and one member among them, and they cannot form
a cluster with that member: the first of the two that have a subgraph is the reason. -/
theorem sharedOutGraph_members_accepted :
    Reachable sharedOutGraph ∧
    (∃ s after, sharedOutGraph.findSubgraph (.str "cluster0") = some s ∧
      sharedOutGraph.addToSubgraph (.str "cluster0")
        (.list [.int 3, .int 1, .int 2, .int 3, .int 2]) = (.ok (), after) ∧
      after.subgraphs.map Subgraph.members = [[.int 1, .int 3, .int 2], [.int 0]] ∧
      ∀ id ∈ [Value.int 3, .int 1, .int 2, .int 3, .int 2],
        sharedOutGraph.MayJoin (· ≠ s) id) ∧
    (sharedOutGraph.addGroup true (.list [.int 3, .int 1, .int 0]) .empty).1
        = .error (.alreadyMember (.int 1) "cluster0".toList) ∧
      ¬∀ id ∈ [Value.int 3, .int 1, .int 0], sharedOutGraph.MayJoin (fun _ => True) id := by
  have reached : Reachable sharedOutGraph := reachable_run_empty _
  refine ⟨reached, ?_, rfl, ?_⟩
  · have listed : (Value.list [.int 3, .int 1, .int 2, .int 3, .int 2]).elements = .ok _ := rfl
    obtain ⟨_, stored⟩ := members_accepted_iff_disjoint reached listed (by decide)
    have accepts := (stored (.str "cluster0") _ rfl).1
    exact ⟨_, _, rfl, rfl, rfl, accepts.accepted_iff.1 ⟨_, rfl⟩⟩
  · have listed : (Value.list [.int 3, .int 1, .int 0]).elements = .ok _ := rfl
    obtain ⟨new, _⟩ := members_accepted_iff_disjoint reached listed (by decide)
    have accepts := (new true .empty rfl nofun).1
    rw [← accepts.accepted_iff]
    rintro ⟨name, added⟩
    cases added

end Graph
end DotDoc
