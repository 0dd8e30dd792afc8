import DotDoc.Graph.Document
import DotDoc.Proofs.Graph.Apart
import DotDoc.Proofs.Graph.Containment
import DotDoc.Proofs.Graph.Refusal

/-!
# Ports given with an edge and ports given afterwards

The ports of an edge can be given by attributes when the edge is added, or by an update once it is
there.  The update takes every value that does not count as true for the absence of a port; adding
takes only the absent value for it, and stores every other one.  So the two ways leave the same
graph exactly when each port counts as true or is absent.  The values between, among them the
marker that removes an attribute and the empty string, become ports of a new edge and are written
behind its vertex.
-/

set_option autoImplicit false

namespace DotDoc

namespace Value

theorem given?_eq_some {v : Value} (present : v ≠ .null) : v.given? = some v := by
  cases v with
  | null => exact absurd rfl present
  | _ => rfl

/-- Whether a value names a port or is the absent one. -/
def NamesPort (v : Value) : Prop :=
  v.isTruthy = true ∨ v = .null

theorem given?_eq_portOf_iff {v : Value} : v.given? = Edge.portOf v ↔ v.NamesPort := by
  constructor
  · intro same
    by_cases absent : v = .null
    · exact .inr absent
    · rw [given?_eq_some absent, Edge.portOf] at same
      by_cases counts : v.isTruthy = true
      · exact .inl counts
      · rw [if_neg counts] at same
        cases same
  · rintro (counts | rfl)
    · have present : v ≠ .null := by
        rintro rfl
        cases counts
      rw [given?_eq_some present, Edge.portOf, if_pos counts]
    · rfl

end Value

namespace Keywords

def ports (outport inport : Value) : Keywords :=
  ⟨[("outport", outport), ("inport", inport)], by simp [Entries.keys]⟩

def withoutPorts (k : Keywords) : Keywords :=
  (k.erase "outport").erase "inport"

/-- The keywords hold two ports, anywhere among other attributes that name no port. -/
structure AddsPorts (given attrs : Keywords) (outport inport : Value) : Prop where
  outport : given.find? "outport" = some outport
  inport : given.find? "inport" = some inport
  others : given.withoutPorts.entries = attrs.entries

theorem mem_withoutPorts {k : Keywords} {entry : String × Value} :
    entry ∈ k.withoutPorts.entries ↔ entry ∈ k.entries ∧ entry.1 ∉ portNames := by
  rw [withoutPorts, mem_erase_iff, mem_erase_iff]
  simp [portNames, and_assoc]

variable {given attrs : Keywords} {outport inport : Value}

theorem AddsPorts.not_mem (ports : given.AddsPorts attrs outport inport) {name : String}
    (named : name ∈ portNames) : name ∉ Entries.keys attrs.entries := by
  intro member
  obtain ⟨entry, held, rfl⟩ := List.mem_map.1 member
  rw [← ports.others] at held
  exact (mem_withoutPorts.1 held).2 named

theorem withoutPorts_entries {k : Keywords}
    (free : ∀ name ∈ portNames, name ∉ Entries.keys k.entries) :
    k.withoutPorts.entries = k.entries := by
  have first : Entries.erase "outport" k.entries = k.entries :=
    Entries.erase_of_not_mem (free _ (by decide))
  have second : Entries.erase "inport" k.entries = k.entries :=
    Entries.erase_of_not_mem (free _ (by decide))
  rw [withoutPorts, erase, erase]
  dsimp only
  rw [first, second]

theorem AddsPorts.clashesWith (ports : given.AddsPorts attrs outport inport) :
    given.clashesWith ["tail", "head"] = attrs.clashesWith ["tail", "head"] := by
  have taken : ∀ name ∈ portNames, name ≠ "self" ∧ name ∉ ["tail", "head"] := by decide
  rw [Bool.eq_iff_iff, ← not_iff_not, Bool.not_eq_true, Bool.not_eq_true,
    clashesWith_eq_false_iff, clashesWith_eq_false_iff]
  constructor
  · intro free name member
    obtain ⟨entry, held, rfl⟩ := List.mem_map.1 member
    rw [← ports.others] at held
    exact free entry.1 (List.mem_map_of_mem (mem_withoutPorts.1 held).1)
  · intro free name member
    obtain ⟨entry, held, rfl⟩ := List.mem_map.1 member
    by_cases port : entry.1 ∈ portNames
    · exact taken entry.1 port
    · have other : entry ∈ attrs.entries := by
        rw [← ports.others]
        exact mem_withoutPorts.2 ⟨held, port⟩
      exact free entry.1 (List.mem_map_of_mem other)

end Keywords

namespace Graph

variable {g : Graph}

def withNewEdge (tail head : Endpoint) (attrs : Keywords) (g : Graph) : Graph :=
  { g with
    edges := g.edges ++ [⟨g.nextEdge, tail, head, .ofKeywords attrs⟩]
    nextEdge := g.nextEdge + 1 }

theorem ofKeywords_congr {k l : Keywords} (same : k.entries = l.entries) :
    AttrList.ofKeywords k = AttrList.ofKeywords l := by
  rw [AttrList.ofKeywords, AttrList.ofKeywords, same]

theorem insertEdge_eq {tail head : Endpoint} (no_outport : tail.port = none)
    (no_inport : head.port = none) (given attrs : Keywords)
    (others : given.withoutPorts.entries = attrs.entries) :
    g.insertEdge tail head given
      = (g.nextEdge, g.withNewEdge { tail with port := (given.find? "outport").bind Value.given? }
          { head with port := (given.find? "inport").bind Value.given? } attrs) := by
  obtain ⟨_, _, _⟩ := tail
  obtain ⟨_, _, _⟩ := head
  cases no_outport
  cases no_inport
  rw [withNewEdge, ← ofKeywords_congr others]
  rfl

theorem edge_last {edges : List Edge} {last : Edge} (below : ∀ e ∈ edges, e.id < last.id) :
    ({ g with edges := edges ++ [last] } : Graph).edge (.int last.id) = .ok last := by
  have skipped : edges.find? (fun e => (e.id : Int) = last.id) = none := by
    rw [List.find?_eq_none]
    intro e member
    have smaller := below e member
    simp
    omega
  have found : (edges ++ [last]).find? (fun e => (e.id : Int) = last.id) = some last := by
    rw [List.find?_append, skipped]
    simp
  have key : (Value.int last.id).lookupId = .ok (some (last.id : Int)) := rfl
  simp only [edge, findEdge, key, bind, Except.bind, found]
  rfl

theorem updateEdge_last {edges : List Edge} {last : Edge} (changes : Keywords)
    (below : ∀ e ∈ edges, e.id < last.id) (accepted : changes.clashesWith ["eid"] = false) :
    ({ g with edges := edges ++ [last] } : Graph).updateEdge (.int last.id) changes
      = (.ok (), { g with edges := edges ++ [last.update changes] }) := by
  have others : edges.map (fun e => if e.id = last.id then e.update changes else e) = edges := by
    have same : ∀ e ∈ edges, (if e.id = last.id then e.update changes else e) = id e :=
      fun e member => if_neg (Nat.ne_of_lt (below e member))
    rw [List.map_congr_left same, List.map_id]
  rw [updateEdge, Action.check_of_ok _ (Keywords.checkNames_of_free accepted),
    Action.ask_of_ok _ (edge_last below), Action.modify_bind, Action.modify_bind,
    Action.modify_apply, modifyEdge_update]
  simp only [modifyEdge, List.map_append, others, List.map_cons, List.map_nil, if_pos]

/-- Adds an edge and then gives it its ports. -/
def addEdgeThenPorts (tail head : Value) (attrs : Keywords) (outport inport : Value) :
    Action Nat := do
  let id ← addEdge tail head attrs
  updateEdge (.int id) (.ports outport inport)
  return id

theorem update_ports (e : Edge) (outport inport : Value) :
    e.update (.ports outport inport)
      = { e with
          tail := { e.tail with port := Edge.portOf outport }
          head := { e.head with port := Edge.portOf inport } } :=
  rfl

theorem updateEdge_withNewEdge (c : g.Consistent) (tail head : Endpoint) (attrs : Keywords)
    (outport inport : Value) :
    (g.withNewEdge tail head attrs).updateEdge (.int g.nextEdge) (.ports outport inport)
      = (.ok (), g.withNewEdge { tail with port := Edge.portOf outport }
          { head with port := Edge.portOf inport } attrs) := by
  have below : ∀ e ∈ g.edges, e.id < (Edge.mk g.nextEdge tail head (.ofKeywords attrs)).id :=
    c.edges_below
  have updated := updateEdge_last (g := { g with nextEdge := g.nextEdge + 1 })
    (.ports outport inport) below rfl
  rw [update_ports] at updated
  exact updated

theorem withNewEdge_ports_inj {t h : Value} {v w : Nat} {attrs : Keywords}
    {p q p' q' : Option Value} :
    g.withNewEdge ⟨t, v, p⟩ ⟨h, w, q⟩ attrs = g.withNewEdge ⟨t, v, p'⟩ ⟨h, w, q'⟩ attrs ↔
      p = p' ∧ q = q' := by
  simp [withNewEdge]

theorem endpoint_of_named (c : g.Consistent) {id : Value} {v : Vertex} (stored : v ∈ g.vertices)
    (named : id.integer? = some (v.id : Int)) : g.endpoint id = .ok ⟨id, v.id, none⟩ := by
  have alone : id.idAndPort = .ok (id, .null) := by
    cases id <;> first | rfl | cases named
  simp only [endpoint, alone, bind, Except.bind, c.vertex_of_named stored named]
  rfl

theorem addEdge_refusal {tail head : Value} {attrs given : Keywords} {e : Error}
    (clash : given.clashesWith ["tail", "head"] = attrs.clashesWith ["tail", "head"])
    (refused : (g.addEdge tail head attrs).1 = .error e) :
    g.addEdge tail head given = (.error e, g) := by
  have names : given.checkNames ["tail", "head"] = attrs.checkNames ["tail", "head"] := by
    rw [Keywords.checkNames, Keywords.checkNames, clash]
  simp only [addEdge, Action.check_bind, Action.ask_bind, names] at refused ⊢
  generalize attrs.checkNames ["tail", "head"] = free at refused ⊢
  generalize g.endpoint tail = tail_found at refused ⊢
  generalize g.endpoint head = head_found at refused ⊢
  cases free with
  | error taken =>
      cases refused
      rfl
  | ok _ =>
      cases tail_found with
      | error no_tail =>
          cases refused
          rfl
      | ok t =>
          cases head_found with
          | error no_head =>
              cases refused
              rfl
          | ok h => cases refused

/-- Adding an edge with its ports and adding it without them and updating it afterwards are refused
alike.  Where the ends are vertices and no name is taken both add an edge with the next number, and
they leave the same graph exactly when each port counts as true or is absent: the new edge has
every port that is not absent, the updated one only those that count as true. -/
theorem edge_ports_agree_iff (reached : Reachable g) {given attrs : Keywords}
    {outport inport : Value} (ports : given.AddsPorts attrs outport inport) :
    (∀ t h : Value, ∀ v ∈ g.vertices, ∀ w ∈ g.vertices, t.integer? = some (v.id : Int) →
      h.integer? = some (w.id : Int) → attrs.clashesWith ["tail", "head"] = false →
      ∃ created updated,
        g.addEdge t h given = (.ok g.nextEdge, created) ∧
        g.addEdgeThenPorts t h attrs outport inport = (.ok g.nextEdge, updated) ∧
        created = g.withNewEdge ⟨t, v.id, outport.given?⟩ ⟨h, w.id, inport.given?⟩ attrs ∧
        updated
          = g.withNewEdge ⟨t, v.id, Edge.portOf outport⟩ ⟨h, w.id, Edge.portOf inport⟩ attrs ∧
        (created = updated ↔ outport.NamesPort ∧ inport.NamesPort)) ∧
    ∀ tail head e, (g.addEdge tail head attrs).1 = .error e →
      g.addEdge tail head given = (.error e, g) ∧
      g.addEdgeThenPorts tail head attrs outport inport = (.error e, g) := by
  have c := reached.consistent
  constructor
  · intro t h v tail_stored w head_stored tail_named head_named no_clash
    have tail_found := endpoint_of_named c tail_stored tail_named
    have head_found := endpoint_of_named c head_stored head_named
    have created : g.addEdge t h given = (.ok g.nextEdge,
        g.withNewEdge ⟨t, v.id, outport.given?⟩ ⟨h, w.id, inport.given?⟩ attrs) := by
      rw [addEdge_of_found (ports.clashesWith.trans no_clash) tail_found head_found,
        insertEdge_eq rfl rfl given attrs ports.others, ports.outport, ports.inport]
      rfl
    have alone : g.addEdge t h attrs
        = (.ok g.nextEdge, g.withNewEdge ⟨t, v.id, none⟩ ⟨h, w.id, none⟩ attrs) := by
      have free : ∀ name ∈ portNames, name ∉ Entries.keys attrs.entries :=
        fun name named => ports.not_mem named
      have no_outport : attrs.find? "outport" = none :=
        Entries.find?_of_not_mem (free _ (by decide))
      have no_inport : attrs.find? "inport" = none :=
        Entries.find?_of_not_mem (free _ (by decide))
      rw [addEdge_of_found no_clash tail_found head_found,
        insertEdge_eq rfl rfl attrs attrs (Keywords.withoutPorts_entries free), no_outport,
        no_inport]
      rfl
    have updated := updateEdge_withNewEdge c ⟨t, v.id, none⟩ ⟨h, w.id, none⟩ attrs outport inport
    refine ⟨_, _, created, ?_, rfl, rfl, ?_⟩
    · simp only [addEdgeThenPorts, Action.bind_apply, alone, updated]
      rfl
    · rw [withNewEdge_ports_inj, Value.given?_eq_portOf_iff, Value.given?_eq_portOf_iff]
  · intro tail head e refused
    refine ⟨addEdge_refusal ports.clashesWith refused, ?_⟩
    rw [addEdgeThenPorts, Action.bind_apply, addEdge_refusal rfl refused]

def loopGraph : Graph :=
  (ofLayers .empty .empty .empty).run [.addVertex (.str "a") .empty]

theorem loopGraph_ports_agree :
    Reachable loopGraph ∧
    (⟨[("color", .str "gray"), ("inport", .null), ("outport", .str "p")], by decide⟩ :
      Keywords).AddsPorts ⟨[("color", .str "gray")], by decide⟩ (.str "p") .null ∧
    ∃ after,
      loopGraph.addEdge (.int 0) (.int 0)
        ⟨[("color", .str "gray"), ("inport", .null), ("outport", .str "p")], by decide⟩
          = (.ok 0, after) ∧
      loopGraph.addEdgeThenPorts (.int 0) (.int 0) ⟨[("color", .str "gray")], by decide⟩
        (.str "p") .null = (.ok 0, after) := by
  have reached : Reachable loopGraph := reachable_run_empty _
  have ports : (⟨[("color", .str "gray"), ("inport", .null), ("outport", .str "p")], by decide⟩ :
      Keywords).AddsPorts ⟨[("color", .str "gray")], by decide⟩ (.str "p") .null :=
    ⟨rfl, rfl, rfl⟩
  obtain ⟨created, updated, added, added_later, _, _, agree⟩ :=
    (edge_ports_agree_iff reached ports).1 (.int 0) (.int 0) _ (List.mem_cons_self ..) _
      (List.mem_cons_self ..) rfl rfl rfl
  have same : created = updated := agree.2 ⟨.inl rfl, .inr rfl⟩
  exact ⟨reached, ports, created, added, same ▸ added_later⟩

/-- The removal marker and the empty string as ports are written behind the vertices of a new
edge, while an update takes them for no port. -/
theorem unset_ports_written_on_creation :
    ∃ created updated,
      loopGraph.addEdge (.int 0) (.int 0) (.ports .unset (.str "")) = (.ok 0, created) ∧
      loopGraph.addEdgeThenPorts (.int 0) (.int 0) .empty .unset (.str "") = (.ok 0, updated) ∧
      created.edges.map Edge.written = ["  v0:UNSET -> v0:".toList] ∧
      updated.edges.map Edge.written = ["  v0 -> v0".toList] ∧
      created ≠ updated := by
  refine ⟨_, _, rfl, rfl, by decide, by decide, ?_⟩
  intro same
  have written := congrArg (fun g : Graph => g.edges.map Edge.written) same
  revert written
  decide

end Graph
end DotDoc
