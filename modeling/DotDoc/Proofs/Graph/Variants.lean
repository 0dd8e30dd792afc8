import DotDoc.Proofs.Graph.Apart
import DotDoc.Proofs.Graph.Lockstep

/-!
# Calls that cannot be told apart

A `Variant` of a call names the same members in another order or more than once, where the call is
accepted, or it gives other styling to a subgraph that is no cluster.  It has the same answer and
leads to an alike graph.  Since calls on alike graphs stay in step, a run and a run of variants
have the same transcript: the answer to every call and the document after it, however the runs go
on.
-/

set_option autoImplicit false

namespace DotDoc

/-- Both list the same values, in any order and any number of times. -/
def SameIds (ids ids' : Value) : Prop :=
  ∃ items others, ids.elements = .ok items ∧ ids'.elements = .ok others ∧
    ∀ v, v ∈ items ↔ v ∈ others

namespace Subgraph

variable {s t : Subgraph}

theorem addMember_eq (v : Value) (s : Subgraph) :
    s.addMember v = { s with members := (s.addMember v).members } := by
  unfold addMember
  split <;> rfl

theorem addMembers_eq (vs : List Value) (s : Subgraph) :
    s.addMembers vs = { s with members := (s.addMembers vs).members } := by
  induction vs generalizing s with
  | nil => rfl
  | cons v rest ih =>
      rw [addMembers_cons, ih, addMember_eq]

theorem mem_addMember_iff {n : Int} (ints : ∀ m ∈ s.members, ∃ k, m = .int k) (m : Value) :
    m ∈ (s.addMember (.int n)).members ↔ m ∈ s.members ∨ m = .int n := by
  unfold addMember
  split
  · rename_i present
    have held : .int n ∈ s.members := (Value.occursIn_iff_of_ints ints).1 present
    constructor
    · exact .inl
    · rintro (member | rfl)
      · exact member
      · exact held
  · simp

theorem mem_addMembers_iff {vs : List Value} (ints : ∀ m ∈ s.members, ∃ k, m = .int k)
    (new_ints : ∀ v ∈ vs, ∃ n, v = .int n) (m : Value) :
    m ∈ (s.addMembers vs).members ↔ m ∈ s.members ∨ m ∈ vs := by
  induction vs generalizing s with
  | nil => simp
  | cons v rest ih =>
      obtain ⟨n, rfl⟩ := new_ints v (List.mem_cons_self ..)
      have still_ints : ∀ m ∈ (s.addMember (.int n)).members, ∃ k, m = .int k := by
        intro m member
        rcases (mem_addMember_iff ints m).1 member with old | rfl
        · exact ints m old
        · exact ⟨n, rfl⟩
      have rest_ints : ∀ v ∈ rest, ∃ n, v = .int n :=
        fun v member => new_ints v (List.mem_cons_of_mem _ member)
      rw [addMembers_cons, ih still_ints rest_ints, mem_addMember_iff ints, List.mem_cons, or_assoc]

/-- Distinct members are the same up to order as soon as the same values are among them. -/
theorem addMembers_alike {vs ws : List Value} (distinct : s.members.Nodup)
    (ints : ∀ m ∈ s.members, ∃ k, m = .int k) (new_ints : ∀ v ∈ vs, ∃ n, v = .int n)
    (same : ∀ v, v ∈ vs ↔ v ∈ ws) : (s.addMembers vs).Alike (s.addMembers ws) := by
  have other_ints : ∀ w ∈ ws, ∃ n, w = .int n := fun w member => new_ints w ((same w).2 member)
  have members : (s.addMembers vs).members.Perm (s.addMembers ws).members := by
    rw [List.perm_ext_iff_of_nodup (nodup_addMembers new_ints distinct)
      (nodup_addMembers other_ints distinct)]
    intro m
    rw [mem_addMembers_iff ints new_ints, mem_addMembers_iff ints other_ints, same]
  rw [addMembers_eq vs, addMembers_eq ws]
  exact { Alike.refl s with members }

def isLayer (entry : String × Value) : Bool :=
  layerNames.contains entry.1

theorem setProperty_of_not_layer {key : String} {value : Value} (s : Subgraph)
    (styling : isLayer (key, value) = false) :
    s.setProperty key value = .ok { s with styling := s.styling.put key value } := by
  have other : key ≠ "node" ∧ key ≠ "edge" := by simpa [isLayer, layerNames] using styling
  rw [setProperty, if_neg other.1, if_neg other.2]

theorem setProperties_layers (plain : s.isCluster = false) (properties : Entries Value) :
    (setProperties properties s).1 = (setProperties (properties.filter isLayer) s).1 ∧
      (setProperties properties s).2.Alike (setProperties (properties.filter isLayer) s).2 := by
  induction properties generalizing s with
  | nil => exact ⟨rfl, .refl s⟩
  | cons entry rest ih =>
      obtain ⟨key, value⟩ := entry
      cases layer : isLayer (key, value) with
      | true =>
          rw [List.filter_cons_of_pos layer, setProperties, setProperties]
          cases result : s.setProperty key value with
          | error e => exact ⟨rfl, .refl s⟩
          | ok changed =>
              obtain ⟨_, sort, _⟩ := setProperty_sameGroup result
              exact ih (sort.trans plain)
      | false =>
          rw [List.filter_cons_of_neg (by simp [layer]), setProperties,
            setProperty_of_not_layer s layer]
          obtain ⟨results, changed⟩ :=
            ih (s := { s with styling := s.styling.put key value }) plain
          have unseen : Alike { s with styling := s.styling.put key value } s :=
            { Alike.refl s with styling := fun cluster => by cases plain.symm.trans cluster }
          obtain ⟨later_results, later_changed⟩ := unseen.setProperties (rest.filter isLayer)
          exact ⟨results.trans later_results, changed.trans later_changed⟩

end Subgraph

/-- The same layers in the same order, and nothing that one of two calls could not be given. -/
structure SameLayers (parameters : List String) (properties others : Keywords) : Prop where
  layers : properties.entries.filter Subgraph.isLayer = others.entries.filter Subgraph.isLayer
  clash : properties.clashesWith parameters = others.clashesWith parameters

namespace Subgraph

variable {s : Subgraph}

theorem setProperties_sameLayers {parameters : List String} {properties others : Keywords}
    (plain : s.isCluster = false) (same : SameLayers parameters properties others) :
    (setProperties properties.entries s).1 = (setProperties others.entries s).1 ∧
      (setProperties properties.entries s).2.Alike (setProperties others.entries s).2 := by
  obtain ⟨results, changed⟩ := setProperties_layers plain properties.entries
  obtain ⟨other_results, other_changed⟩ := setProperties_layers plain others.entries
  rw [same.layers] at results changed
  exact ⟨results.trans other_results.symm, changed.trans other_changed.symm⟩

theorem create_agree {number : Int} {isCluster : Bool} {members members' : List Value}
    {properties properties' : Keywords}
    (stored : (setProperties properties.entries ((empty number isCluster).addMembers members)).1
        = (setProperties properties'.entries ((empty number isCluster).addMembers members')).1 ∧
      Alike (setProperties properties.entries ((empty number isCluster).addMembers members)).2
        (setProperties properties'.entries ((empty number isCluster).addMembers members')).2) :
    Agree Alike (create number isCluster members properties)
      (create number isCluster members' properties') := by
  obtain ⟨results, alike⟩ := stored
  unfold create
  generalize setProperties properties.entries _ = here at results alike ⊢
  generalize setProperties properties'.entries _ = there at results alike ⊢
  obtain ⟨result, s⟩ := here
  obtain ⟨_, t⟩ := there
  cases results
  cases result with
  | error e => exact .refused e
  | ok _ => exact .answered alike

end Subgraph

namespace Graph

variable {g h : Graph}

/-! ## Variants of one call -/

theorem checkMembers_eq_ok_iff {owner : Option Text} {ids : List Value} :
    g.checkMembers owner ids = .ok () ↔ ∀ id ∈ ids, g.checkMember owner id = .ok () := by
  induction ids with
  | nil => simp [checkMembers]
  | cons id rest ih =>
      rw [checkMembers, bind_eq_ok_iff, List.forall_mem_cons, ih]
      constructor
      · rintro ⟨_, first, later⟩
        exact ⟨first, later⟩
      · rintro ⟨first, later⟩
        exact ⟨(), first, later⟩

theorem checkMembers_of_same {owner : Option Text} {items others : List Value}
    (free : g.checkMembers owner items = .ok ()) (same : ∀ v, v ∈ items ↔ v ∈ others) :
    g.checkMembers owner others = .ok () := by
  rw [checkMembers_eq_ok_iff] at free ⊢
  intro id member
  exact free id ((same id).2 member)

theorem plain_same {items others : List Value} (same : ∀ v, v ∈ items ↔ v ∈ others) (m : Value) :
    m ∈ items.map Value.plain ↔ m ∈ others.map Value.plain := by
  simp only [List.mem_map, same]

theorem checkNames_sameAnswer {α : Type} {parameters : List String} {properties others : Keywords}
    {next later : Unit → Action α}
    (clash : properties.clashesWith parameters = others.clashesWith parameters)
    (goes_on : SameAnswer (next () g) (later () g)) :
    SameAnswer ((liftM (properties.checkNames parameters) >>= next : Action α) g)
      ((liftM (others.checkNames parameters) >>= later : Action α) g) := by
  have same : properties.checkNames parameters = others.checkNames parameters := by
    rw [Keywords.checkNames, Keywords.checkNames, clash]
  rw [same]
  exact .checkSame _ (.refl g) fun _ => goes_on

theorem addGroup_sameAnswer {isCluster : Bool} {ids ids' : Value} {items others : List Value}
    {properties properties' : Keywords}
    (clash : properties.clashesWith ["vertex_ids"] = properties'.clashesWith ["vertex_ids"])
    (listed : ids.elements = .ok items) (other_listed : ids'.elements = .ok others)
    (checked : g.checkMembers none items = g.checkMembers none others)
    (created : Agree Subgraph.Alike
      (Subgraph.create g.nextSubgraph isCluster (items.map Value.plain) properties)
      (Subgraph.create g.nextSubgraph isCluster (others.map Value.plain) properties')) :
    SameAnswer (g.addGroup isCluster ids properties) (g.addGroup isCluster ids' properties') := by
  refine checkNames_sameAnswer clash ?_
  rw [listed, other_listed, Action.check_bind, Action.check_bind]
  refine .askSame (.refl g) checked fun _ => ?_
  rw [Action.change_bind, Action.change_bind]
  refine .check (.refl _) created fun s t same => ⟨congrArg Except.ok same.name, ?_⟩
  exact (Alike.refl _).storeSubgraph same

theorem checked_of_addGroup {isCluster : Bool} {ids : Value} {items : List Value}
    {properties : Keywords} {name : Text} {g' : Graph} (listed : ids.elements = .ok items)
    (added : g.addGroup isCluster ids properties = (.ok name, g')) :
    g.checkMembers none items = .ok () := by
  obtain ⟨_, _, rest⟩ := Action.check_eq_ok g added
  obtain ⟨members, listed_again, rest⟩ := Action.check_eq_ok g rest
  obtain rfl := Except.ok.inj (listed.symm.trans listed_again)
  obtain ⟨_, free, _⟩ := Action.ask_eq_ok g rest
  exact free

theorem addGroup_members {isCluster : Bool} {ids ids' : Value} {properties : Keywords}
    {name : Text} {g' : Graph} (same : SameIds ids ids')
    (added : g.addGroup isCluster ids properties = (.ok name, g')) :
    SameAnswer (g.addGroup isCluster ids properties) (g.addGroup isCluster ids' properties) := by
  obtain ⟨items, others, listed, other_listed, elements⟩ := same
  have free := checked_of_addGroup listed added
  have other_free := checkMembers_of_same free elements
  refine addGroup_sameAnswer rfl listed other_listed (free.trans other_free.symm) ?_
  apply Subgraph.create_agree
  apply Subgraph.Alike.setProperties
  exact Subgraph.addMembers_alike List.nodup_nil nofun (ints_of_checked free)
    (plain_same elements)

theorem addGroup_styling {ids : Value} {properties others : Keywords}
    (same : SameLayers ["vertex_ids"] properties others) :
    SameAnswer (g.addGroup false ids properties) (g.addGroup false ids others) := by
  cases listed : ids.elements with
  | error e =>
      refine checkNames_sameAnswer same.clash ?_
      rw [listed]
      exact ⟨rfl, .refl g⟩
  | ok items =>
      refine addGroup_sameAnswer same.clash listed listed rfl (Subgraph.create_agree ?_)
      apply Subgraph.setProperties_sameLayers _ same
      rw [Subgraph.addMembers_isCluster]
      rfl

theorem addToSubgraph_members (c : g.Consistent) {id ids ids' : Value} {g' : Graph}
    (same : SameIds ids ids') (added : g.addToSubgraph id ids = (.ok (), g')) :
    SameAnswer (g.addToSubgraph id ids) (g.addToSubgraph id ids') := by
  obtain ⟨items, others, listed, other_listed, elements⟩ := same
  obtain ⟨s, found, rest⟩ := Action.ask_eq_ok g added
  obtain ⟨members, listed_again, rest⟩ := Action.check_eq_ok g rest
  obtain rfl := Except.ok.inj (listed.symm.trans listed_again)
  obtain ⟨_, free, answer⟩ := Action.ask_eq_ok g rest
  have stored := (subgraph_eq_ok found).1
  have other : g.addToSubgraph id ids'
      = (.ok (), g.replaceSubgraph (s.addMembers (others.map Value.plain))) := by
    rw [addToSubgraph, Action.ask_of_ok g found, Action.check_of_ok g other_listed,
      Action.ask_of_ok g (checkMembers_of_same free elements)]
    rfl
  obtain ⟨-, rfl⟩ := Prod.mk.inj answer
  rw [added, other]
  exact ⟨rfl, (Alike.refl g).replaceSubgraph (Subgraph.addMembers_alike
    (c.members_distinct s stored) (c.members_int stored) (ints_of_checked free)
      (plain_same elements))⟩

theorem updateSubgraph_styling {id : Value} {properties others : Keywords}
    (plain : ∀ s, g.findSubgraph id = some s → s.isCluster = false)
    (same : SameLayers ["sid"] properties others) :
    SameAnswer (g.updateSubgraph id properties) (g.updateSubgraph id others) := by
  refine checkNames_sameAnswer same.clash ?_
  rw [Action.ask_bind, Action.ask_bind]
  cases found : g.subgraph id with
  | error e => exact ⟨rfl, .refl g⟩
  | ok s =>
      obtain ⟨results, changed⟩ :=
        Subgraph.setProperties_sameLayers (plain s (findSubgraph_of_ok found)) same
      exact ⟨results, (Alike.refl g).replaceSubgraph changed⟩

def Accepts (g : Graph) (call : Call) : Prop :=
  ∃ reply, (g.perform call).result = .ok reply

/-- Calls that differ in the order or repetition of members, where they are accepted, or in the
styling of a subgraph that is no cluster. -/
inductive Variant (g : Graph) : Call → Call → Prop
  | same (call : Call) : Variant g call call
  | trans {first second third : Call} (before : Variant g first second)
      (after : Variant g second third) : Variant g first third
  | subgraphMembers {ids ids' : Value} {properties : Keywords} (same : SameIds ids ids')
      (accepted : g.Accepts (.addSubgraph ids properties)) :
      Variant g (.addSubgraph ids properties) (.addSubgraph ids' properties)
  | clusterMembers {ids ids' : Value} {properties : Keywords} (same : SameIds ids ids')
      (accepted : g.Accepts (.addCluster ids properties)) :
      Variant g (.addCluster ids properties) (.addCluster ids' properties)
  | addedMembers {id ids ids' : Value} (same : SameIds ids ids')
      (accepted : g.Accepts (.addToSubgraph id ids)) :
      Variant g (.addToSubgraph id ids) (.addToSubgraph id ids')
  | newStyling {ids : Value} {properties others : Keywords}
      (same : SameLayers ["vertex_ids"] properties others) :
      Variant g (.addSubgraph ids properties) (.addSubgraph ids others)
  | styling {id : Value} {properties others : Keywords}
      (plain : ∀ s, g.findSubgraph id = some s → s.isCluster = false)
      (same : SameLayers ["sid"] properties others) :
      Variant g (.updateSubgraph id properties) (.updateSubgraph id others)

theorem Variant.perform (c : g.Consistent) {call other : Call} (variant : g.Variant call other) :
    (g.perform call).Alike (g.perform other) := by
  induction variant with
  | same call => exact ⟨rfl, .refl _⟩
  | trans _ _ before after => exact before.trans after
  | subgraphMembers same accepted =>
      obtain ⟨_, answered⟩ := accepted
      obtain ⟨name, _, added⟩ := eq_ok_of_perform rfl answered
      exact (addGroup_members same added).outcome rfl rfl
  | clusterMembers same accepted =>
      obtain ⟨_, answered⟩ := accepted
      obtain ⟨name, _, added⟩ := eq_ok_of_perform rfl answered
      exact (addGroup_members same added).outcome rfl rfl
  | addedMembers same accepted =>
      obtain ⟨_, answered⟩ := accepted
      obtain ⟨_, _, added⟩ := eq_ok_of_perform rfl answered
      exact (addToSubgraph_members c same added).outcome rfl rfl
  | newStyling same => exact (addGroup_styling same).outcome rfl rfl
  | styling plain same => exact (updateSubgraph_styling plain same).outcome rfl rfl

/-- Runs whose calls are variants, one by one. -/
inductive Variants : Graph → List Call → List Call → Prop
  | nil (g : Graph) : Variants g [] []
  | cons {g : Graph} {call other : Call} {calls others : List Call}
      (first : g.Variant call other) (later : Variants (g.perform call).graph calls others) :
      Variants g (call :: calls) (other :: others)

theorem Variants.refl (g : Graph) (calls : List Call) : g.Variants calls calls := by
  induction calls generalizing g with
  | nil => exact .nil g
  | cons call rest ih => exact .cons (.same call) (ih _)

theorem Variants.append {calls others : List Call} (variants : g.Variants calls others)
    (later : List Call) : g.Variants (calls ++ later) (others ++ later) := by
  induction variants with
  | nil g => exact .refl g later
  | cons first _ ih => exact .cons first ih

/-- What can be seen of a run: the answer to every call, and the document after it. -/
def transcript : List Call → Graph → List (Except Error Reply × Except Error Text)
  | [], _ => []
  | call :: rest, g =>
      ((g.perform call).result, (g.perform call).graph.document?)
        :: transcript rest (g.perform call).graph

theorem Variants.run {calls others : List Call} (variants : g.Variants calls others)
    (c : g.Consistent) (alike : g.Alike h) :
    transcript calls g = transcript others h ∧ (g.run calls).Alike (h.run others) := by
  induction variants generalizing h with
  | nil g => exact ⟨rfl, alike⟩
  | @cons g call other calls others first _ ih =>
      have step : (g.perform call).Alike (h.perform other) :=
        (first.perform c).trans (alike.perform other)
      obtain ⟨rest, final⟩ := ih (c.perform call) step.graph
      refine ⟨?_, final⟩
      rw [transcript, transcript, step.result, step.graph.document?, rest]

/-- Alike graphs have the same document, and every call ends in the same way on both and leaves
alike graphs.  So neither the order of members nor the styling of a subgraph without a boundary
can be told from the answers and documents of any run. -/
theorem member_order_unobservable (g_reached : Reachable g) (h_reached : Reachable h)
    (alike : g.Alike h) :
    (∃ text, g.document? = .ok text ∧ h.document? = .ok text) ∧
    (∀ call, (g.perform call).result = (h.perform call).result ∧
      (g.perform call).graph.Alike (h.perform call).graph) ∧
    ∀ calls others later, g.Variants calls others →
      transcript (calls ++ later) g = transcript (others ++ later) h ∧
        (g.run (calls ++ later)).Alike (h.run (others ++ later)) := by
  have text : g.document? = .ok g.document := if_pos g_reached.consistent.isWritable
  have other_text : h.document? = .ok h.document := if_pos h_reached.consistent.isWritable
  refine ⟨⟨g.document, text, ?_⟩, fun call => ?_, fun calls others later variants => ?_⟩
  · rw [other_text, alike.document]
  · have step := alike.perform call
    exact ⟨step.result, step.graph⟩
  · exact (variants.append later).run g_reached.consistent alike

/-- Boxes in a red subgraph. -/
def redGroup : Graph :=
  (ofLayers .empty .empty .empty).run
    [.addVertex (.str "a") .empty, .addVertex (.str "b") .empty, .addVertex (.str "c") .empty,
      .addSubgraph (.list [.int 0, .int 1])
        ⟨[("color", .str "red"), ("node", .dict [(.str "shape", .str "box")])], by decide⟩]

/-- The same boxes, named in another order and one of them twice, in a dashed subgraph. -/
def dashedGroup : Graph :=
  (ofLayers .empty .empty .empty).run
    [.addVertex (.str "a") .empty, .addVertex (.str "b") .empty, .addVertex (.str "c") .empty,
      .addSubgraph (.tuple [.int 1, .int 0, .int 1])
        ⟨[("node", .dict [(.str "shape", .str "box")]), ("style", .str "dashed")], by decide⟩]

def joining (ids : List Value) (style : String) : List Call :=
  [.addToSubgraph (.str "subgraph0") (.list ids),
    .updateSubgraph (.str "subgraph0") ⟨[("style", .str style)], List.nodup_singleton _⟩]

theorem redGroup_alike : redGroup.Alike dashedGroup where
  attrs := rfl
  vertexDefaults := rfl
  edgeDefaults := rfl
  vertices := rfl
  edges := rfl
  subgraphs := .cons ⟨rfl, rfl, .swap _ _ _, rfl, rfl, nofun⟩ .nil
  nextVertex := rfl
  nextEdge := rfl
  nextSubgraph := rfl

theorem joining_variants :
    redGroup.Variants (joining [.int 2, .int 0] "bold")
      (joining [.int 0, .int 2, .int 2] "dotted") := by
  refine .cons (.addedMembers ⟨_, _, rfl, rfl, ?_⟩ ⟨.done, rfl⟩)
    (.cons (.styling ?_ ⟨rfl, rfl⟩) (.nil _))
  · intro v
    simp only [List.mem_cons, List.not_mem_nil, or_false, or_self]
    exact or_comm
  · intro s found
    obtain rfl := Option.some.inj found
    rfl

/-- Also when a later call is refused because the members are taken. -/
theorem redGroup_indistinguishable :
    (Reachable redGroup ∧ Reachable dashedGroup ∧ redGroup.Alike dashedGroup) ∧
    redGroup.subgraphs.map Subgraph.members = [[.int 0, .int 1]] ∧
    dashedGroup.subgraphs.map Subgraph.members = [[.int 1, .int 0]] ∧
    redGroup.document? = dashedGroup.document? ∧
    transcript (joining [.int 2, .int 0] "bold" ++ [.addCluster (.list [.int 2]) .empty]) redGroup
      = transcript
        (joining [.int 0, .int 2, .int 2] "dotted" ++ [.addCluster (.list [.int 2]) .empty])
        dashedGroup := by
  have red_reached : Reachable redGroup := reachable_run_empty _
  have dashed_reached : Reachable dashedGroup := reachable_run_empty _
  obtain ⟨⟨text, here, there⟩, _, runs⟩ :=
    member_order_unobservable red_reached dashed_reached redGroup_alike
  refine ⟨⟨red_reached, dashed_reached, redGroup_alike⟩, rfl, rfl, here.trans there.symm, ?_⟩
  exact (runs _ _ [.addCluster (.list [.int 2]) .empty] joining_variants).1

end Graph
end DotDoc
