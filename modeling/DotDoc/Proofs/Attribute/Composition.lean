import DotDoc.Graph.Call
import DotDoc.Proofs.Attribute.Events

/-!
# Updates one after the other

Two updates from mappings can be made as one.  The mapping to update from is the first with the
values of the second where that has the key, and then what else the second has, which is what
putting the second into the first gives.

The step is one entry put after an update: it could have been put into the mapping instead.  If
the mapping has the name already, the entry moves up to it, past the entries behind it, which are
about other names, and there the earlier value under the name has no effect.  It has one only when
it is unset and the new value is set: then the name is taken out and comes back behind all others,
while the merged mapping leaves it in its place.  So the order of the names asks for a condition;
their values do not.
-/

set_option autoImplicit false

namespace DotDoc

namespace Entries

variable {α : Type}

theorem put_put_self (key : String) (old value : α) (entries : Entries α) :
    put key value (put key old entries) = put key value entries := by
  induction entries with
  | nil => simp [put]
  | cons entry rest ih =>
      obtain ⟨k, held⟩ := entry
      by_cases here : k = key <;> simp [put, here, ih]

theorem erase_put_self (key : String) (value : α) (entries : Entries α) :
    erase key (put key value entries) = erase key entries := by
  induction entries with
  | nil => simp [put, erase]
  | cons entry rest ih =>
      obtain ⟨k, held⟩ := entry
      by_cases here : k = key <;> simp [put, erase_cons, here, ih]

theorem erase_put_of_ne {key other : String} (different : other ≠ key) (value : α)
    (entries : Entries α) :
    erase other (put key value entries) = put key value (erase other entries) := by
  induction entries with
  | nil => simp [put, erase, Ne.symm different]
  | cons entry rest ih =>
      obtain ⟨k, held⟩ := entry
      by_cases here : k = key
      · subst here
        simp [put, erase_cons, Ne.symm different]
      · by_cases taken : k = other <;> simp [put, erase_cons, here, taken, different, ih]

theorem erase_comm (key other : String) (entries : Entries α) :
    erase key (erase other entries) = erase other (erase key entries) :=
  List.filter_comm ..

theorem put_comm {key other : String} (different : other ≠ key) (value held : α)
    {entries : Entries α} (present : key ∈ keys entries) :
    put key value (put other held entries) = put other held (put key value entries) := by
  induction entries with
  | nil => simp at present
  | cons entry rest ih =>
      obtain ⟨k, old⟩ := entry
      by_cases here : k = key
      · subst here
        simp [put, Ne.symm different]
      · have later : key ∈ keys rest := by simpa [Ne.symm here] using present
        by_cases there : k = other <;> simp [put, here, there, different, ih later]

theorem find?_putAll {added entries : Entries α} (distinct : (keys added).Nodup) (name : String) :
    find? name (putAll added entries) = (find? name added).or (find? name entries) := by
  induction added generalizing entries with
  | nil => rfl
  | cons entry rest ih =>
      obtain ⟨key, value⟩ := entry
      obtain ⟨absent, rest_distinct⟩ := List.nodup_cons.1 distinct
      have first : putAll ((key, value) :: rest) entries = putAll rest (put key value entries) :=
        rfl
      rw [first, ih rest_distinct, find?]
      by_cases here : key = name
      · subst here
        rw [if_pos rfl, find?_of_not_mem absent, find?_put_self]
        rfl
      · rw [if_neg here, find?_put_of_ne (Ne.symm here)]

/-- The entries of one list with the values of another where that has the key, and then the other
entries of that. -/
def merged (first second : Entries α) : Entries α :=
  first.map (fun entry => (entry.1, (find? entry.1 second).getD entry.2))
    ++ second.filter fun entry => entry.1 ∉ keys first

theorem merged_eq_putAll {first second : Entries α} (distinct : (keys first).Nodup)
    (second_distinct : (keys second).Nodup) : merged first second = putAll second first := by
  induction first generalizing second with
  | nil => simp [merged, putAll_nil_of_nodup second_distinct]
  | cons entry rest ih =>
      obtain ⟨key, value⟩ := entry
      obtain ⟨absent, rest_distinct⟩ := List.nodup_cons.1 distinct
      have values : rest.map (fun entry => (entry.1, (find? entry.1 second).getD entry.2))
          = rest.map fun entry => (entry.1, (find? entry.1 (erase key second)).getD entry.2) := by
        apply List.map_congr_left
        intro entry member
        have held : entry.1 ∈ keys rest := List.mem_map_of_mem member
        rw [find?_erase_of_ne (ne_of_mem_of_not_mem held absent)]
      have others : second.filter (fun entry => entry.1 ∉ keys ((key, value) :: rest))
          = (erase key second).filter fun entry => entry.1 ∉ keys rest := by
        rw [erase, List.filter_filter]
        simp [Bool.and_comm]
      have left_distinct : (keys (erase key second)).Nodup := nodup_keys_erase second_distinct
      have rest_merged := ih rest_distinct left_distinct
      rw [putAll_cons_of_nodup second_distinct, ← rest_merged, merged, others, List.map_cons,
        values]
      rfl

theorem putAll_self {entries : Entries α} (distinct : (keys entries).Nodup) :
    putAll entries entries = entries := by
  induction entries with
  | nil => rfl
  | cons entry rest ih =>
      obtain ⟨key, value⟩ := entry
      obtain ⟨absent, rest_distinct⟩ := List.nodup_cons.1 distinct
      rw [putAll_cons_of_nodup distinct, find?, if_pos rfl, erase_cons, if_pos rfl,
        erase_of_not_mem absent, ih rest_distinct]
      rfl

end Entries

def Keywords.merged (first second : Keywords) : Keywords :=
  ⟨Entries.merged first.entries second.entries, by
    rw [Entries.merged_eq_putAll first.distinct second.distinct]
    exact Entries.nodup_keys_putAll first.distinct⟩

theorem Keywords.merged_entries (first second : Keywords) :
    (first.merged second).entries = Entries.putAll second.entries first.entries :=
  Entries.merged_eq_putAll first.distinct second.distinct

/-- Whether an operation updates from a mapping, given as the source or as named attributes. -/
inductive Operation.UpdatesFrom (k : Keywords) : Operation → Prop
  | source {source : Value}
      (mapping : source.mapping? = some (k.entries.map fun entry => (.str entry.1, entry.2))) :
      UpdatesFrom k (.update (some source) .empty)
  | named : UpdatesFrom k (.update none k)

namespace AttrList

variable {l : AttrList} {name : String} {value : Value}

/-- Whether no name that is unset by the first entries is set by the second. -/
def NoneRestored (first second : Entries Value) : Prop :=
  ∀ entry ∈ first, ∀ later ∈ second, later.1 = entry.1 → entry.2.isUnset = true →
    later.2.isUnset = true

instance (first second : Entries Value) : Decidable (NoneRestored first second) :=
  inferInstanceAs (Decidable (∀ entry ∈ first, ∀ later ∈ second, later.1 = entry.1 →
    entry.2.isUnset = true → later.2.isUnset = true))

theorem find?_put_self (name : String) (value : Value) (l : AttrList) :
    (l.put name value).find? name = value.kept? := by
  cases unset : value.isUnset with
  | true =>
      rw [put_of_unset unset, Value.kept?_eq_none_iff.2 unset]
      exact Entries.find?_erase_self ..
  | false => rw [find?_put_of_set unset, Value.kept?_eq_some_iff.2 ⟨unset, rfl⟩]

theorem find?_put_of_ne {other : String} (different : other ≠ name) (value : Value)
    (l : AttrList) : (l.put name value).find? other = l.find? other := by
  cases unset : value.isUnset with
  | true =>
      rw [put_of_unset unset]
      exact Entries.find?_erase_of_ne different _
  | false =>
      rw [put_of_set unset]
      exact Entries.find?_put_of_ne different ..

theorem put_put_self {old : Value} (settled : old.isUnset = true → value.isUnset = true)
    (l : AttrList) : (l.put name old).put name value = l.put name value := by
  cases old_unset : old.isUnset with
  | true =>
      have unset := settled old_unset
      rw [put_of_unset old_unset, put_of_unset unset, put_of_unset unset]
      exact erase_of_not_mem (not_mem_keys_erase name l)
  | false =>
      rw [put_of_set old_unset]
      cases unset : value.isUnset with
      | true =>
          rw [put_of_unset unset, put_of_unset unset]
          exact congrArg AttrList.mk (Entries.erase_put_self ..)
      | false =>
          rw [put_of_set unset, put_of_set unset]
          exact congrArg AttrList.mk (Entries.put_put_self ..)

theorem put_comm {other : String} (different : other ≠ name)
    (fixed : name ∈ l.keys ∨ value.isUnset = true) (held : Value) :
    (l.put other held).put name value = (l.put name value).put other held := by
  cases unset : value.isUnset with
  | true =>
      rw [put_of_unset unset, put_of_unset unset]
      cases held_unset : held.isUnset with
      | true =>
          rw [put_of_unset held_unset, put_of_unset held_unset]
          exact congrArg AttrList.mk (Entries.erase_comm ..)
      | false =>
          rw [put_of_set held_unset, put_of_set held_unset]
          exact congrArg AttrList.mk (Entries.erase_put_of_ne (Ne.symm different) ..)
  | false =>
      have present : name ∈ l.keys := fixed.resolve_right (by simp [unset])
      rw [put_of_set unset, put_of_set unset]
      cases held_unset : held.isUnset with
      | true =>
          rw [put_of_unset held_unset, put_of_unset held_unset]
          exact congrArg AttrList.mk (Entries.erase_put_of_ne different ..).symm
      | false =>
          rw [put_of_set held_unset, put_of_set held_unset]
          exact congrArg AttrList.mk (Entries.put_comm different _ _ present)

theorem putAll_put {added : Entries Value} (absent : name ∉ Entries.keys added)
    (fixed : name ∈ l.keys ∨ value.isUnset = true) :
    (l.putAll added).put name value = (l.put name value).putAll added := by
  induction added generalizing l with
  | nil => rfl
  | cons entry rest ih =>
      have different : entry.1 ≠ name := fun same => absent (by simp [same])
      have not_later : name ∉ Entries.keys rest := fun member => absent (by simp [member])
      have still_fixed : name ∈ (l.put entry.1 entry.2).keys ∨ value.isUnset = true :=
        fixed.imp_left fun present => by
          rwa [mem_keys_iff, find?_put_of_ne (Ne.symm different), ← mem_keys_iff]
      have later := ih not_later still_fixed
      rw [put_comm different fixed] at later
      exact later

/-- An entry that is put after an update could have been put into the mapping. -/
theorem putAll_putEntry {added : Entries Value} (distinct : (Entries.keys added).Nodup)
    (settled : ∀ entry ∈ added, name = entry.1 → entry.2.isUnset = true → value.isUnset = true) :
    (l.putAll added).put name value = l.putAll (Entries.put name value added) := by
  induction added generalizing l with
  | nil => rfl
  | cons entry rest ih =>
      obtain ⟨key, held⟩ := entry
      obtain ⟨absent, rest_distinct⟩ := List.nodup_cons.1 distinct
      rw [Entries.put]
      by_cases here : key = name
      · subst here
        have settled_here := settled (key, held) (List.mem_cons_self ..) rfl
        have fixed : key ∈ (l.put key held).keys ∨ value.isUnset = true := by
          cases unset : held.isUnset with
          | true => exact .inr (settled_here unset)
          | false => exact .inl (mem_keys_iff.2 (by rw [find?_put_of_set unset]; rfl))
        have moved := putAll_put absent fixed
        rw [put_put_self settled_here] at moved
        rw [if_pos rfl]
        exact moved
      · rw [if_neg here]
        exact ih rest_distinct fun entry member => settled entry (List.mem_cons_of_mem _ member)

/-! ## Two updates -/

/-- An update after an update is one from the first mapping with the second put into it. -/
theorem putAll_putAll {first second : Entries Value} (distinct : (Entries.keys first).Nodup)
    (second_distinct : (Entries.keys second).Nodup) (unrestored : NoneRestored first second)
    (l : AttrList) :
    (l.putAll first).putAll second = l.putAll (Entries.putAll second first) := by
  induction second generalizing first with
  | nil => rfl
  | cons entry rest ih =>
      obtain ⟨key, value⟩ := entry
      obtain ⟨absent, rest_distinct⟩ := List.nodup_cons.1 second_distinct
      have settled : ∀ held ∈ first, key = held.1 → held.2.isUnset = true → value.isUnset = true :=
        fun held member => unrestored held member (key, value) (List.mem_cons_self ..)
      have still_unrestored : NoneRestored (Entries.put key value first) rest := by
        intro held member later later_member same
        rcases Entries.mem_put member with rfl | old
        · exact absurd (same ▸ List.mem_map_of_mem later_member) absent
        · exact unrestored held old later (List.mem_cons_of_mem _ later_member) same
      have step := ih (Entries.nodup_keys_put distinct) rest_distinct still_unrestored
      rw [← putAll_putEntry distinct settled] at step
      exact step

theorem find?_putAll {added : Entries Value} (distinct : (Entries.keys added).Nodup)
    (name : String) (l : AttrList) :
    (l.putAll added).find? name
      = match Entries.find? name added with
        | some value => value.kept?
        | none => l.find? name := by
  induction added generalizing l with
  | nil => rfl
  | cons entry rest ih =>
      obtain ⟨key, value⟩ := entry
      obtain ⟨absent, rest_distinct⟩ := List.nodup_cons.1 distinct
      have first : l.putAll ((key, value) :: rest) = (l.put key value).putAll rest := rfl
      rw [first, ih rest_distinct, Entries.find?]
      by_cases here : key = name
      · subst here
        rw [if_pos rfl, Entries.find?_of_not_mem absent, find?_put_self]
      · rw [if_neg here, find?_put_of_ne (Ne.symm here)]

theorem putAll_again {added : Entries Value} (distinct : (Entries.keys added).Nodup)
    (l : AttrList) : (l.putAll added).putAll added = l.putAll added := by
  have unrestored : NoneRestored added added := by
    intro entry member later later_member same unset
    have equal : later = entry := List.inj_on_of_nodup_map distinct later_member member same
    exact equal ▸ unset
  rw [putAll_putAll distinct distinct unrestored, Entries.putAll_self distinct]

theorem perform_of_updatesFrom {k : Keywords} {op : Operation} (updates : op.UpdatesFrom k)
    (l : AttrList) : l.perform op = (.ok .null, l.putAll k.entries) := by
  cases updates with
  | named => rfl
  | source mapping =>
      have stored : l.storeAll (k.entries.map fun entry => (.str entry.1, entry.2))
          = l.putAll k.entries := by
        rw [storeAll, putAll, List.foldl_map]
        rfl
      simp only [perform, absorb, storeSource, mapping, stored]
      rfl

end AttrList

namespace Graph

theorem vertex_modifyVertex {f : Vertex → Vertex} (kept : ∀ v, (f v).id = v.id) (n : Nat)
    (id : Value) (g : Graph) :
    (g.modifyVertex n f).vertex id = (g.vertex id).map fun v => if v.id = n then f v else v := by
  have same_id : ∀ v : Vertex, (if v.id = n then f v else v).id = v.id := by
    intro v
    split
    · exact kept v
    · rfl
  unfold vertex findVertex modifyVertex
  cases id.lookupId with
  | error e => rfl
  | ok key =>
      cases key with
      | none => rfl
      | some number =>
          simp only [bind, Except.bind, List.find?_map, Function.comp_def, same_id]
          cases g.vertices.find? fun v => (v.id : Int) = number <;> rfl

theorem modifyVertex_again {f : Vertex → Vertex} (kept : ∀ v, (f v).id = v.id)
    (again : ∀ v, f (f v) = f v) (n : Nat) (g : Graph) :
    (g.modifyVertex n f).modifyVertex n f = g.modifyVertex n f := by
  have vertices : (g.modifyVertex n f).vertices.map (fun v => if v.id = n then f v else v)
      = (g.modifyVertex n f).vertices := by
    simp only [modifyVertex, List.map_map]
    apply List.map_congr_left
    intro v _
    by_cases here : v.id = n <;> simp [here, kept, again]
  rw [modifyVertex, vertices]

theorem updateVertex_eq {attrs : Keywords} (free : attrs.checkNames ["vid"] = .ok ()) (id : Value)
    (g : Graph) :
    g.updateVertex id attrs = match g.vertex id with
      | .ok v => (.ok (), g.modifyVertex v.id fun v =>
          { v with attrs := v.attrs.putAll attrs.entries })
      | .error e => (.error e, g) := by
  rw [updateVertex, Action.check_of_ok g free, Action.ask_bind]
  cases g.vertex id <;> rfl

theorem updateVertex_again (id : Value) (attrs : Keywords) (g : Graph) :
    (g.updateVertex id attrs).2.updateVertex id attrs = g.updateVertex id attrs := by
  cases names : attrs.checkNames ["vid"] with
  | error e =>
      have refused (h : Graph) : h.updateVertex id attrs = (.error e, h) := by
        rw [updateVertex, Action.check_bind, names]
      rw [refused g, refused g]
  | ok _ =>
      cases found : g.vertex id with
      | error e =>
          have refused : g.updateVertex id attrs = (.error e, g) := by
            rw [updateVertex_eq names, found]
          rw [refused, refused]
      | ok v =>
          have once : g.updateVertex id attrs = (.ok (), g.modifyVertex v.id fun v =>
              { v with attrs := v.attrs.putAll attrs.entries }) := by
            rw [updateVertex_eq names, found]
          have again : ∀ held : AttrList, (held.putAll attrs.entries).putAll attrs.entries
              = held.putAll attrs.entries := AttrList.putAll_again attrs.distinct
          rw [once, updateVertex_eq names]
          dsimp only
          rw [vertex_modifyVertex, found]
          · simp only [Except.map, if_pos]
            rw [modifyVertex_again]
            · exact fun _ => rfl
            · simp [again]
          · exact fun _ => rfl

theorem perform_updateVertex_again (id : Value) (attrs : Keywords) (g : Graph) :
    (g.perform (.updateVertex id attrs)).graph.perform (.updateVertex id attrs)
      = g.perform (.updateVertex id attrs) := by
  have performs (h : Graph) : h.perform (.updateVertex id attrs)
      = ⟨(h.updateVertex id attrs).1.map .ofUnit, (h.updateVertex id attrs).2⟩ :=
    perform_map rfl h
  rw [performs g, performs, updateVertex_again]

end Graph

namespace AttrList

/-- Updating from one mapping and then from another gives every name the value that updating from
the merged mapping gives it, and the names in the same order if the second mapping sets none that
the first unsets.  Updating twice from one mapping, also on a vertex of a graph, is updating
once. -/
theorem updates_compose {a b : Keywords} {first second both : Operation}
    (from_first : first.UpdatesFrom a) (from_second : second.UpdatesFrom b)
    (from_both : both.UpdatesFrom (a.merged b)) (l : AttrList) :
    ((l.perform first).1 = .ok .null ∧ ((l.perform first).2.perform second).1 = .ok .null ∧
      (l.perform both).1 = .ok .null) ∧
    (∀ name, (l.run [first, second]).find? name = (l.run [both]).find? name) ∧
    (NoneRestored a.entries b.entries → l.run [first, second] = l.run [both]) ∧
    l.run [first, first] = l.run [first] ∧
    ∀ (g : Graph) (id : Value),
      (g.perform (.updateVertex id a)).graph.perform (.updateVertex id a)
        = g.perform (.updateVertex id a) := by
  have performs := perform_of_updatesFrom from_first
  have performs_second := perform_of_updatesFrom from_second
  have performs_both := perform_of_updatesFrom from_both
  have run_both : l.run [both] = l.putAll (Entries.putAll b.entries a.entries) := by
    rw [run_cons, run_nil, performs_both, Keywords.merged_entries]
  have run_two : l.run [first, second] = (l.putAll a.entries).putAll b.entries := by
    rw [run_cons, run_cons, run_nil, performs, performs_second]
  refine ⟨⟨?_, ?_, ?_⟩, fun name => ?_, fun unrestored => ?_, ?_, fun g id => ?_⟩
  · rw [performs]
  · rw [performs_second]
  · rw [performs_both]
  · have merged_distinct : (Entries.keys (Entries.putAll b.entries a.entries)).Nodup :=
      Entries.nodup_keys_putAll a.distinct
    rw [run_two, run_both, find?_putAll b.distinct, find?_putAll a.distinct,
      find?_putAll merged_distinct, Entries.find?_putAll b.distinct]
    cases Entries.find? name b.entries <;> rfl
  · rw [run_two, run_both]
    exact putAll_putAll a.distinct b.distinct unrestored l
  · simp only [run_cons, run_nil, performs]
    exact putAll_again a.distinct l
  · exact Graph.perform_updateVertex_again id a g

/-- A grey box that rounds its corners. -/
def greyBox : AttrList :=
  ⟨[("color", .str "grey"), ("style", .str "rounded"), ("shape", .str "box")]⟩

def repaint : Keywords :=
  ⟨[("color", .str "red"), ("penwidth", .int 2), ("style", .unset)], by decide⟩

def relabel : Keywords :=
  ⟨[("label", .str "new"), ("style", .null), ("color", .unset), ("penwidth", .int 3)], by decide⟩

def relabelSource : Value :=
  .dict [(.str "label", .str "new"), (.str "style", .null), (.str "color", .unset),
    (.str "penwidth", .int 3)]

theorem greyBox_updates_compose :
    NoneRestored repaint.entries relabel.entries ∧
    (greyBox.run [.update none repaint, .update (some relabelSource) .empty]).keys
      = ["shape", "penwidth", "label"] ∧
    greyBox.run [.update none repaint, .update (some relabelSource) .empty]
      = greyBox.run [.update none (repaint.merged relabel)] := by
  have unrestored : NoneRestored repaint.entries relabel.entries := by decide
  have from_repaint : Operation.UpdatesFrom repaint (.update none repaint) := .named
  have from_relabel : Operation.UpdatesFrom relabel (.update (some relabelSource) .empty) :=
    .source rfl
  have composed := updates_compose from_repaint from_relabel .named greyBox
  exact ⟨unrestored, by decide, composed.2.2.1 unrestored⟩

/-- A name that is unset first and then set again comes last, but not when the mappings are
merged. -/
example :
    let first : Keywords := ⟨[("color", .unset)], by decide⟩
    let second : Keywords := ⟨[("color", .str "red")], by decide⟩
    (greyBox.run [.update none first, .update none second]).keys = ["style", "shape", "color"] ∧
    (greyBox.run [.update none (first.merged second)]).keys = ["color", "style", "shape"] := by
  decide

end AttrList
end DotDoc
