import DotDoc.Proofs.Attribute.Events
import DotDoc.Proofs.Graph.Consistent
import DotDoc.Proofs.Record.Compiles

/-!
# The attributes of a new vertex

Three operations create a vertex, and all of them end in one that is given a label and further
attributes.  The further attributes are stored one after the other in an empty list, where an unset
value removes what the list has under its name.  Because the names are distinct there is nothing to
remove, so what is stored is what is set, in its order, and the label comes in front of it.

A record brings its shape along and leaves out a shape and a label among its properties.  A table
comes with a shape too, which gives way to another one in the same place, and to none if that is
unset.
-/

set_option autoImplicit false

namespace DotDoc

theorem Entries.put_of_not_mem {α : Type} {key : String} {value : α} {entries : Entries α}
    (absent : key ∉ keys entries) : put key value entries = entries ++ [(key, value)] := by
  induction entries with
  | nil => rfl
  | cons entry rest ih =>
      obtain ⟨k, held⟩ := entry
      have other : k ≠ key := fun same => absent (by simp [same])
      have not_later : key ∉ keys rest := fun member => absent (by simp [member])
      rw [put, if_neg other, ih not_later]
      rfl

namespace AttrList

variable {l : AttrList}

/-- The entries that have a value, in order. -/
def keptEntries (entries : Entries Value) : Entries Value :=
  entries.filter fun entry => !entry.2.isUnset

@[simp] theorem keptEntries_nil : keptEntries [] = [] := rfl

theorem keptEntries_cons_of_set {name : String} {value : Value} (set : value.isUnset = false)
    (rest : Entries Value) :
    keptEntries ((name, value) :: rest) = (name, value) :: keptEntries rest := by
  simp [keptEntries, set]

theorem keptEntries_cons_of_unset {name : String} {value : Value} (unset : value.isUnset = true)
    (rest : Entries Value) : keptEntries ((name, value) :: rest) = keptEntries rest := by
  simp [keptEntries, unset]

theorem putAll_of_new {added : Entries Value} (distinct : (Entries.keys added).Nodup)
    (new : ∀ name ∈ Entries.keys added, name ∉ l.keys) :
    l.putAll added = ⟨l.entries ++ keptEntries added⟩ := by
  induction added generalizing l with
  | nil => simp [putAll]
  | cons entry rest ih =>
      obtain ⟨name, value⟩ := entry
      obtain ⟨absent, rest_distinct⟩ := List.nodup_cons.1 distinct
      have name_new : name ∉ l.keys := new name (List.mem_cons_self ..)
      have rest_new : ∀ other ∈ Entries.keys rest, other ∉ l.keys :=
        fun other member => new other (List.mem_cons_of_mem _ member)
      have first : l.putAll ((name, value) :: rest) = (l.put name value).putAll rest := rfl
      cases unset : value.isUnset with
      | true =>
          have removed : l.put name value = l := by
            rw [AttrList.put, if_pos unset, AttrList.erase, Entries.erase_of_not_mem name_new]
          rw [first, removed, ih rest_distinct rest_new, keptEntries_cons_of_unset unset]
      | false =>
          have appended : l.put name value = ⟨l.entries ++ [(name, value)]⟩ := by
            rw [AttrList.put, unset, Entries.put_of_not_mem name_new]
            rfl
          have rest_new' : ∀ other ∈ Entries.keys rest, other ∉ (l.put name value).keys := by
            intro other member held
            rw [appended, AttrList.keys, Entries.keys, List.map_append, List.mem_append] at held
            rcases held with before | last
            · exact rest_new other member before
            · exact absent (List.mem_singleton.1 last ▸ member)
          rw [first, ih rest_distinct rest_new', appended, keptEntries_cons_of_set unset,
            List.append_assoc]
          rfl

theorem ofKeywords_eq (named : Keywords) : ofKeywords named = ⟨keptEntries named.entries⟩ :=
  putAll_of_new named.distinct fun _ _ => List.not_mem_nil

end AttrList

namespace Graph

open AttrList

variable {g : Graph}

/-- An operation answers with the next number and stores a vertex with this number and these
attributes behind the others.  Nothing else changes but the counter. -/
structure AddsVertex (g : Graph) (call : Call) (attributes : Entries Value) : Prop where
  answer : (g.perform call).result = .ok (.element g.nextVertex)
  graph : (g.perform call).graph = { g with
    vertices := g.vertices ++ [⟨g.nextVertex, ⟨attributes⟩⟩]
    nextVertex := g.nextVertex + 1 }
  number_new : ∀ v ∈ g.vertices, v.id ≠ g.nextVertex

theorem isOk_addVertex_iff {label : Value} {attrs : Keywords} :
    (g.perform (.addVertex label attrs)).result.isOk = true ↔
      attrs.clashesWith ["label"] = false ∧ label.isUnset = false := by
  have performs : g.perform (.addVertex label attrs) = _ := perform_map rfl g
  rw [performs]
  cases clash : attrs.clashesWith ["label"] with
  | true =>
      have refused : g.addVertex label attrs = (.error .wrongType, g) := by
        rw [addVertex, Action.check_bind, Keywords.checkNames, if_pos clash]
      simp [refused, Except.map, Except.isOk, Except.toBool]
  | false =>
      cases unset : label.isUnset with
      | true =>
          have refused : g.addVertex label attrs = (.error .labelRequired, g) := by
            rw [addVertex, if_pos unset, Action.check_of_ok g (Keywords.checkNames_of_free clash)]
            rfl
          simp [refused, Except.map, Except.isOk, Except.toBool]
      | false =>
          simp [addVertex_of_given clash unset, Except.map, Except.isOk, Except.toBool]

theorem insertVertex_eq {label : Value} {attrs : Keywords} (set : label.isUnset = false)
    (accepted : attrs.clashesWith ["label"] = false) (g : Graph) :
    g.insertVertex label attrs = (g.nextVertex, { g with
      vertices := g.vertices
        ++ [⟨g.nextVertex, ⟨("label", label) :: keptEntries attrs.entries⟩⟩]
      nextVertex := g.nextVertex + 1 }) := by
  have unlabelled : "label" ∉ (ofKeywords attrs).keys := by
    intro member
    rw [ofKeywords_eq] at member
    obtain ⟨entry, held, same⟩ := List.mem_map.1 member
    have given : entry.1 ∈ Entries.keys attrs.entries :=
      List.mem_map_of_mem (List.mem_of_mem_filter held)
    exact (Keywords.clashesWith_eq_false_iff.1 accepted entry.1 given).2 (by simp [same])
  have list : (ofKeywords attrs).prepend (.str "label") label
      = ⟨("label", label) :: keptEntries attrs.entries⟩ := by
    have tidy : (ofKeywords attrs).Tidy [] := .ofKeywords fun _ _ => List.not_mem_nil
    rw [prepend_of_set tidy set, erase_of_not_mem unlabelled, ofKeywords_eq]
  rw [insertVertex_apply, list]

theorem addsVertex_of_addVertex (c : g.Consistent) {call : Call} {label : Value} {attrs : Keywords}
    (performs : g.perform call = g.perform (.addVertex label attrs))
    (succeeded : (g.perform call).result.isOk = true) :
    AddsVertex g call (("label", label) :: keptEntries attrs.entries) := by
  rw [performs] at succeeded
  obtain ⟨accepted, set⟩ := isOk_addVertex_iff.1 succeeded
  have added := performs.trans (perform_map rfl g)
  rw [addVertex_of_given accepted set, insertVertex_eq set accepted] at added
  have number_new : ∀ v ∈ g.vertices, v.id ≠ g.nextVertex :=
    fun v stored => Nat.ne_of_lt (c.vertices_below v stored)
  exact ⟨by rw [added]; rfl, by rw [added], number_new⟩

section

variable {record : Record Value}

theorem vertexAttributes_entries (distinct : (Entries.keys record.properties).Nodup) :
    (Keywords.ofEntries record.vertexAttributes).entries
      = ("shape", .str "record") :: record.properties.filter fun property =>
          property.1 ≠ "shape" && property.1 ≠ "label" := by
  apply Entries.putAll_nil_of_nodup
  refine List.nodup_cons.2 ⟨?_, distinct.sublist (List.filter_sublist.map _)⟩
  intro member
  obtain ⟨property, kept, same⟩ := List.mem_map.1 member
  simp [same] at kept

theorem vertexAttributes_clash_iff (distinct : (Entries.keys record.properties).Nodup) :
    (Keywords.ofEntries record.vertexAttributes).clashesWith ["label"] = false ↔
      "self" ∉ Entries.keys record.properties := by
  rw [Keywords.clashesWith_eq_false_iff, vertexAttributes_entries distinct]
  constructor
  · intro free member
    obtain ⟨property, held, same⟩ := List.mem_map.1 member
    have kept : property ∈ record.properties.filter fun property =>
        property.1 ≠ "shape" && property.1 ≠ "label" :=
      List.mem_filter.2 ⟨held, by simp [same]⟩
    exact (free property.1 (List.mem_cons_of_mem _ (List.mem_map_of_mem kept))).1 same
  · intro free name member
    rcases List.mem_cons.1 member with rfl | later
    · decide
    · obtain ⟨property, kept, rfl⟩ := List.mem_map.1 later
      obtain ⟨held, other⟩ := List.mem_filter.1 kept
      have not_self : property.1 ≠ "self" :=
        fun same => free (same ▸ List.mem_map_of_mem held)
      simp only [Bool.and_eq_true, decide_eq_true_eq] at other
      exact ⟨not_self, by simpa using other.2⟩

theorem perform_addRecord_of_label {label : Text} (compiles : record.label = .ok label)
    (g : Graph) :
    g.perform (.addRecord (.record record))
      = g.perform (.addVertex (.str (String.ofList label)) (.ofEntries record.vertexAttributes)) := by
  have labelled : labelOf (.record record) = .ok (.str (String.ofList label)) := by
    rw [labelOf, compiles]
    rfl
  have same : g.addRecord (.record record)
      = g.addVertex (.str (String.ofList label)) (.ofEntries record.vertexAttributes) :=
    Action.check_of_ok g labelled
  rw [perform_map rfl, perform_map rfl, same]

theorem isOk_addRecord_iff (distinct : (Entries.keys record.properties).Nodup) :
    (g.perform (.addRecord (.record record))).result.isOk = true ↔
      (∃ label, record.label = .ok label) ∧ "self" ∉ Entries.keys record.properties := by
  cases compiles : record.label with
  | error e =>
      have refused : g.perform (.addRecord (.record record)) = ⟨.error e, g⟩ := by
        rw [perform_map rfl, addRecord_without_label g compiles]
        rfl
      rw [refused]
      simp [Except.isOk, Except.toBool]
  | ok label =>
      rw [perform_addRecord_of_label compiles, isOk_addVertex_iff,
        vertexAttributes_clash_iff distinct]
      simp [Value.isUnset]

end

/-- The shape of a vertex that shows a table: the given one, or none if that is unset. -/
def tableShape (attrs : Keywords) : Entries Value :=
  match attrs.find? "shape" with
  | none => [("shape", .str "plaintext")]
  | some shape => if shape.isUnset then [] else [("shape", shape)]

theorem keptEntries_withDefault_shape (attrs : Keywords) :
    keptEntries (attrs.withDefault "shape" (.str "plaintext")).entries
      = tableShape attrs ++ keptEntries (attrs.entries.filter fun entry => entry.1 ≠ "shape") := by
  have entries : (attrs.withDefault "shape" (.str "plaintext")).entries
      = ("shape", (attrs.find? "shape").getD (.str "plaintext"))
          :: attrs.entries.filter fun entry => entry.1 ≠ "shape" := rfl
  rw [entries, tableShape]
  cases given : attrs.find? "shape" with
  | none => exact keptEntries_cons_of_set rfl _
  | some shape =>
      cases unset : shape.isUnset with
      | true => simp [keptEntries_cons_of_unset unset, unset]
      | false => simp [keptEntries_cons_of_set unset, unset]

theorem withDefault_clash_iff (attrs : Keywords) (value : Value) :
    (attrs.withDefault "shape" value).clashesWith ["label"] = false ↔
      attrs.clashesWith ["label"] = false := by
  rw [Keywords.clashesWith_eq_false_iff, Keywords.clashesWith_eq_false_iff]
  constructor
  · intro free name member
    by_cases shape : name = "shape"
    · subst shape
      decide
    · obtain ⟨entry, held, rfl⟩ := List.mem_map.1 member
      have kept : entry ∈ (attrs.erase "shape").entries := Keywords.mem_erase_iff.2 ⟨held, shape⟩
      exact free entry.1 (List.mem_cons_of_mem _ (List.mem_map_of_mem kept))
  · intro free name member
    rcases List.mem_cons.1 member with rfl | later
    · simp
    · obtain ⟨entry, kept, rfl⟩ := List.mem_map.1 later
      exact free entry.1 (List.mem_map_of_mem (Keywords.mem_erase_iff.1 kept).1)

theorem clashesWith_record_label_iff {attrs : Keywords} :
    attrs.clashesWith ["record", "label"] = false ↔
      attrs.clashesWith ["record"] = false ∧ attrs.clashesWith ["label"] = false := by
  simp only [Keywords.clashesWith_eq_false_iff, ← forall₂_and, List.mem_cons, List.not_mem_nil,
    or_false, not_or]
  refine forall₂_congr fun name _ => ?_
  tauto

theorem perform_addHtmlRecord_of_free {attrs : Keywords}
    (free : attrs.clashesWith ["record"] = false) (table : Html.Table Value) (g : Graph) :
    g.perform (.addHtmlRecord (.table table) attrs)
      = g.perform (.addVertex (.str (String.ofList table.label))
        (attrs.withDefault "shape" (.str "plaintext"))) := by
  have same : g.addHtmlRecord (.table table) attrs = g.addVertex
      (.str (String.ofList table.label)) (attrs.withDefault "shape" (.str "plaintext")) := by
    rw [addHtmlRecord, Action.check_of_ok g (Keywords.checkNames_of_free free)]
    rfl
  rw [perform_map rfl, perform_map rfl, same]

theorem isOk_addHtmlRecord_iff {table : Html.Table Value} {attrs : Keywords} :
    (g.perform (.addHtmlRecord (.table table) attrs)).result.isOk = true ↔
      attrs.clashesWith ["record", "label"] = false := by
  rw [clashesWith_record_label_iff]
  cases free : attrs.clashesWith ["record"] with
  | true =>
      have refused : g.addHtmlRecord (.table table) attrs = (.error .wrongType, g) := by
        rw [addHtmlRecord, Action.check_bind, Keywords.checkNames, if_pos free]
      rw [perform_map rfl, refused]
      simp [Except.map, Except.isOk, Except.toBool]
  | false =>
      rw [perform_addHtmlRecord_of_free free, isOk_addVertex_iff,
        withDefault_clash_iff]
      simp [Value.isUnset]

/-! ## The attributes of every new vertex -/

/-- An operation that creates a vertex and succeeds, which it does exactly as stated, stores one
vertex and changes nothing else.  The attributes of the vertex are the label, the shape of a record
or of a table, and what is given otherwise and is not unset, in this order.  Neither the label nor
the shape of a record can be given as a property of it. -/
theorem new_vertex_attributes (reached : Reachable g) :
    (∀ (label : Value) (attrs : Keywords),
      ((g.perform (.addVertex label attrs)).result.isOk = true ↔
        attrs.clashesWith ["label"] = false ∧ label.isUnset = false) ∧
      ((g.perform (.addVertex label attrs)).result.isOk = true →
        AddsVertex g (.addVertex label attrs) (("label", label) :: keptEntries attrs.entries))) ∧
    (∀ record : Record Value, (Entries.keys record.properties).Nodup →
      ((g.perform (.addRecord (.record record))).result.isOk = true ↔
        (∃ label, record.label = .ok label) ∧ "self" ∉ Entries.keys record.properties) ∧
      ((g.perform (.addRecord (.record record))).result.isOk = true →
        ∃ label, record.label = .ok label ∧
          AddsVertex g (.addRecord (.record record))
            (("label", .str (String.ofList label)) :: ("shape", .str "record")
              :: keptEntries (record.properties.filter fun property =>
                property.1 ≠ "shape" && property.1 ≠ "label")))) ∧
    (∀ (table : Html.Table Value) (attrs : Keywords),
      ((g.perform (.addHtmlRecord (.table table) attrs)).result.isOk = true ↔
        attrs.clashesWith ["record", "label"] = false) ∧
      ((g.perform (.addHtmlRecord (.table table) attrs)).result.isOk = true →
        AddsVertex g (.addHtmlRecord (.table table) attrs)
          (("label", .str (String.ofList table.label)) :: tableShape attrs
            ++ keptEntries (attrs.entries.filter fun entry => entry.1 ≠ "shape")))) := by
  have c := reached.consistent
  refine ⟨fun label attrs => ⟨?_, ?_⟩, fun record distinct => ⟨?_, ?_⟩,
    fun table attrs => ⟨?_, ?_⟩⟩
  · exact isOk_addVertex_iff
  · exact addsVertex_of_addVertex c rfl
  · exact isOk_addRecord_iff distinct
  · intro succeeded
    obtain ⟨⟨label, compiles⟩, -⟩ := (isOk_addRecord_iff distinct).1 succeeded
    have added := addsVertex_of_addVertex c (perform_addRecord_of_label compiles g) succeeded
    rw [vertexAttributes_entries distinct, keptEntries_cons_of_set rfl] at added
    exact ⟨label, compiles, added⟩
  · exact isOk_addHtmlRecord_iff
  · intro succeeded
    obtain ⟨free, -⟩ := clashesWith_record_label_iff.1 (isOk_addHtmlRecord_iff.1 succeeded)
    have added := addsVertex_of_addVertex c (perform_addHtmlRecord_of_free free table g) succeeded
    rwa [keptEntries_withDefault_shape] at added

def secondVertexGraph : Graph :=
  (ofLayers .empty .empty .empty).run
    [.addVertex (.str "a") .empty, .addVertex (.str "b") .empty, .removeVertex (.int 0)]

/-- Properties that name the shape and the label, and one that is unset. -/
def cardProperties : Keywords :=
  ⟨[("shape", .str "box"), ("color", .str "blue"), ("label", .str "other"), ("style", .unset),
    ("penwidth", .int 2)], by decide⟩

def card : Record Value :=
  ⟨.group (.bool false) [.text (.str "a"), .port (.str "p") (.str "b")], cardProperties.entries⟩

def emptyTable : Html.Table Value :=
  ⟨[], []⟩

def shapedAs (shape : Value) : Keywords :=
  ⟨[("color", .null), ("shape", shape), ("penwidth", .int 2)], by simp⟩

theorem secondVertexGraph_new_attributes :
    Reachable secondVertexGraph ∧
    (Entries.keys card.properties).Nodup ∧
    Record.build (.list [.str "a", .tuple [.str "p", .str "b"]]) cardProperties = .ok card ∧
    AddsVertex secondVertexGraph (.addVertex (.str "c") (shapedAs (.str "box")))
      [("label", .str "c"), ("shape", .str "box"), ("penwidth", .int 2)] ∧
    AddsVertex secondVertexGraph (.addRecord (.record card))
      [("label", .str "a | <p> b"), ("shape", .str "record"), ("color", .str "blue"),
        ("penwidth", .int 2)] ∧
    AddsVertex secondVertexGraph (.addHtmlRecord (.table emptyTable) .empty)
      [("label", .str "<table>\n</table>"), ("shape", .str "plaintext")] ∧
    AddsVertex secondVertexGraph (.addHtmlRecord (.table emptyTable) (shapedAs (.str "box")))
      [("label", .str "<table>\n</table>"), ("shape", .str "box"), ("penwidth", .int 2)] ∧
    AddsVertex secondVertexGraph (.addHtmlRecord (.table emptyTable) (shapedAs .unset))
      [("label", .str "<table>\n</table>"), ("penwidth", .int 2)] := by
  have reached : Reachable secondVertexGraph := reachable_run_empty _
  have distinct : (Entries.keys card.properties).Nodup := cardProperties.distinct
  obtain ⟨plain, records, tables⟩ := new_vertex_attributes reached
  obtain ⟨label, compiles, recorded⟩ := (records card distinct).2 rfl
  cases compiles
  exact ⟨reached, distinct, rfl, (plain _ _).2 rfl, recorded, (tables _ _).2 rfl,
    (tables _ _).2 rfl, (tables _ _).2 rfl⟩

end Graph
end DotDoc
