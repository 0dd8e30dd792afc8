import DotDoc.Proofs.Record.Brackets

/-!
# Records that compile

Joining the cells of a group fails only on a text cell whose text is no string.  Strings and pairs
of strings become cells that hold strings, a port shows any name and any text, and a group passes
on what its cells hold.  So of a record that was built, the text cells that were given as cells say
whether it compiles, and with it whether a vertex of it can be added: nothing else refuses the label
of a record, on any graph.
-/

set_option autoImplicit false

namespace DotDoc

namespace Record

mutual

/-- Whether every text cell in a cell holds a string. -/
def Cell.holdsStrings : Cell Value → Bool
  | .text (.str _) => true
  | .text _ => false
  | .port _ _ => true
  | .group _ cells => cellsHoldStrings cells

def cellsHoldStrings : List (Cell Value) → Bool
  | [] => true
  | cell :: rest => cell.holdsStrings && cellsHoldStrings rest

end

def Body.holdsStrings : Body Value → Bool
  | .plain _ => true
  | .group _ cells => cellsHoldStrings cells

mutual

theorem Cell.text?_cases : (cell : Cell Value) →
    (cell.holdsStrings = true ∧ ∃ text, cell.text? = .ok text) ∨
      (cell.holdsStrings = false ∧ cell.text? = .error .wrongType)
  | .text shown => by
      cases shown with
      | str s => exact .inl ⟨rfl, s.toList, rfl⟩
      | _ => exact .inr ⟨rfl, rfl⟩
  | .port name shown => .inl ⟨rfl, portText name shown, rfl⟩
  | .group _ cells => by
      rcases texts_cases cells with ⟨strings, labels, joined⟩ | ⟨other, failed⟩
      · refine .inl ⟨strings, groupText false labels, ?_⟩
        rw [Cell.text?, joined]
        rfl
      · refine .inr ⟨other, ?_⟩
        rw [Cell.text?, failed]
        rfl

theorem texts_cases : (cells : List (Cell Value)) →
    (cellsHoldStrings cells = true ∧ ∃ labels, texts cells = .ok labels) ∨
      (cellsHoldStrings cells = false ∧ texts cells = .error .wrongType)
  | [] => .inl ⟨rfl, [], rfl⟩
  | cell :: rest => by
      rw [cellsHoldStrings, texts]
      rcases cell.text?_cases with ⟨strings, text, shown⟩ | ⟨other, failed⟩
      · rw [strings, shown]
        rcases texts_cases rest with ⟨more, labels, joined⟩ | ⟨other, failed⟩
        · exact .inl ⟨by rw [more]; rfl, text :: labels, by rw [joined]; rfl⟩
        · exact .inr ⟨by rw [other]; rfl, by rw [failed]; rfl⟩
      · exact .inr ⟨by rw [other]; rfl, by rw [failed]; rfl⟩

end

theorem label_cases (record : Record Value) :
    (record.body.holdsStrings = true ∧ ∃ label, record.label = .ok label) ∨
      (record.body.holdsStrings = false ∧ record.label = .error .wrongType) := by
  obtain ⟨body, properties⟩ := record
  cases body with
  | plain text => exact .inl ⟨rfl, text.toList, rfl⟩
  | group isColumn cells =>
      rcases texts_cases cells with ⟨strings, labels, joined⟩ | ⟨other, failed⟩
      · refine .inl ⟨strings, groupText (!isColumn.isTruthy) labels, ?_⟩
        simp only [label, groupLabel, joined, Bool.true_and]
        rfl
      · refine .inr ⟨other, ?_⟩
        simp only [label, groupLabel, failed]
        rfl

/-- Whether a value brings only text cells that hold strings into a group: only a cell made before
can bring another. -/
def givesStrings : Value → Bool
  | .recordCell cell => cell.holdsStrings
  | _ => true

def bodyGivesStrings : Value → Bool
  | .list items => items.all givesStrings
  | .tuple items => items.all givesStrings
  | v => givesStrings v

theorem Cell.holdsStrings_ofValue {v : Value} {cell : Cell Value}
    (taken : Cell.ofValue v = .ok cell) : cell.holdsStrings = givesStrings v := by
  unfold Cell.ofValue at taken
  split at taken
  · cases taken; rfl
  · cases taken; rfl
  · cases taken; rfl
  · cases taken

theorem cellsHoldStrings_of_values {items : List Value} {cells : List (Cell Value)}
    (taken : cellsOfValues items = .ok cells) :
    cellsHoldStrings cells = items.all givesStrings := by
  induction items generalizing cells with
  | nil => cases taken; rfl
  | cons item rest ih =>
      obtain ⟨cell, first, taken⟩ := bind_eq_ok_iff.1 taken
      obtain ⟨later, others, taken⟩ := bind_eq_ok_iff.1 taken
      cases taken
      rw [cellsHoldStrings, Cell.holdsStrings_ofValue first, ih others, List.all_cons]

theorem Body.holdsStrings_ofValue {v : Value} {body : Body Value}
    (taken : Body.ofValue v = .ok body) : body.holdsStrings = bodyGivesStrings v := by
  unfold Body.ofValue at taken
  split at taken
  · cases taken; rfl
  · cases taken; rfl
  · obtain ⟨cells, listed, rest⟩ := bind_eq_ok_iff.1 taken
    cases rest
    exact cellsHoldStrings_of_values listed
  · obtain ⟨cells, listed, rest⟩ := bind_eq_ok_iff.1 taken
    cases rest
    exact cellsHoldStrings_of_values listed
  · cases taken

end Record

namespace Graph

theorem addRecord_of_label (g : Graph) {body : Value} {properties : Keywords}
    {record : Record Value} {label : Text} (built : Record.build body properties = .ok record)
    (compiles : record.label = .ok label) :
    ∃ after, g.addRecord (.record record) = (.ok g.nextVertex, after) := by
  have accepted := Record.vertexAttributes_accepted built
  have found : labelOf (.record record) = .ok (.str (String.ofList label)) := by
    rw [labelOf, compiles]
    rfl
  refine ⟨(g.insertVertex (.str (String.ofList label)) (.ofEntries record.vertexAttributes)).2, ?_⟩
  rw [addRecord, Action.check_of_ok g found]
  exact addVertex_of_given accepted rfl g

theorem addRecord_without_label (g : Graph) {record : Record Value} {error : Error}
    (fails : record.label = .error error) :
    g.addRecord (.record record) = (.error error, g) := by
  have unlabelled : labelOf (.record record) = .error error := by
    rw [labelOf, fails]
    rfl
  rw [addRecord, Action.check_bind, unlabelled]

/-- A record that was built compiles and can be added to every graph if the text cells given to it,
at any depth, hold strings.  If one of them does not, the record still is built, has no label, and
is refused by every graph. -/
theorem built_record_compiles {body : Value} {properties : Keywords} {record : Record Value}
    (built : Record.build body properties = .ok record) :
    (Record.bodyGivesStrings body = true →
      ∃ label, record.label = .ok label ∧
        ∀ g : Graph, ∃ after, g.addRecord (.record record) = (.ok g.nextVertex, after)) ∧
    (Record.bodyGivesStrings body = false →
      record.label = .error .wrongType ∧
        ∀ g : Graph, g.addRecord (.record record) = (.error .wrongType, g)) := by
  obtain ⟨_, of_body, _, _⟩ := Record.build_eq_ok built
  rw [← Record.Body.holdsStrings_ofValue of_body]
  rcases record.label_cases with ⟨strings, label, compiles⟩ | ⟨other, fails⟩
  · refine ⟨fun _ => ⟨label, compiles, fun g => addRecord_of_label g built compiles⟩, ?_⟩
    intro some_other
    exact absurd (strings.symm.trans some_other) (by decide)
  · refine ⟨?_, fun _ => ⟨fails, fun g => addRecord_without_label g fails⟩⟩
    intro strings
    exact absurd (strings.symm.trans other) (by decide)

def nestedCells : Value :=
  .list [.str "a", .recordCell (.group (.bool true) [.text (.str "b"), .port (.int 1) .null]),
    .tuple [.str "p", .str "d"]]

def nestedRecord : Record Value :=
  ⟨.group (.bool false) [.text (.str "a"),
    .group (.bool true) [.text (.str "b"), .port (.int 1) .null], .port (.str "p") (.str "d")], []⟩

theorem nestedRecord_compiles :
    Record.build nestedCells .empty = .ok nestedRecord ∧
      Record.bodyGivesStrings nestedCells = true ∧
      nestedRecord.label = .ok "a | \x7b b | <1> None \x7d | <p> d".toList ∧
      ∀ g : Graph, ∃ after, g.addRecord (.record nestedRecord) = (.ok g.nextVertex, after) := by
  have built : Record.build nestedCells .empty = .ok nestedRecord := rfl
  have strings : Record.bodyGivesStrings nestedCells = true := rfl
  obtain ⟨label, compiles, added⟩ := (built_record_compiles built).1 strings
  exact ⟨built, strings, rfl, added⟩

def numberRecord : Record Value :=
  ⟨.group (.bool false) [.text (.int 5)], []⟩

theorem number_text_has_no_label :
    Record.build (.list [.recordCell (.text (.int 5))]) .empty = .ok numberRecord ∧
      numberRecord.label = .error .wrongType ∧
      (ofLayers .empty .empty .empty).addRecord (.record numberRecord)
        = (.error .wrongType, ofLayers .empty .empty .empty) ∧
      ¬∀ (body : Value) (properties : Keywords) (record : Record Value),
        Record.build body properties = .ok record → ∃ label, record.label = .ok label := by
  have built : Record.build (.list [.recordCell (.text (.int 5))]) .empty = .ok numberRecord := rfl
  have fails : numberRecord.label = .error .wrongType := rfl
  refine ⟨built, fails, rfl, ?_⟩
  intro always
  obtain ⟨label, compiles⟩ := always _ _ _ built
  exact nomatch fails.symm.trans compiles

end Graph
end DotDoc
