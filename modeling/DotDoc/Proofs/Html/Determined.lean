import DotDoc.Proofs.Html.Normal
import DotDoc.Proofs.Text.Statements

/-!
# A table label determines its table

When texts have no opening bracket, names no equals sign, values no quote and none of them a line
feed, the label of a table can be read in one way only, up to what `Table.normal` removes.

The proof compares two normal tables that are printed in front of some rest.  A text ends at the
next bracket, and since no text follows another, this bracket belongs to the next element or closes
the content.  The character behind the bracket tells the elements apart.  Rows and cells follow
spaces at the front of a line, and their number tells another row or cell from the end of the table
or row.
-/

set_option autoImplicit false

namespace DotDoc.Html

def isMarkedText (t : Text) : Bool :=
  Text.lacks ['<'] t

def isMarkedEntry (entry : String × Value) : Bool :=
  Text.lacks ['='] entry.1.toList && Text.lacks ['"'] entry.2.formatted

/-- Texts without opening brackets, names without equals signs and values without quotes, all of
them without line feeds.  Names of letters, digits, underscores and hyphens are such names. -/
structure Table.Readable (table : Table Value) : Prop where
  one_line : table.OneLine
  marked : table.spelled isMarkedText isMarkedEntry = true

/-- A written attribute whose name ends at the equals sign and whose value ends at the quote. -/
structure PlainEntry (entry : String × Value) : Prop where
  normal : normalEntry entry = entry
  name : '=' ∉ attributeName entry.1.toList
  value : '"' ∉ entry.2.formatted

def PlainEntries (attributes : List (String × Value)) : Prop :=
  ∀ entry ∈ attributes, PlainEntry entry

def startsWithText : List (Content Value) → Bool
  | .text _ :: _ => true
  | _ => false

/-- No text is empty, and none follows another one. -/
def Joined : List (Content Value) → Prop
  | [] => True
  | .text shown :: rest => shown ≠ "" ∧ startsWithText rest = false ∧ Joined rest
  | _ :: rest => Joined rest

mutual

def Content.PlainItem : Content Value → Prop
  | .text shown => '<' ∉ shown.toList
  | .lineBreak => True
  | .font attributes content => PlainEntries attributes ∧ content.Plain
  | .table table => table.Plain
  | .sequence _ => False

def Content.Plain : Content Value → Prop
  | .sequence items => Joined items ∧ PlainItems items
  | _ => False

def PlainItems : List (Content Value) → Prop
  | [] => True
  | item :: rest => item.PlainItem ∧ PlainItems rest

def PlainCells : List (Cell Value) → Prop
  | [] => True
  | ⟨attributes, content⟩ :: rest => PlainEntries attributes ∧ content.Plain ∧ PlainCells rest

def PlainRows : List (Row Value) → Prop
  | [] => True
  | ⟨cells⟩ :: rest => PlainCells cells ∧ PlainRows rest

def Table.Plain : Table Value → Prop
  | ⟨attributes, rows⟩ => PlainEntries attributes ∧ PlainRows rows

end

theorem joined_joinText (front : String) {items : List (Content Value)} (joined : Joined items) :
    Joined (joinText front items) := by
  unfold joinText
  split
  · obtain ⟨nonempty, apart, later⟩ := joined
    refine ⟨fun empty => nonempty ?_, apart, later⟩
    have parts := congrArg String.toList empty
    rw [String.toList_append] at parts
    exact String.toList_inj.1 (List.append_eq_nil_iff.1 parts).2
  · rename_i not_text
    split
    · exact joined
    · rename_i nonempty
      refine ⟨nonempty, ?_, joined⟩
      cases items with
      | nil => rfl
      | cons item rest =>
          cases item with
          | text shown => exact absurd rfl (not_text shown rest)
          | _ => rfl

theorem joined_joinTexts (items : List (Content Value)) : Joined (joinTexts items) := by
  induction items with
  | nil => trivial
  | cons item rest ih =>
      cases item with
      | text shown => exact joined_joinText shown ih
      | _ => exact ih

theorem plainItems_append {front behind : List (Content Value)} (plain : PlainItems front)
    (plain' : PlainItems behind) : PlainItems (front ++ behind) := by
  induction front with
  | nil => exact plain'
  | cons item rest ih => exact ⟨plain.1, ih plain.2⟩

theorem plainItems_joinText {front : String} {items : List (Content Value)}
    (unmarked : '<' ∉ front.toList) (plain : PlainItems items) :
    PlainItems (joinText front items) := by
  unfold joinText
  split
  · obtain ⟨behind, later⟩ := plain
    have both : '<' ∉ front.toList ++ _ := List.not_mem_append unmarked behind
    refine ⟨?_, later⟩
    rw [Content.PlainItem, String.toList_append]
    exact both
  · split
    · exact plain
    · exact ⟨unmarked, plain⟩

theorem plainItems_joinTexts {items : List (Content Value)} (plain : PlainItems items) :
    PlainItems (joinTexts items) := by
  induction items with
  | nil => trivial
  | cons item rest ih =>
      cases item with
      | text shown => exact plainItems_joinText plain.1 (ih plain.2)
      | _ => exact ⟨plain.1, ih plain.2⟩

theorem plainEntries_normal {attributes : List (String × Value)}
    (marked : attributes.all isMarkedEntry = true) :
    PlainEntries (attributes.map normalEntry) := by
  intro entry member
  obtain ⟨given, held, rfl⟩ := List.mem_map.1 member
  obtain ⟨name, value⟩ := Bool.and_eq_true_iff.1 (List.all_eq_true.1 marked given held)
  have no_equals : '=' ∉ given.1.toList := Text.lacks_iff.1 name '=' (List.mem_singleton_self _)
  have no_quote : '"' ∉ given.2.formatted := Text.lacks_iff.1 value '"' (List.mem_singleton_self _)
  refine ⟨normalEntry_idem given, ?_, ?_⟩
  · rw [normalEntry, String.toList_ofList, attributeName_idem]
    exact not_mem_attributeName (by decide) no_equals
  · rw [normalEntry, Value.formatted_str, String.toList_ofList]
    exact no_quote

mutual

theorem Content.plain_items : (content : Content Value) →
    content.spelled isMarkedText isMarkedEntry = true → PlainItems content.items
  | .text shown, marked => ⟨Text.lacks_iff.1 marked '<' (List.mem_singleton_self _), trivial⟩
  | .lineBreak, _ => ⟨trivial, trivial⟩
  | .font attributes content, marked => by
      rw [Content.spelled, Bool.and_eq_true_iff] at marked
      have inside := plainItems_joinTexts (content.plain_items marked.2)
      exact ⟨⟨plainEntries_normal marked.1, joined_joinTexts _, inside⟩, trivial⟩
  | .table table, marked => ⟨table.plain_normal marked, trivial⟩
  | .sequence items, marked => plain_sequenceItems items marked

theorem plain_sequenceItems : (items : List (Content Value)) →
    sequenceSpelled isMarkedText isMarkedEntry items = true → PlainItems (sequenceItems items)
  | [], _ => trivial
  | item :: rest, marked => by
      rw [sequenceSpelled, Bool.and_eq_true_iff] at marked
      exact plainItems_append (item.plain_items marked.1) (plain_sequenceItems rest marked.2)

theorem plain_normalCells : (cells : List (Cell Value)) →
    cellsSpelled isMarkedText isMarkedEntry cells = true → PlainCells (normalCells cells)
  | [], _ => trivial
  | ⟨attributes, content⟩ :: rest, marked => by
      rw [cellsSpelled, Cell.spelled, Bool.and_eq_true_iff, Bool.and_eq_true_iff] at marked
      have inside := plainItems_joinTexts (content.plain_items marked.1.2)
      exact ⟨plainEntries_normal marked.1.1, ⟨joined_joinTexts _, inside⟩,
        plain_normalCells rest marked.2⟩

theorem plain_normalRows : (rows : List (Row Value)) →
    rowsSpelled isMarkedText isMarkedEntry rows = true → PlainRows (normalRows rows)
  | [], _ => trivial
  | ⟨cells⟩ :: rest, marked => by
      rw [rowsSpelled, Row.spelled, Bool.and_eq_true_iff] at marked
      exact ⟨plain_normalCells cells marked.1, plain_normalRows rest marked.2⟩

theorem Table.plain_normal : (table : Table Value) →
    table.spelled isMarkedText isMarkedEntry = true → table.normal.Plain
  | ⟨attributes, rows⟩, marked => by
      rw [Table.spelled, Bool.and_eq_true_iff] at marked
      exact ⟨plainEntries_normal marked.1, plain_normalRows rows marked.2⟩

end

theorem mark_append_cancel {mark : Char} {front front' rest rest' : Text} (absent : mark ∉ front)
    (absent' : mark ∉ front') (next : rest.head? = some mark) (next' : rest'.head? = some mark)
    (same : front ++ rest = front' ++ rest') : front = front' ∧ rest = rest' := by
  have other {t : Text} (lacking : mark ∉ t) : ∀ c ∈ t, (c != mark) = true := by
    intro c member
    exact bne_iff_ne.2 fun marked => lacking (marked ▸ member)
  have stop {t : Text} (marked : t.head? = some mark) :
      ∀ c, t.head? = some c → (c != mark) = false := by
    intro c first
    rw [Option.some.inj (first.symm.trans marked)]
    exact bne_self_eq_false _
  exact append_cancel_of_class (other absent) (other absent') (stop next) (stop next') same

theorem attributesText_cons_append (entry : String × Value) (attributes : List (String × Value))
    (rest : Text) : attributesText (entry :: attributes) ++ rest
      = ' ' :: (attributeName entry.1.toList
          ++ '=' :: '"' :: (entry.2.formatted ++ '"' :: (attributesText attributes ++ rest))) := by
  simp [attributesText, writtenAttributes]

theorem plainEntry_eq {entry entry' : String × Value} (plain : PlainEntry entry)
    (plain' : PlainEntry entry')
    (names : attributeName entry.1.toList = attributeName entry'.1.toList)
    (values : entry.2.formatted = entry'.2.formatted) : entry = entry' := by
  rw [← plain.normal, ← plain'.normal, normalEntry, normalEntry, names, values]

theorem attributesText_append_cancel {attributes attributes' : List (String × Value)}
    (plain : PlainEntries attributes) (plain' : PlainEntries attributes') {rest rest' : Text}
    (same : attributesText attributes ++ '>' :: rest = attributesText attributes' ++ '>' :: rest') :
    attributes = attributes' ∧ rest = rest' := by
  induction attributes generalizing attributes' with
  | nil =>
      cases attributes' with
      | nil => exact ⟨rfl, (List.cons.inj same).2⟩
      | cons entry' later' =>
          rw [attributesText_cons_append] at same
          exact absurd (List.cons.inj same).1 (by decide)
  | cons entry later ih =>
      cases attributes' with
      | nil =>
          rw [attributesText_cons_append] at same
          exact absurd (List.cons.inj same).1 (by decide)
      | cons entry' later' =>
          obtain ⟨first, others⟩ := List.forall_mem_cons.1 plain
          obtain ⟨first', others'⟩ := List.forall_mem_cons.1 plain'
          rw [attributesText_cons_append, attributesText_cons_append] at same
          obtain ⟨names, values⟩ :=
            mark_append_cancel first.name first'.name rfl rfl (List.cons.inj same).2
          simp only [List.cons.injEq, true_and] at values
          obtain ⟨shown, behind⟩ := mark_append_cancel first.value first'.value rfl rfl values
          obtain ⟨rfl, rests⟩ := ih others others' (List.cons.inj behind).2
          exact ⟨by rw [plainEntry_eq first first' names shown], rests⟩

theorem opening_append_cancel (element : String) {attributes attributes' : List (String × Value)}
    (plain : PlainEntries attributes) (plain' : PlainEntries attributes') {rest rest' : Text}
    (same : opening element attributes ++ rest = opening element attributes' ++ rest') :
    attributes = attributes' ∧ rest = rest' := by
  have behind : attributesText attributes ++ '>' :: rest
      = attributesText attributes' ++ '>' :: rest' := by
    simpa [opening] using same
  exact attributesText_append_cancel plain plain' behind

/-- The character behind an opening bracket at the front of a text. -/
def lead : Text → Option Char
  | '<' :: c :: _ => some c
  | _ => none

def Content.mark : Content Value → Option Char
  | .lineBreak => some 'b'
  | .font _ _ => some 'f'
  | .table _ => some 't'
  | _ => none

/-- What leads a printed sequence that the end of an element follows. -/
def sequenceMark : List (Content Value) → Option Char
  | [] => some '/'
  | item :: _ => item.mark

theorem head_of_lead {t : Text} {c : Char} (led : lead t = some c) : t.head? = some '<' := by
  unfold lead at led
  split at led
  · rfl
  · cases led

theorem lead_text {shown rest : Text} (nonempty : shown ≠ []) (unmarked : '<' ∉ shown) :
    lead (shown ++ rest) = none := by
  cases shown with
  | nil => exact absurd rfl nonempty
  | cons c later =>
      have other : c ≠ '<' := fun bracket => unmarked (bracket ▸ List.mem_cons_self)
      rw [List.cons_append]
      unfold lead
      split
      · rename_i front
        exact absurd (List.cons.inj front).1 other
      · rfl

theorem Content.lead_printed (n : Nat) (item : Content Value) {c : Char}
    (element : item.mark = some c) (rest : Text) : lead (item.printed n ++ rest) = some c := by
  cases item with
  | lineBreak => exact element
  | font _ _ => exact element
  | table table =>
      obtain ⟨attributes, rows⟩ := table
      exact element
  | _ => cases element

theorem Content.mark_of_text (item : Content Value) (plain : item.PlainItem)
    (unmarked : item.mark = none) : ∃ shown, item = .text shown := by
  cases item with
  | text shown => exact ⟨shown, rfl⟩
  | sequence _ => exact plain.elim
  | _ => cases unmarked

/-- What stands at the front of a printed normal sequence tells its first item. -/
theorem lead_printedSequence (n : Nat) {items : List (Content Value)} (joined : Joined items)
    (plain : PlainItems items) {rest : Text} (ended : lead rest = some '/') :
    lead (printedSequence n items ++ rest) = sequenceMark items := by
  cases items with
  | nil => exact ended
  | cons item later =>
      rw [printedSequence, List.append_assoc, sequenceMark]
      cases mark : item.mark with
      | some c => exact item.lead_printed n mark _
      | none =>
          obtain ⟨shown, rfl⟩ := item.mark_of_text plain.1 mark
          have nonempty : shown.toList ≠ [] := by simpa using joined.1
          exact lead_text nonempty plain.1

theorem Content.mark_ne_slash (item : Content Value) : item.mark ≠ some '/' := by
  cases item <;> simp [Content.mark]

theorem Joined.later {item : Content Value} {later : List (Content Value)}
    (joined : Joined (item :: later)) : Joined later := by
  cases item with
  | text _ => exact joined.2.2
  | _ => exact joined

theorem bracket_after_text (n : Nat) {item : Content Value} {later : List (Content Value)}
    (joined : Joined (item :: later)) (plain : PlainItems (item :: later)) {rest : Text}
    (ended : lead rest = some '/') (unmarked : item.mark = none) :
    (printedSequence n later ++ rest).head? = some '<' := by
  obtain ⟨shown, rfl⟩ := item.mark_of_text plain.1 unmarked
  have led := lead_printedSequence n joined.later plain.2 ended
  cases mark : sequenceMark later with
  | some c => exact head_of_lead (led.trans mark)
  | none =>
      cases later with
      | nil => cases mark
      | cons next others =>
          obtain ⟨shown', rfl⟩ := next.mark_of_text plain.2.1 mark
          cases joined.2.1

/-- A line that starts with a number of spaces and a bracket behind them. -/
def StartsLine (spaces : Nat) (t : Text) : Prop :=
  ∃ after, t = newLine spaces ++ '<' :: after

theorem newLine_append_cancel {spaces spaces' : Nat} {rest rest' : Text}
    (same : newLine spaces ++ '<' :: rest = newLine spaces' ++ '<' :: rest') :
    spaces = spaces' ∧ rest = rest' := by
  have blank (k : Nat) : ∀ c ∈ List.replicate k ' ', (c == ' ') = true := by
    intro c member
    exact beq_iff_eq.2 (List.eq_of_mem_replicate member)
  have stop {t : Text} : ∀ c, ('<' :: t).head? = some c → (c == ' ') = false := by
    rintro c ⟨⟩
    decide
  obtain ⟨margins, rests⟩ :=
    append_cancel_of_class (blank spaces) (blank spaces') stop stop (List.cons.inj same).2
  exact ⟨by simpa using congrArg List.length margins, (List.cons.inj rests).2⟩

theorem StartsLine.spaces_eq {spaces spaces' : Nat} {t : Text} (line : StartsLine spaces t)
    (line' : StartsLine spaces' t) : spaces = spaces' := by
  obtain ⟨after, rfl⟩ := line
  obtain ⟨after', same⟩ := line'
  exact (newLine_append_cancel same).1

theorem startsLine_closing (spaces : Nat) (element : String) (rest : Text) :
    StartsLine spaces (newLine spaces ++ (closing element ++ rest)) :=
  ⟨_, rfl⟩

theorem printedCells_cons_append (n : Nat) (attributes : List (String × Value))
    (content : Content Value) (cells : List (Cell Value)) (rest : Text) :
    printedCells n (⟨attributes, content⟩ :: cells) ++ rest
      = newLine (4 * n + 4) ++ (opening "td" attributes ++ (content.printed (n + 1)
          ++ (closing "td" ++ (printedCells n cells ++ rest)))) := by
  simp only [printedCells, Cell.printed, List.append_assoc]

theorem printedRows_cons_append (n : Nat) (cells : List (Cell Value)) (rows : List (Row Value))
    (rest : Text) :
    printedRows n (⟨cells⟩ :: rows) ++ rest
      = newLine (4 * n + 2) ++ (opening "tr" [] ++ (printedCells n cells
          ++ (newLine (4 * n + 2) ++ (closing "tr" ++ (printedRows n rows ++ rest))))) := by
  simp only [printedRows, Row.printed, List.append_assoc]

theorem Table.printed_append (n : Nat) (attributes : List (String × Value))
    (rows : List (Row Value)) (rest : Text) :
    (Table.mk attributes rows).printed n ++ rest
      = opening "table" attributes ++ (printedRows n rows
          ++ (newLine (4 * n) ++ (closing "table" ++ rest))) := by
  simp only [Table.printed, List.append_assoc]

theorem startsLine_cells (n : Nat) (cell : Cell Value) (cells : List (Cell Value)) (rest : Text) :
    StartsLine (4 * n + 4) (printedCells n (cell :: cells) ++ rest) := by
  obtain ⟨attributes, content⟩ := cell
  exact ⟨_, printedCells_cons_append n attributes content cells rest⟩

theorem startsLine_rows (n : Nat) (row : Row Value) (rows : List (Row Value)) (rest : Text) :
    StartsLine (4 * n + 2) (printedRows n (row :: rows) ++ rest) := by
  obtain ⟨cells⟩ := row
  exact ⟨_, printedRows_cons_append n cells rows rest⟩

/-! ## Reading normal tables -/

mutual

/-- An item is determined by what it prints, and so is what stands behind it.  What stands behind a
text has to be an element or the end of one. -/
theorem Content.item_append_cancel : (n : Nat) → (item item' : Content Value) →
    item.PlainItem → item'.PlainItem → item.mark = item'.mark → {rest rest' : Text} →
    (item.mark = none → rest.head? = some '<') → (item'.mark = none → rest'.head? = some '<') →
    item.printed n ++ rest = item'.printed n ++ rest' → item = item' ∧ rest = rest'
  | n, .text shown, item', plain, plain', marks, rest, rest', bracket, bracket', same => by
      cases item' with
      | text shown' =>
          obtain ⟨shown_eq, rests⟩ :=
            mark_append_cancel plain plain' (bracket rfl) (bracket' rfl) same
          rw [String.toList_inj.1 shown_eq]
          exact ⟨rfl, rests⟩
      | sequence _ => exact plain'.elim
      | _ => cases marks
  | n, .lineBreak, item', _, _, marks, rest, rest', _, _, same => by
      cases item' with
      | lineBreak => exact ⟨rfl, List.append_cancel_left same⟩
      | _ => simp [Content.mark] at marks
  | n, .font attributes content, item', plain, plain', marks, rest, rest', _, _, same => by
      cases item' with
      | font attributes' content' =>
          simp only [Content.printed, List.append_assoc] at same
          obtain ⟨rfl, inside⟩ := opening_append_cancel "font" plain.1 plain'.1 same
          obtain ⟨rfl, behind⟩ :=
            content.printed_append_cancel n content' plain.2 plain'.2 rfl rfl inside
          exact ⟨rfl, List.append_cancel_left behind⟩
      | _ => simp [Content.mark] at marks
  | n, .table table, item', plain, plain', marks, rest, rest', _, _, same => by
      cases item' with
      | table table' =>
          obtain ⟨rfl, behind⟩ := table.printed_append_cancel n table' plain plain' same
          exact ⟨rfl, behind⟩
      | _ => simp [Content.mark] at marks
  | _, .sequence _, _, plain, _, _, _, _, _, _, _ => plain.elim

theorem Content.printed_append_cancel : (n : Nat) → (content content' : Content Value) →
    content.Plain → content'.Plain → {rest rest' : Text} → lead rest = some '/' →
    lead rest' = some '/' → content.printed n ++ rest = content'.printed n ++ rest' →
    content = content' ∧ rest = rest'
  | n, .sequence items, content', plain, plain', rest, rest', ended, ended', same => by
      cases content' with
      | sequence items' =>
          obtain ⟨rfl, behind⟩ := printedSequence_append_cancel n items items' plain.1 plain'.1
            plain.2 plain'.2 ended ended' same
          exact ⟨rfl, behind⟩
      | _ => exact plain'.elim
  | _, .text _, _, plain, _, _, _, _, _, _ => plain.elim
  | _, .lineBreak, _, plain, _, _, _, _, _, _ => plain.elim
  | _, .font _ _, _, plain, _, _, _, _, _, _ => plain.elim
  | _, .table _, _, plain, _, _, _, _, _, _ => plain.elim

theorem printedSequence_append_cancel : (n : Nat) → (items items' : List (Content Value)) →
    Joined items → Joined items' → PlainItems items → PlainItems items' → {rest rest' : Text} →
    lead rest = some '/' → lead rest' = some '/' →
    printedSequence n items ++ rest = printedSequence n items' ++ rest' →
    items = items' ∧ rest = rest'
  | n, items, items', joined, joined', plain, plain', rest, rest', ended, ended', same => by
      have marks : sequenceMark items = sequenceMark items' := by
        rw [← lead_printedSequence n joined plain ended, same,
          lead_printedSequence n joined' plain' ended']
      match items, items' with
      | [], [] => exact ⟨rfl, same⟩
      | [], item' :: _ => exact absurd marks.symm item'.mark_ne_slash
      | item :: _, [] => exact absurd marks item.mark_ne_slash
      | item :: later, item' :: later' =>
          rw [printedSequence, printedSequence, List.append_assoc, List.append_assoc] at same
          obtain ⟨rfl, behind⟩ := item.item_append_cancel n item' plain.1 plain'.1 marks
            (bracket_after_text n joined plain ended) (bracket_after_text n joined' plain' ended')
            same
          obtain ⟨rfl, behind_all⟩ := printedSequence_append_cancel n later later' joined.later
            joined'.later plain.2 plain'.2 ended ended' behind
          exact ⟨rfl, behind_all⟩

theorem printedCells_append_cancel : (n : Nat) → (cells cells' : List (Cell Value)) →
    PlainCells cells → PlainCells cells' → {rest rest' : Text} → StartsLine (4 * n + 2) rest →
    StartsLine (4 * n + 2) rest' → printedCells n cells ++ rest = printedCells n cells' ++ rest' →
    cells = cells' ∧ rest = rest'
  | n, [], [], _, _, rest, rest', _, _, same => ⟨rfl, same⟩
  | n, [], cell' :: later', _, _, rest, rest', ended, _, same => by
      have deeper := startsLine_cells n cell' later' rest'
      rw [← same] at deeper
      have spaces := ended.spaces_eq deeper
      omega
  | n, cell :: later, [], _, _, rest, rest', _, ended', same => by
      have deeper := startsLine_cells n cell later rest
      rw [same] at deeper
      have spaces := ended'.spaces_eq deeper
      omega
  | n, ⟨attributes, content⟩ :: later, ⟨attributes', content'⟩ :: later', plain, plain', rest,
      rest', ended, ended', same => by
      obtain ⟨entries, plain_content, others⟩ := plain
      obtain ⟨entries', plain_content', others'⟩ := plain'
      rw [printedCells_cons_append, printedCells_cons_append] at same
      obtain ⟨rfl, inside⟩ :=
        opening_append_cancel "td" entries entries' (List.append_cancel_left same)
      obtain ⟨rfl, behind⟩ := content.printed_append_cancel (n + 1) content' plain_content
        plain_content' rfl rfl inside
      obtain ⟨rfl, behind_all⟩ := printedCells_append_cancel n later later' others others' ended
        ended' (List.append_cancel_left behind)
      exact ⟨rfl, behind_all⟩

theorem printedRows_append_cancel : (n : Nat) → (rows rows' : List (Row Value)) →
    PlainRows rows → PlainRows rows' → {rest rest' : Text} → StartsLine (4 * n) rest →
    StartsLine (4 * n) rest' → printedRows n rows ++ rest = printedRows n rows' ++ rest' →
    rows = rows' ∧ rest = rest'
  | n, [], [], _, _, rest, rest', _, _, same => ⟨rfl, same⟩
  | n, [], row' :: later', _, _, rest, rest', ended, _, same => by
      have deeper := startsLine_rows n row' later' rest'
      rw [← same] at deeper
      have spaces := ended.spaces_eq deeper
      omega
  | n, row :: later, [], _, _, rest, rest', _, ended', same => by
      have deeper := startsLine_rows n row later rest
      rw [same] at deeper
      have spaces := ended'.spaces_eq deeper
      omega
  | n, ⟨cells⟩ :: later, ⟨cells'⟩ :: later', plain, plain', rest, rest', ended, ended', same => by
      rw [printedRows_cons_append, printedRows_cons_append] at same
      have inside := List.append_cancel_left (List.append_cancel_left same)
      obtain ⟨rfl, behind⟩ := printedCells_append_cancel n cells cells' plain.1 plain'.1
        (startsLine_closing _ _ _) (startsLine_closing _ _ _) inside
      have after_row := List.append_cancel_left (List.append_cancel_left behind)
      obtain ⟨rfl, behind_all⟩ := printedRows_append_cancel n later later' plain.2 plain'.2 ended
        ended' after_row
      exact ⟨rfl, behind_all⟩

theorem Table.printed_append_cancel : (n : Nat) → (table table' : Table Value) → table.Plain →
    table'.Plain → {rest rest' : Text} → table.printed n ++ rest = table'.printed n ++ rest' →
    table = table' ∧ rest = rest'
  | n, ⟨attributes, rows⟩, ⟨attributes', rows'⟩, plain, plain', rest, rest', same => by
      rw [Table.printed_append, Table.printed_append] at same
      obtain ⟨rfl, inside⟩ := opening_append_cancel "table" plain.1 plain'.1 same
      obtain ⟨rfl, behind⟩ := printedRows_append_cancel n rows rows' plain.2 plain'.2
        (startsLine_closing _ _ _) (startsLine_closing _ _ _) inside
      exact ⟨rfl, List.append_cancel_left (List.append_cancel_left behind)⟩

end

/-- Two tables that can be read have one label if and only if their normal forms are equal.  The
normal form has every element of the table at its place, and numbers in content as their texts. -/
theorem label_determines_table {table table' : Table Value} (readable : table.Readable)
    (readable' : table'.Readable) :
    (table.label = table'.label ↔ table.normal = table'.normal)
      ∧ table.normal.elements 0 = (table.elements 0).map Tag.normal
      ∧ ∀ (v : Value) (content : Content Value), Content.ofValue v = .ok content →
          content.normal = normalContentOf v := by
  refine ⟨?_, table.elements_normal 0, ?_⟩
  · rw [label_eq_printed table readable.one_line, label_eq_printed table' readable'.one_line,
      ← table.printed_normal 0, ← table'.printed_normal 0]
    constructor
    · intro same
      have same_rest : table.normal.printed 0 ++ [] = table'.normal.printed 0 ++ [] := by rw [same]
      exact (table.normal.printed_append_cancel 0 table'.normal
        (table.plain_normal readable.marked) (table'.plain_normal readable'.marked) same_rest).1
    · intro same
      rw [same]
  · intro v content made
    rw [Content.normal, Content.items_ofValue v made, normalContentOf]

def oneCell (name : String) (value : Value) (content : Content Value) : Table Value :=
  ⟨[(name, value)], [⟨[⟨[], content⟩]⟩]⟩

/-- A truth value, and a text cut into two and an empty one. -/
def cutCell : Table Value :=
  oneCell "x_y" (.bool true)
    (.sequence [.text "a", .sequence [.text "", .text "b"], .lineBreak, .font [] (.text "")])

def joinedCell : Table Value :=
  oneCell "x-y" (.str "true") (.sequence [.text "ab", .lineBreak, .font [] (.sequence [])])

/-- The same with the break in front of the text. -/
def movedCell : Table Value :=
  oneCell "x-y" (.str "true") (.sequence [.lineBreak, .text "ab", .font [] (.sequence [])])

theorem label_determines_oneCell :
    (cutCell.Readable ∧ joinedCell.Readable ∧ movedCell.Readable) ∧
      cutCell.normal = joinedCell.normal ∧ joinedCell.normal ≠ movedCell.normal := by
  have cut : cutCell.Readable := ⟨by decide +kernel, by decide +kernel⟩
  have joined : joinedCell.Readable := ⟨by decide +kernel, by decide +kernel⟩
  have moved : movedCell.Readable := ⟨by decide +kernel, by decide +kernel⟩
  refine ⟨⟨cut, joined, moved⟩, ?_, ?_⟩
  · exact (label_determines_table cut joined).1.1 (by decide +kernel)
  · exact fun same => absurd ((label_determines_table joined moved).1.2 same) (by decide +kernel)

end DotDoc.Html
