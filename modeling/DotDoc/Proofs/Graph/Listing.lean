import DotDoc.Proofs.Graph.Verbatim
import DotDoc.Proofs.Text.Statements

/-!
# Written attribute lists are read in one way

A listing is an attribute list as it is written: each name with the escaped text of its value.  A
listing is plain when its names are identifiers and its texts are closed by the quote behind them.
Then an equals sign ends every name, and a quote every text, so an entry, and with it the whole
list up to its closing bracket, is cut out of a text in one way only.
-/

set_option autoImplicit false

namespace DotDoc

namespace Text

def isWordChar (c : Char) : Bool :=
  c.isAlphanum || c = '_'

/-- Letters, digits and underscores, at least one, and no digit in front. -/
def isIdentifier : Text → Bool
  | [] => false
  | c :: rest => !c.isDigit && (c :: rest).all isWordChar

theorem isWordChar_of_isIdentifier {t : Text} (name : isIdentifier t = true) :
    ∀ c ∈ t, isWordChar c = true := by
  cases t with
  | nil => intro c member; cases member
  | cons first rest =>
      have whole : (first :: rest).all isWordChar = true := (Bool.and_eq_true_iff.1 name).2
      exact List.all_eq_true.1 whole

theorem exists_cons_of_isIdentifier {t : Text} (name : isIdentifier t = true) :
    ∃ c rest, t = c :: rest ∧ isWordChar c = true := by
  cases t with
  | nil => cases name
  | cons c rest =>
      exact ⟨c, rest, rfl, isWordChar_of_isIdentifier name c (List.mem_cons_self ..)⟩

/-- The quote behind the text is the first that is not escaped. -/
def Closed (t : Text) : Prop :=
  QuotesEscaped false t ∧ oddAfter false t = false

theorem closed_escape {t : Text} (one_line : '\n' ∉ t) : Closed (escape t) := by
  refine ⟨quotesEscaped_escapeFrom false t, ?_⟩
  rw [← Bool.not_eq_true, escape, oddAfter_escapeFrom]
  rintro ⟨head, rfl, -⟩
  simp at one_line

theorem closed_append_cancel {t u rest rest' : Text} (t_closed : Closed t) (u_closed : Closed u)
    (same : t ++ '"' :: rest = u ++ '"' :: rest') : t = u ∧ rest = rest' := by
  have read := (readToQuote_eq_some_iff false t rest).2 t_closed
  have read' := (readToQuote_eq_some_iff false u rest').2 u_closed
  rw [same, read'] at read
  have parts : (u, rest') = (t, rest) := Option.some.inj read
  exact ⟨(congrArg Prod.fst parts).symm, (congrArg Prod.snd parts).symm⟩

end Text

abbrev Listing := List (Text × Text)

namespace Listing

def entryText (entry : Text × Text) : Text :=
  entry.1 ++ '=' :: '"' :: entry.2 ++ ['"']

/-- The name is an identifier, and the text stands on one line and ends at the quote behind it. -/
structure PlainEntry (entry : Text × Text) : Prop where
  name : Text.isIdentifier entry.1 = true
  one_line : '\n' ∉ entry.2
  closed : Text.Closed entry.2

def Plain (l : Listing) : Prop :=
  ∀ entry ∈ l, PlainEntry entry

theorem PlainEntry.not_mem {entry : Text × Text} (plain : PlainEntry entry) :
    '\n' ∉ entryText entry := by
  have not_in_name : '\n' ∉ entry.1 := by
    intro feed
    have word := Text.isWordChar_of_isIdentifier plain.name '\n' feed
    revert word
    decide
  simp [entryText, not_in_name, plain.one_line]

theorem entry_append_cancel {entry other : Text × Text} {rest rest' : Text}
    (plain : PlainEntry entry) (other_plain : PlainEntry other)
    (same : entryText entry ++ rest = entryText other ++ rest') :
    entry = other ∧ rest = rest' := by
  have cut : entry.1 ++ '=' :: '"' :: (entry.2 ++ '"' :: rest)
      = other.1 ++ '=' :: '"' :: (other.2 ++ '"' :: rest') := by
    simpa [entryText] using same
  have stop (later : Text) : ∀ c, ('=' :: later).head? = some c → Text.isWordChar c = false := by
    intro c first
    obtain rfl : '=' = c := by simpa using first
    decide
  obtain ⟨names, behind⟩ := append_cancel_of_class
    (Text.isWordChar_of_isIdentifier plain.name)
    (Text.isWordChar_of_isIdentifier other_plain.name) (stop _) (stop _) cut
  have texts : entry.2 ++ '"' :: rest = other.2 ++ '"' :: rest' := by simpa using behind
  obtain ⟨same_text, rests⟩ := Text.closed_append_cancel plain.closed other_plain.closed texts
  exact ⟨Prod.ext names same_text, rests⟩

/-- What follows an entry: the later entries, each behind a comma, and the closing bracket. -/
def laterText : Listing → Text
  | [] => [']']
  | entry :: rest => ',' :: entryText entry ++ laterText rest

def text : Listing → Text
  | [] => []
  | entry :: rest => '[' :: entryText entry ++ laterText rest

theorem joinWith_entryText (entry : Text × Text) (rest : Listing) :
    Text.joinWith [','] ((entry :: rest).map entryText) ++ [']']
      = entryText entry ++ laterText rest := by
  induction rest generalizing entry with
  | nil => simp [laterText]
  | cons next later ih =>
      have joined := ih next
      simp only [List.map_cons] at joined
      simp only [List.map_cons, Text.joinWith_cons_cons, List.append_assoc, joined, laterText,
        List.cons_append, List.nil_append]

theorem laterText_inj {l m : Listing} (l_plain : l.Plain) (m_plain : m.Plain)
    (same : laterText l = laterText m) : l = m := by
  induction l generalizing m with
  | nil =>
      cases m with
      | nil => rfl
      | cons other later => simp [laterText] at same
  | cons entry rest ih =>
      cases m with
      | nil => simp [laterText] at same
      | cons other later =>
          have behind_comma : entryText entry ++ laterText rest
              = entryText other ++ laterText later := by
            simpa [laterText] using same
          obtain ⟨rfl, rests⟩ := entry_append_cancel (l_plain entry (List.mem_cons_self ..))
            (m_plain other (List.mem_cons_self ..)) behind_comma
          have l_rest : Plain rest := fun e member => l_plain e (List.mem_cons_of_mem _ member)
          have m_rest : Plain later := fun e member => m_plain e (List.mem_cons_of_mem _ member)
          rw [ih l_rest m_rest rests]

theorem text_inj {l m : Listing} (l_plain : l.Plain) (m_plain : m.Plain)
    (same : l.text = m.text) : l = m := by
  cases l with
  | nil =>
      cases m with
      | nil => rfl
      | cons other later => simp [text] at same
  | cons entry rest =>
      cases m with
      | nil => simp [text] at same
      | cons other later =>
          have behind_comma : laterText (entry :: rest) = laterText (other :: later) := by
            simpa [text, laterText] using same
          exact laterText_inj l_plain m_plain behind_comma

theorem not_mem_laterText {l : Listing} (plain : l.Plain) : '\n' ∉ l.laterText := by
  induction l with
  | nil => decide
  | cons entry rest ih =>
      have here : '\n' ∉ entryText entry := (plain entry (List.mem_cons_self ..)).not_mem
      have later := ih fun e member => plain e (List.mem_cons_of_mem _ member)
      simp [laterText, here, later]

theorem not_mem_text {l : Listing} (plain : l.Plain) : '\n' ∉ l.text := by
  cases l with
  | nil => simp [text]
  | cons entry rest =>
      have behind_comma := not_mem_laterText plain
      simp only [laterText, List.cons_append, List.mem_cons, not_or] at behind_comma
      simpa [text] using behind_comma.2

end Listing

namespace AttrList

def listing (l : AttrList) : Listing :=
  l.entries.map fun entry => (entry.1.toList, Text.escape entry.2.formatted)

/-- Every key is an identifier, no value has a line feed, and no label opens a table. -/
def Plain (l : AttrList) : Prop :=
  ∀ entry ∈ l.entries, Text.isIdentifier entry.1.toList = true ∧ '\n' ∉ entry.2.formatted ∧
    ¬Graph.Bracketed entry.1 entry.2

instance (l : AttrList) : Decidable l.Plain :=
  inferInstanceAs (Decidable (∀ entry ∈ l.entries, _))

variable {l : AttrList}

theorem Plain.listing (plain : l.Plain) : l.listing.Plain := by
  intro entry member
  obtain ⟨held, stored, rfl⟩ := List.mem_map.1 member
  obtain ⟨name, one_line, -⟩ := plain held stored
  have still_one_line : '\n' ∉ Text.escape held.2.formatted := by
    rwa [Text.mem_escape_iff (by decide)]
  exact ⟨name, still_one_line, Text.closed_escape one_line⟩

theorem Plain.written_eq (plain : l.Plain) :
    (l.texts.map fun entry => writtenAttribute entry.1 entry.2)
      = l.listing.map Listing.entryText := by
  rw [texts, AttrList.listing, List.map_map, List.map_map]
  refine List.map_congr_left fun entry stored => ?_
  have between_quotes :=
    Graph.writtenAttribute_of_not_bracketed (plain entry stored).2.2
  simpa [Listing.entryText] using between_quotes

theorem Plain.withList_eq (plain : l.Plain) (word : Text) :
    withList word l.texts
      = word ++ (if l.listing = [] then [] else [' ']) ++ l.listing.text := by
  have written := plain.written_eq
  cases texts : l.texts with
  | nil =>
      have none_listed : l.listing = [] := by simpa [texts] using written.symm
      simp [withList, writtenList, none_listed, Listing.text]
  | cons first rest =>
      cases listed : l.listing with
      | nil => rw [texts, listed] at written; cases written
      | cons entry later =>
          rw [listed, texts] at written
          have joined := Listing.joinWith_entryText entry later
          simp only [List.map_cons] at joined
          simp [withList, writtenList, written, Listing.text, joined]

end AttrList
end DotDoc
