import DotDoc.Proofs.Graph.Listing
import DotDoc.Proofs.Value.Ids

/-!
# Statements are told apart by their texts

A statement sets an attribute, lists the attributes of a subject, or opens or closes a block.  Its
text has a front, which names what it is about, and a back: nothing, or something that begins with
an equals sign, a bracket or a brace.  No front holds one of these, so the text determines both
parts, the back tells the sort of the statement, and the rest of it follows.  A line is a statement
behind the margin of its depth, and the margin ends where the statement begins.
-/

set_option autoImplicit false

namespace DotDoc

/-- An end of an edge as it is written: the id of a vertex, and a port if one is named. -/
structure WrittenEnd where
  vertex : Nat
  id : Text
  port : Option Text

namespace WrittenEnd

def portSuffix : Option Text → Text
  | none => []
  | some port => ':' :: port

def text (e : WrittenEnd) : Text :=
  'v' :: e.id ++ portSuffix e.port

def Plain (e : WrittenEnd) : Prop :=
  ∀ port ∈ e.port, Text.isIdentifier port = true

instance (e : WrittenEnd) : Decidable e.Plain :=
  inferInstanceAs (Decidable (∀ port ∈ e.port, _))

def Named (e : WrittenEnd) : Prop :=
  ∃ id : Value, id.integer? = some (e.vertex : Int) ∧ e.id = id.display

theorem portSuffix_injective : Function.Injective portSuffix := by
  intro first second same
  cases first with
  | none => cases second with
    | none => rfl
    | some port => cases same
  | some port => cases second with
    | none => cases same
    | some other => rw [(List.cons.inj same).2]

theorem Named.id_chars {e : WrittenEnd} (named : e.Named) :
    ∀ c ∈ e.id, Value.isIdChar c = true := by
  obtain ⟨id, number, text⟩ := named
  rw [text]
  exact Value.isIdChar_of_mem_display number

theorem text_inj {e f : WrittenEnd} (e_named : e.Named) (f_named : f.Named)
    (same : e.text = f.text) : e = f := by
  have behind : e.id ++ portSuffix e.port = f.id ++ portSuffix f.port := by
    simpa [text] using same
  have stop (port : Option Text) :
      ∀ c, (portSuffix port).head? = some c → Value.isIdChar c = false := by
    intro c first
    cases port with
    | none => cases first
    | some port =>
        obtain rfl : ':' = c := by simpa [portSuffix] using first
        decide
  obtain ⟨ids, suffixes⟩ := append_cancel_of_class e_named.id_chars f_named.id_chars
    (stop e.port) (stop f.port) behind
  have vertices : e.vertex = f.vertex := by
    obtain ⟨id, number, id_text⟩ := e_named
    obtain ⟨other, other_number, other_text⟩ := f_named
    have texts : id.display = other.display := by rw [← id_text, ids, other_text]
    exact Int.ofNat.inj (Value.number_eq_of_display number other_number texts)
  have ports := portSuffix_injective suffixes
  cases e
  cases f
  simp only at vertices ids ports
  rw [vertices, ids, ports]

end WrittenEnd

/-- What a statement can list attributes for. -/
inductive Subject where
  | vertexDefaults
  | edgeDefaults
  | vertex (id : Nat)
  | edge (tail head : WrittenEnd)

namespace Subject

def text : Subject → Text
  | vertexDefaults => "node".toList
  | edgeDefaults => "edge".toList
  | vertex id => 'v' :: Text.ofNat id
  | edge tail head => tail.text ++ " -> ".toList ++ head.text

def Plain : Subject → Prop
  | edge tail head => (tail.Plain ∧ tail.Named) ∧ head.Plain ∧ head.Named
  | _ => True

/-- The characters of subjects and of names of blocks. -/
def isChar (c : Char) : Bool :=
  Text.isWordChar c || Value.isIdChar c || c = ' ' || c = ':' || c = '>'

theorem isChar_of_isWordChar {c : Char} (word : Text.isWordChar c = true) : isChar c = true := by
  simp [isChar, word]

theorem isWordChar_of_isDigit {c : Char} (digit : c.isDigit = true) :
    Text.isWordChar c = true := by
  simp [Text.isWordChar, Char.isAlphanum, digit]

theorem isWordChar_of_mem_ofNat {n : Nat} {c : Char} (member : c ∈ Text.ofNat n) :
    Text.isWordChar c = true :=
  isWordChar_of_isDigit (Text.isDigit_of_mem_ofNat member)

theorem end_chars {e : WrittenEnd} (plain : e.Plain) (named : e.Named) :
    ∀ c ∈ e.text, Text.isWordChar c = true ∨ Value.isIdChar c = true ∨ c = ':' := by
  have id_chars := named.id_chars
  obtain ⟨n, id, port⟩ := e
  intro c member
  simp only [WrittenEnd.text, List.cons_append, List.mem_cons, List.mem_append] at member
  rcases member with rfl | in_id | suffix
  · exact .inl (by decide)
  · exact .inr (.inl (id_chars c in_id))
  · cases port with
    | none => cases suffix
    | some port =>
        rcases List.mem_cons.1 suffix with rfl | inside
        · exact .inr (.inr rfl)
        · exact .inl (Text.isWordChar_of_isIdentifier (plain port rfl) c inside)

theorem end_without_space {e : WrittenEnd} (plain : e.Plain) (named : e.Named) :
    ∀ c ∈ e.text, (c != ' ') = true := by
  intro c member
  have other : c ≠ ' ' := by
    rintro rfl
    rcases end_chars plain named ' ' member with word | id_char | colon
    · revert word
      decide
    · revert id_char
      decide
    · cases colon
  simpa using other

theorem isChar_of_mem_text {s : Subject} (plain : s.Plain) : ∀ c ∈ s.text, isChar c = true := by
  intro c member
  cases s with
  | vertexDefaults =>
      have all : "node".toList.all isChar = true := by decide
      exact List.all_eq_true.1 all c member
  | edgeDefaults =>
      have all : "edge".toList.all isChar = true := by decide
      exact List.all_eq_true.1 all c member
  | vertex id =>
      rcases List.mem_cons.1 member with rfl | digit
      · decide
      · exact isChar_of_isWordChar (isWordChar_of_mem_ofNat digit)
  | edge tail head =>
      have in_end {e : WrittenEnd} (e_plain : e.Plain ∧ e.Named) (inside : c ∈ e.text) :
          isChar c = true := by
        rcases end_chars e_plain.1 e_plain.2 c inside with word | id_char | colon
        · exact isChar_of_isWordChar word
        · simp [isChar, id_char]
        · simp [isChar, colon]
      simp only [text, List.mem_append] at member
      rcases member with (in_tail | arrow) | in_head
      · exact in_end plain.1 in_tail
      · have all : " -> ".toList.all isChar = true := by decide
        exact List.all_eq_true.1 all c arrow
      · exact in_end plain.2 in_head

theorem edge_text_inj {tail head tail' head' : WrittenEnd} (plain : (edge tail head).Plain)
    (plain' : (edge tail' head').Plain)
    (same : (edge tail head).text = (edge tail' head').text) :
    tail = tail' ∧ head = head' := by
  obtain ⟨⟨tail_plain, tail_named⟩, -, head_named⟩ := plain
  obtain ⟨⟨tail_plain', tail_named'⟩, -, head_named'⟩ := plain'
  have cut : tail.text ++ (" -> ".toList ++ head.text)
      = tail'.text ++ (" -> ".toList ++ head'.text) := by
    simpa only [text, List.append_assoc] using same
  have stop (later : Text) :
      ∀ c, (" -> ".toList ++ later).head? = some c → (c != ' ') = false := by
    intro c first
    obtain rfl : ' ' = c := by simpa using first
    rfl
  obtain ⟨tails, behind⟩ := append_cancel_of_class (end_without_space tail_plain tail_named)
    (end_without_space tail_plain' tail_named') (stop _) (stop _) cut
  exact ⟨WrittenEnd.text_inj tail_named tail_named' tails,
    WrittenEnd.text_inj head_named head_named' (List.append_cancel_left behind)⟩

theorem vertex_text_ne_edge_text (id : Nat) (tail head : WrittenEnd) :
    (vertex id).text ≠ (edge tail head).text := by
  intro same
  have space : ' ' ∈ (vertex id).text := by rw [same]; simp [text]
  rcases List.mem_cons.1 space with first | digit
  · exact absurd first (by decide)
  · exact absurd (Text.isDigit_of_mem_ofNat digit) (by decide)

theorem text_inj {s t : Subject} (s_plain : s.Plain) (t_plain : t.Plain)
    (same : s.text = t.text) : s = t := by
  cases s with
  | vertexDefaults => cases t with
    | vertexDefaults => rfl
    | _ => simp [text, WrittenEnd.text] at same
  | edgeDefaults => cases t with
    | edgeDefaults => rfl
    | _ => simp [text, WrittenEnd.text] at same
  | vertex id => cases t with
    | vertex other => rw [Text.ofNat_injective (List.cons.inj same).2]
    | edge tail head => exact absurd same (vertex_text_ne_edge_text id tail head)
    | _ => simp [text] at same
  | edge tail head => cases t with
    | vertex other => exact absurd same.symm (vertex_text_ne_edge_text other tail head)
    | edge tail' head' =>
        obtain ⟨rfl, rfl⟩ := edge_text_inj s_plain t_plain same
        rfl
    | _ => simp [text, WrittenEnd.text] at same

theorem exists_cons_text (s : Subject) : ∃ c rest, s.text = c :: rest ∧ c ≠ ' ' := by
  cases s with
  | vertexDefaults => exact ⟨'n', "ode".toList, rfl, by decide⟩
  | edgeDefaults => exact ⟨'e', "dge".toList, rfl, by decide⟩
  | vertex id => exact ⟨'v', Text.ofNat id, rfl, by decide⟩
  | edge tail head => exact ⟨'v', _, rfl, by decide⟩

end Subject

/-! ## Statements -/

/-- A statement inside the braces of a document. -/
inductive Statement where
  | setting (entry : Text × Text)
  | element (subject : Subject) (attrs : Listing)
  | opening (name : Text)
  | closing

namespace Statement

def blockOpening : Text := "subgraph ".toList

def front : Statement → Text
  | setting entry => entry.1
  | element subject attrs => subject.text ++ if attrs = [] then [] else [' ']
  | opening name => blockOpening ++ name ++ [' ']
  | closing => []

def back : Statement → Text
  | setting entry => '=' :: '"' :: entry.2 ++ ['"']
  | element _ attrs => attrs.text
  | opening _ => ['\x7b']
  | closing => ['\x7d']

def text (s : Statement) : Text :=
  s.front ++ s.back

def Plain : Statement → Prop
  | setting entry => Listing.PlainEntry entry
  | element subject attrs => subject.Plain ∧ attrs.Plain
  | opening name => ∀ c ∈ name, Subject.isChar c = true
  | closing => True

theorem front_chars {s : Statement} (plain : s.Plain) :
    ∀ c ∈ s.front, Subject.isChar c = true := by
  intro c member
  cases s with
  | setting entry =>
      exact Subject.isChar_of_isWordChar
        (Text.isWordChar_of_isIdentifier plain.name c member)
  | element subject attrs =>
      simp only [front, List.mem_append] at member
      rcases member with in_subject | in_space
      · exact Subject.isChar_of_mem_text plain.1 c in_subject
      · have space : c = ' ' := by
          split at in_space
          · cases in_space
          · exact List.mem_singleton.1 in_space
        simp [Subject.isChar, space]
  | opening name =>
      have around : (blockOpening ++ [' ']).all Subject.isChar = true := by decide
      simp only [front, List.mem_append] at member
      rcases member with (in_word | in_name) | in_space
      · exact List.all_eq_true.1 around c (List.mem_append_left _ in_word)
      · exact plain c in_name
      · exact List.all_eq_true.1 around c (List.mem_append_right _ in_space)
  | closing => cases member

theorem back_stops (s : Statement) :
    ∀ c, s.back.head? = some c → Subject.isChar c = false := by
  intro c first
  cases s with
  | element subject attrs =>
      cases attrs with
      | nil => cases first
      | cons entry rest =>
          obtain rfl : '[' = c := by simpa [back, Listing.text] using first
          decide
  | _ =>
      obtain rfl := Option.some.inj first
      decide

theorem element_back_ne {subject : Subject} {attrs : Listing} {s : Statement}
    (other : ∀ t listed, s ≠ element t listed) : (element subject attrs).back ≠ s.back := by
  intro same
  cases s with
  | element t listed => exact other t listed rfl
  | _ => cases attrs <;> simp [back, Listing.text] at same

theorem text_inj {s t : Statement} (s_plain : s.Plain) (t_plain : t.Plain)
    (same : s.text = t.text) : s = t := by
  obtain ⟨fronts, backs⟩ := append_cancel_of_class (front_chars s_plain) (front_chars t_plain)
    (back_stops s) (back_stops t) same
  -- the backs of two sorts begin differently, so only statements of one sort are left
  cases s with
  | setting entry => cases t with
    | setting other =>
        have texts : entry.2 = other.2 := by simpa [back] using backs
        rw [Prod.ext fronts texts]
    | element subject attrs => exact absurd backs.symm (element_back_ne nofun)
    | _ => simp [back] at backs
  | element subject attrs => cases t with
    | element other listed =>
        obtain rfl := Listing.text_inj s_plain.2 t_plain.2 backs
        rw [front, front] at fronts
        have subjects : subject.text = other.text := List.append_cancel_right fronts
        rw [Subject.text_inj s_plain.1 t_plain.1 subjects]
    | _ => exact absurd backs (element_back_ne nofun)
  | opening name => cases t with
    | opening other =>
        have names : name = other := by simpa [front] using fronts
        rw [names]
    | element subject attrs => exact absurd backs.symm (element_back_ne nofun)
    | _ => simp [back] at backs
  | closing => cases t with
    | closing => rfl
    | element subject attrs => exact absurd backs.symm (element_back_ne nofun)
    | _ => simp [back] at backs

theorem not_mem_text {s : Statement} (plain : s.Plain) : '\n' ∉ s.text := by
  have not_in_front : '\n' ∉ s.front := by
    intro feed
    have allowed := front_chars plain '\n' feed
    revert allowed
    decide
  have not_in_back : '\n' ∉ s.back := by
    cases s with
    | setting entry => simp [back, plain.one_line]
    | element subject attrs => exact Listing.not_mem_text plain.2
    | opening name => simp [back]
    | closing => simp [back]
  simp [text, not_in_front, not_in_back]

theorem exists_cons_text {s : Statement} (plain : s.Plain) :
    ∃ c rest, s.text = c :: rest ∧ c ≠ ' ' := by
  cases s with
  | setting entry =>
      obtain ⟨c, rest, name, word⟩ := Text.exists_cons_of_isIdentifier plain.name
      refine ⟨c, rest ++ (setting entry).back, by simp [text, front, name], ?_⟩
      rintro rfl
      revert word
      decide
  | element subject attrs =>
      obtain ⟨c, rest, subject_text, other⟩ := subject.exists_cons_text
      refine ⟨c, rest ++ (if attrs = [] then [] else [' ']) ++ attrs.text, ?_, other⟩
      rw [text, front, subject_text, List.cons_append, List.cons_append]
      rfl
  | opening name => exact ⟨'s', _, rfl, by decide⟩
  | closing => exact ⟨'\x7d', [], rfl, by decide⟩

end Statement

structure Line where
  depth : Nat
  statement : Statement

namespace Line

def text (l : Line) : Text :=
  Text.margin l.depth ++ l.statement.text

theorem mem_margin {depth : Nat} {c : Char} (member : c ∈ Text.margin depth) : c = ' ' := by
  induction depth with
  | zero => cases member
  | succ depth ih =>
      rw [Text.margin_succ] at member
      rcases List.mem_append.1 member with unit | deeper
      · simpa [Text.indentUnit] using unit
      · exact ih deeper

theorem length_margin (depth : Nat) : (Text.margin depth).length = 2 * depth := by
  induction depth with
  | zero => rfl
  | succ depth ih =>
      rw [Text.margin_succ, List.length_append, ih]
      simp only [Text.indentUnit, List.length_cons, List.length_nil]
      omega

theorem text_inj {l m : Line} (l_plain : l.statement.Plain) (m_plain : m.statement.Plain)
    (same : l.text = m.text) : l = m := by
  have spaces (depth : Nat) : ∀ c ∈ Text.margin depth, (c == ' ') = true := by
    intro c member
    simp [mem_margin member]
  have stop {s : Statement} (plain : s.Plain) :
      ∀ c, s.text.head? = some c → (c == ' ') = false := by
    intro c first
    obtain ⟨d, rest, statement_text, other⟩ := Statement.exists_cons_text plain
    rw [statement_text] at first
    obtain rfl : d = c := by simpa using first
    simpa using other
  obtain ⟨margins, statements⟩ := append_cancel_of_class (spaces l.depth) (spaces m.depth)
    (stop l_plain) (stop m_plain) same
  have widths := congrArg List.length margins
  rw [length_margin, length_margin] at widths
  have depths : l.depth = m.depth := by omega
  have same_statement := Statement.text_inj l_plain m_plain statements
  cases l with
  | mk depth statement =>
      cases m with
      | mk depth' statement' =>
          dsimp only at depths same_statement
          rw [depths, same_statement]

theorem not_mem_text {l : Line} (plain : l.statement.Plain) : '\n' ∉ l.text := by
  simp [text, Statement.not_mem_text plain]

theorem text_ne_nil {l : Line} (plain : l.statement.Plain) : l.text ≠ [] := by
  obtain ⟨c, rest, statement_text, _⟩ := Statement.exists_cons_text plain
  simp [text, statement_text]

theorem texts_inj {lines others : List Line} (plain : ∀ l ∈ lines, l.statement.Plain)
    (others_plain : ∀ l ∈ others, l.statement.Plain)
    (same : lines.map text = others.map text) : lines = others := by
  induction lines generalizing others with
  | nil => exact (List.map_eq_nil_iff.1 same.symm).symm
  | cons line rest ih =>
      cases others with
      | nil => cases same
      | cons other later =>
          obtain ⟨texts, rests⟩ := List.cons.inj same
          have first := text_inj (plain line (List.mem_cons_self ..))
            (others_plain other (List.mem_cons_self ..)) texts
          have rest_plain : ∀ l ∈ rest, l.statement.Plain :=
            fun l member => plain l (List.mem_cons_of_mem _ member)
          have later_plain : ∀ l ∈ later, l.statement.Plain :=
            fun l member => others_plain l (List.mem_cons_of_mem _ member)
          rw [first, ih rest_plain later_plain rests]

end Line
end DotDoc
