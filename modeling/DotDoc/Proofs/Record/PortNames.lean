import DotDoc.Proofs.Record.Written

/-!
# Port names between angle brackets

In a record label the names of the ports stand between angle brackets.  `bracketedNames` reads
them back from the left: a name begins behind an opening bracket and ends at the next closing one.
If no name has a closing bracket and no text an opening one, the names that are read are those of
the ports, in the order in which the cells are walked through.

So the check on the ports of a record can be told from its label.  It goes on while the names
differ and stops at the first that was read before.
-/

set_option autoImplicit false

namespace DotDoc

namespace Text

/-- The names in the rest of a text, behind the part of a name that has been read already. -/
def namesFrom : Option Text → Text → List Text
  | _, [] => []
  | none, c :: rest => if c = '<' then namesFrom (some []) rest else namesFrom none rest
  | some name, c :: rest =>
      if c = '>' then name :: namesFrom none rest else namesFrom (some (name ++ [c])) rest

/-- The names between angle brackets, read from the left. -/
def bracketedNames (t : Text) : List Text :=
  namesFrom none t

theorem bracketedNames_append {t : Text} (plain : t.lacks ['<'] = true) (rest : Text) :
    bracketedNames (t ++ rest) = bracketedNames rest := by
  have absent : '<' ∉ t := lacks_iff.1 plain '<' (List.mem_cons_self ..)
  clear plain
  induction t with
  | nil => rfl
  | cons c t ih =>
      rw [List.mem_cons, not_or] at absent
      have other : c ≠ '<' := Ne.symm absent.1
      rw [bracketedNames, List.cons_append, namesFrom, if_neg other]
      exact ih absent.2

theorem namesFrom_append {name : Text} (absent : '>' ∉ name) (front rest : Text) :
    namesFrom (some front) (name ++ '>' :: rest) = (front ++ name) :: bracketedNames rest := by
  induction name generalizing front with
  | nil => rw [List.nil_append, namesFrom, if_pos rfl, List.append_nil, bracketedNames]
  | cons c name ih =>
      rw [List.mem_cons, not_or] at absent
      have other : c ≠ '>' := Ne.symm absent.1
      rw [List.cons_append, namesFrom, if_neg other, ih absent.2, List.append_assoc,
        List.singleton_append]

theorem bracketedNames_bracketed {name : Text} (plain : name.lacks ['>'] = true) (rest : Text) :
    bracketedNames ('<' :: name ++ '>' :: rest) = name :: bracketedNames rest := by
  have absent : '>' ∉ name := lacks_iff.1 plain '>' (List.mem_cons_self ..)
  rw [bracketedNames, List.cons_append, namesFrom, if_pos rfl, namesFrom_append absent,
    List.nil_append]

theorem namesFrom_of_not_mem {t : Text} (absent : '>' ∉ t) (front : Text) :
    namesFrom (some front) t = [] := by
  induction t generalizing front with
  | nil => rfl
  | cons c t ih =>
      rw [List.mem_cons, not_or] at absent
      have other : c ≠ '>' := Ne.symm absent.1
      rw [namesFrom, if_neg other]
      exact ih absent.2 _

theorem bracketedNames_open {t : Text} (absent : '>' ∉ t) : bracketedNames ('<' :: t) = [] := by
  rw [bracketedNames, namesFrom, if_pos rfl]
  exact namesFrom_of_not_mem absent []

theorem lacks_singleton {c : Char} {t : Text} (absent : c ∉ t) : t.lacks [c] = true := by
  apply lacks_iff.2
  intro mark member
  rw [List.mem_singleton.1 member]
  exact absent

/-- A name that is read stands between brackets, behind a text in which the names before it are
read. -/
theorem exists_of_bracketedNames_eq (t : Text) {front rest : List Text} {name : Text}
    (read : bracketedNames t = front ++ name :: rest) :
    ∃ before after, t = before ++ ('<' :: name ++ '>' :: after) ∧
      bracketedNames before = front ∧ bracketedNames after = rest := by
  induction length : t.length using Nat.strongRecOn generalizing t front with
  | ind n ih =>
      subst length
      cases t with
      | nil => simp [bracketedNames, namesFrom] at read
      | cons c t =>
          by_cases opens : c = '<'
          · subst opens
            by_cases closes : '>' ∈ t
            · obtain ⟨first, later, rfl, absent⟩ := List.eq_append_cons_of_mem closes
              have plain := lacks_singleton absent
              rw [← List.cons_append, bracketedNames_bracketed plain] at read
              cases front with
              | nil =>
                  obtain ⟨rfl, rfl⟩ := List.cons.inj read
                  exact ⟨[], later, rfl, rfl, rfl⟩
              | cons other front =>
                  obtain ⟨rfl, read_later⟩ := List.cons.inj read
                  have shorter : later.length < ('<' :: (first ++ '>' :: later)).length := by
                    simp only [List.length_cons, List.length_append]
                    omega
                  obtain ⟨before, after, rfl, names_before, names_after⟩ :=
                    ih later.length shorter later read_later rfl
                  refine ⟨'<' :: first ++ '>' :: before, after, by simp, ?_, names_after⟩
                  rw [bracketedNames_bracketed plain, names_before]
            · rw [bracketedNames_open closes] at read
              simp at read
          · have skipped (s : Text) : bracketedNames (c :: s) = bracketedNames s := by
              rw [bracketedNames, namesFrom, if_neg opens, bracketedNames]
            rw [skipped] at read
            obtain ⟨before, after, rfl, names_before, names_after⟩ :=
              ih t.length (Nat.lt_succ_self _) t read rfl
            exact ⟨c :: before, after, rfl, (skipped before).trans names_before, names_after⟩

end Text

namespace Record

open Text (bracketedNames)

/-- Cells whose ports have the given names and are read back as these from their text. -/
def ReadAs (names : List String) (ports : List Value) (written : Text) : Prop :=
  ports = names.map Value.str ∧
    ∀ rest, bracketedNames (written ++ rest) = names.map String.toList ++ bracketedNames rest

theorem bracketedNames_behindCell (others : List (Cell Value)) (after : Text) :
    bracketedNames (behindCell others after)
      = bracketedNames (Text.joinWith separator (writtenCells others) ++ after) := by
  cases others with
  | nil => rfl
  | cons next later =>
      rw [behindCell, List.append_assoc]
      exact Text.bracketedNames_append rfl _

mutual

theorem Cell.readAs : (cell : Cell Value) →
    cell.spelled (Text.lacks ['>']) (Text.lacks ['<']) = true →
    ∃ names, ReadAs names cell.ports cell.written
  | .text _, spelled => by
      obtain ⟨s, rfl, plain⟩ := Cell.spelled_text_iff.1 spelled
      exact ⟨[], rfl, Text.bracketedNames_append plain⟩
  | .port _ _, spelled => by
      obtain ⟨n, s, rfl, rfl, name_plain, text_plain⟩ := Cell.spelled_port_iff.1 spelled
      refine ⟨[n], rfl, ?_⟩
      intro rest
      have parts : (Cell.port (.str n) (.str s)).written ++ rest
          = '<' :: n.toList ++ '>' :: ([' '] ++ (s.toList ++ rest)) := by
        simp [Cell.written_port]
      rw [parts, Text.bracketedNames_bracketed name_plain, Text.bracketedNames_append rfl,
        Text.bracketedNames_append text_plain]
      rfl
  | .group isColumn cells, spelled => by
      obtain ⟨names, ports, read⟩ := cells_readAs cells spelled
      refine ⟨names, ports, ?_⟩
      intro rest
      rw [Cell.written_group, List.append_assoc, List.append_assoc, Text.bracketedNames_append rfl,
        read, Text.bracketedNames_append rfl]

theorem cells_readAs : (cells : List (Cell Value)) →
    cellsSpelled (Text.lacks ['>']) (Text.lacks ['<']) cells = true →
    ∃ names, ReadAs names (portsOf cells) (Text.joinWith separator (writtenCells cells))
  | [], _ => ⟨[], rfl, fun _ => rfl⟩
  | cell :: others, spelled => by
      obtain ⟨spelled_first, spelled_others⟩ := Bool.and_eq_true_iff.1 spelled
      obtain ⟨names, ports, read⟩ := cell.readAs spelled_first
      obtain ⟨names', ports', read'⟩ := cells_readAs others spelled_others
      refine ⟨names ++ names', ?_, ?_⟩
      · rw [portsOf, ports, ports', List.map_append]
      · intro rest
        rw [joined_cons, read, bracketedNames_behindCell, read', List.map_append,
          List.append_assoc]

end

theorem bracketedNames_label {isColumn : Value} {cells : List (Cell Value)}
    (spelled : cellsSpelled (Text.lacks ['>']) (Text.lacks ['<']) cells = true) :
    ∃ (label : Text) (names : List String), groupLabel true isColumn cells = .ok label ∧
      portsOf cells = names.map Value.str ∧ bracketedNames label = names.map String.toList := by
  obtain ⟨names, ports, read⟩ := cells_readAs cells spelled
  refine ⟨_, names, groupLabel_of_spelled spelled, ports, ?_⟩
  cases column : isColumn.isTruthy with
  | true =>
      have read_closed := read [' ', '\x7d']
      have braces : bracketedNames [' ', '\x7d'] = [] := rfl
      rw [braces, List.append_nil] at read_closed
      rw [← read_closed]
      exact Text.bracketedNames_append (t := ['\x7b', ' ']) rfl _
  | false =>
      have read_bare := read []
      have nothing : bracketedNames [] = [] := rfl
      rw [nothing, List.append_nil, List.append_nil] at read_bare
      exact read_bare

/-! ## The check on names -/

theorem occursIn_strings (name : String) (seen : List String) :
    (Value.str name).occursIn (seen.map .str) = decide (name ∈ seen) := by
  induction seen with
  | nil => rfl
  | cons other seen ih =>
      rw [Value.occursIn] at ih ⊢
      rw [List.map_cons, List.any_cons, ih, Value.same_str_str]
      simp [eq_comm]

theorem fresh_cons {name : String} {names seen : List String} (new : name ∉ seen)
    (distinct : names.Nodup) (fresh : ∀ other ∈ names, other ∉ name :: seen) :
    (name :: names).Nodup ∧ ∀ other ∈ name :: names, other ∉ seen := by
  constructor
  · apply List.nodup_cons.2
    refine ⟨?_, distinct⟩
    intro member
    exact fresh name member (List.mem_cons_self ..)
  · intro other member
    rcases List.mem_cons.1 member with rfl | behind
    · exact new
    · intro seen_before
      exact fresh other behind (List.mem_cons_of_mem _ seen_before)

theorem checkNames_cases (names seen : List String) :
    (names.Nodup ∧ (∀ name ∈ names, name ∉ seen) ∧
      checkNames (seen.map .str) (names.map .str) = .ok ()) ∨
    ∃ front name rest, names = front ++ name :: rest ∧ front.Nodup ∧
      (∀ earlier ∈ front, earlier ∉ seen) ∧ (name ∈ front ∨ name ∈ seen) ∧
      checkNames (seen.map .str) (names.map .str) = .error (.duplicatePort (.str name)) := by
  induction names generalizing seen with
  | nil => exact .inl ⟨List.nodup_nil, by simp, rfl⟩
  | cons name rest ih =>
      have step : checkNames (seen.map .str) ((name :: rest).map .str)
          = if name ∈ seen then .error (.duplicatePort (.str name))
            else checkNames ((name :: seen).map .str) (rest.map .str) := by
        rw [List.map_cons, checkNames, occursIn_strings]
        simp [Value.isHashable]
      rw [step]
      by_cases repeated : name ∈ seen
      · refine .inr ⟨[], name, rest, rfl, List.nodup_nil, by simp, .inr repeated, ?_⟩
        rw [if_pos repeated]
      · rw [if_neg repeated]
        rcases ih (name :: seen) with
          ⟨distinct, fresh, passed⟩ | ⟨front, later, tail, rfl, distinct, fresh, known, stopped⟩
        · obtain ⟨all_distinct, all_fresh⟩ := fresh_cons repeated distinct fresh
          exact .inl ⟨all_distinct, all_fresh, passed⟩
        · obtain ⟨all_distinct, all_fresh⟩ := fresh_cons repeated distinct fresh
          refine .inr ⟨name :: front, later, tail, rfl, all_distinct, all_fresh, ?_, stopped⟩
          rcases known with inside | before
          · exact .inl (List.mem_cons_of_mem _ inside)
          · rcases List.mem_cons.1 before with rfl | seen_before
            · exact .inl (List.mem_cons_self ..)
            · exact .inr seen_before

/-- The name whose second occurrence comes first when a label is read from the left: it is written
behind a text in which distinct names are read, and is one of these. -/
def RepeatedFirst (name label : Text) : Prop :=
  ∃ before after, label = before ++ ('<' :: name ++ '>' :: after) ∧
    bracketedNames label = bracketedNames before ++ name :: bracketedNames after ∧
    (bracketedNames before).Nodup ∧ name ∈ bracketedNames before

theorem RepeatedFirst.not_nodup {name label : Text} (repeated : RepeatedFirst name label) :
    ¬(bracketedNames label).Nodup := by
  obtain ⟨before, after, _, read, _, inside⟩ := repeated
  rw [read]
  intro distinct
  exact (List.nodup_append.1 distinct).2.2 name inside name (List.mem_cons_self ..) rfl

theorem nodup_map_toList {names : List String} :
    (names.map String.toList).Nodup ↔ names.Nodup :=
  List.nodup_map_iff fun _ _ => String.toList_inj.1

theorem checkNames_of_read {label : Text} {names : List String}
    (read : bracketedNames label = names.map String.toList) :
    ((bracketedNames label).Nodup ∧ checkNames [] (names.map .str) = .ok ()) ∨
    ∃ name : String, RepeatedFirst name.toList label ∧
      checkNames [] (names.map .str) = .error (.duplicatePort (.str name)) := by
  rcases checkNames_cases names [] with
    ⟨distinct, _, passed⟩ | ⟨front, name, rest, rfl, distinct, _, known, stopped⟩
  · refine .inl ⟨?_, passed⟩
    rw [read]
    exact nodup_map_toList.2 distinct
  · have inside : name ∈ front := by simpa using known
    rw [List.map_append, List.map_cons] at read
    obtain ⟨before, after, rfl, names_before, names_after⟩ :=
      Text.exists_of_bracketedNames_eq label read
    refine .inr ⟨name, ⟨before, after, rfl, ?_, ?_, ?_⟩, stopped⟩
    · rw [read, names_before, names_after]
    · rw [names_before]
      exact nodup_map_toList.2 distinct
    · rw [names_before]
      exact List.mem_map_of_mem inside

theorem build_of_body {body : Value} {properties : Keywords} {taken : Body Value}
    (accepted : properties.clashesWith ["body"] = false)
    (of_body : Body.ofValue body = .ok taken) :
    build body properties
      = (do checkNames [] taken.ports; return ⟨taken, properties.entries⟩) := by
  rw [build, if_neg (by simp [accepted]), of_body]
  rfl

/-- A list or a group of cells has a label.  A record is built of it exactly when no name stands
between angle brackets in the label twice.  It then has this label, and its ports are the names in
the order of the label.  Otherwise it is refused for the name whose second occurrence comes
first. -/
theorem built_iff_names_distinct_in_label {body isColumn : Value} {cells : List (Cell Value)}
    {properties : Keywords} (accepted : properties.clashesWith ["body"] = false)
    (of_body : Body.ofValue body = .ok (.group isColumn cells))
    (spelled : cellsSpelled (Text.lacks ['>']) (Text.lacks ['<']) cells = true) :
    ∃ label, groupLabel true isColumn cells = .ok label ∧
      ((∃ name, build body properties = .error (.duplicatePort name)) ↔
        ¬(bracketedNames label).Nodup) ∧
      (∀ name, build body properties = .error (.duplicatePort name) →
        ∃ s, name = .str s ∧ RepeatedFirst s.toList label) ∧
      ((bracketedNames label).Nodup → ∃ record, build body properties = .ok record) ∧
      (∀ record, build body properties = .ok record →
        record.label = .ok label ∧ (bracketedNames label).Nodup ∧
        record.body.ports = (bracketedNames label).map fun name => .str (String.ofList name)) := by
  obtain ⟨label, names, labelled, ports, read⟩ := bracketedNames_label spelled
  have shown : names.map Value.str
      = (names.map String.toList).map fun name => .str (String.ofList name) := by
    simp [Function.comp_def]
  refine ⟨label, labelled, ?_⟩
  rw [build_of_body accepted of_body, Body.ports, ports]
  rcases checkNames_of_read read with ⟨distinct, passed⟩ | ⟨name, repeated, stopped⟩
  · rw [passed]
    refine ⟨?_, ?_, fun _ => ⟨_, rfl⟩, ?_⟩
    · simp [distinct, bind, Except.bind, pure, Except.pure]
    · rintro name ⟨⟩
    · rintro record ⟨⟩
      refine ⟨labelled, distinct, ?_⟩
      rw [read]
      exact ports.trans shown
  · rw [stopped]
    refine ⟨iff_of_true ⟨_, rfl⟩ repeated.not_nodup, ?_, ?_, ?_⟩
    · rintro _ ⟨⟩
      exact ⟨name, rfl, repeated⟩
    · intro distinct
      exact absurd distinct repeated.not_nodup
    · rintro record ⟨⟩

/-- Two ports named `a` around a column in which two ports are named `b`. -/
def crossedBody : Value :=
  .list [.tuple [.str "a", .str "x"],
    .recordCell (.group (.bool true) [.port (.str "b") (.str ""), .port (.str "b") (.str "y")]),
    .tuple [.str "a", .str "z"]]

def crossedCells : List (Cell Value) :=
  [.port (.str "a") (.str "x"),
    .group (.bool true) [.port (.str "b") (.str ""), .port (.str "b") (.str "y")],
    .port (.str "a") (.str "z")]

def bracketBody : Value :=
  .tuple [.tuple [.str "a<b", .str "x > y"], .str "z>", .tuple [.str "b", .str ""]]

def bracketCells : List (Cell Value) :=
  [.port (.str "a<b") (.str "x > y"), .text (.str "z>"), .port (.str "b") (.str "")]

theorem crossedBody_refused_bracketBody_built :
    Keywords.empty.clashesWith ["body"] = false ∧
      Body.ofValue crossedBody = .ok (.group (.bool false) crossedCells) ∧
      cellsSpelled (Text.lacks ['>']) (Text.lacks ['<']) crossedCells = true ∧
      build crossedBody .empty = .error (.duplicatePort (.str "b")) ∧
      RepeatedFirst "b".toList "<a> x | \x7b <b>  | <b> y \x7d | <a> z".toList ∧
      Body.ofValue bracketBody = .ok (.group (.bool false) bracketCells) ∧
      cellsSpelled (Text.lacks ['>']) (Text.lacks ['<']) bracketCells = true ∧
      ∃ record, build bracketBody .empty = .ok record ∧
        record.label = .ok "<a<b> x > y | z> | <b> ".toList ∧
        record.body.ports = [.str "a<b", .str "b"] := by
  have accepted : Keywords.empty.clashesWith ["body"] = false := rfl
  have crossed : Body.ofValue crossedBody = .ok (.group (.bool false) crossedCells) := rfl
  have crossed_spelled :
      cellsSpelled (Text.lacks ['>']) (Text.lacks ['<']) crossedCells = true := rfl
  have bracket : Body.ofValue bracketBody = .ok (.group (.bool false) bracketCells) := rfl
  have bracket_spelled :
      cellsSpelled (Text.lacks ['>']) (Text.lacks ['<']) bracketCells = true := rfl
  have refused : build crossedBody .empty = .error (.duplicatePort (.str "b")) := rfl
  obtain ⟨_, ⟨⟩, _, stops, _, _⟩ :=
    built_iff_names_distinct_in_label accepted crossed crossed_spelled
  obtain ⟨_, ⟨⟩, _, _, builds, tells⟩ :=
    built_iff_names_distinct_in_label accepted bracket bracket_spelled
  obtain ⟨_, ⟨⟩, repeated⟩ := stops _ refused
  obtain ⟨record, built⟩ := builds (by decide)
  obtain ⟨labelled, _, ports⟩ := tells record built
  exact ⟨accepted, crossed, crossed_spelled, refused, repeated, bracket, bracket_spelled, record,
    built, labelled, ports⟩

end Record
end DotDoc
