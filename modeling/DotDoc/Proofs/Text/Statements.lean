import DotDoc.Graph.Document
import DotDoc.Proofs.Text.Indentation

/-!
# The statements of a document

Blank lines only separate the sections of a document.  Its statements are the lines that are left
without them, and joining lines or sections joins their statements.  Two texts cut at the first
character that is not of a class agree on both sides of the cut.
-/

set_option autoImplicit false

namespace DotDoc

theorem append_cancel_of_class {α : Type} {p : α → Bool} {front front' rest rest' : List α}
    (inside : ∀ a ∈ front, p a = true) (inside' : ∀ a ∈ front', p a = true)
    (stop : ∀ a, rest.head? = some a → p a = false)
    (stop' : ∀ a, rest'.head? = some a → p a = false)
    (same : front ++ rest = front' ++ rest') : front = front' ∧ rest = rest' := by
  have cut {l r : List α} (l_inside : ∀ a ∈ l, p a = true)
      (r_stop : ∀ a, r.head? = some a → p a = false) : (l ++ r).takeWhile p = l := by
    rw [List.takeWhile_append_of_pos l_inside]
    cases r with
    | nil => simp
    | cons a r => simp [r_stop a rfl]
  have fronts : front = front' := by
    rw [← cut inside stop, same, cut inside' stop']
  subst fronts
  exact ⟨rfl, List.append_cancel_left same⟩

namespace Text

/-- The lines of a text without the empty ones. -/
def statements (t : Text) : List Text :=
  (t.splitOn '\n').filter fun line => !line.isEmpty

@[simp] theorem statements_nil : statements [] = [] := rfl

theorem statements_append_feed (first second : Text) :
    statements (first ++ '\n' :: second) = statements first ++ statements second := by
  have split : (first ++ '\n' :: second).splitOn '\n'
      = first.splitOn '\n' ++ second.splitOn '\n' :=
    List.splitOnP_append_cons first second (by decide)
  rw [statements, split, List.filter_append]
  rfl

theorem statements_of_line {t : Text} (one_line : '\n' ∉ t) (nonempty : t ≠ []) :
    statements t = [t] := by
  have whole : t.splitOn '\n' = [t] := by
    refine List.splitOnP_eq_singleton fun c member => ?_
    have other : c ≠ '\n' := fun feed => one_line (feed ▸ member)
    simpa using other
  rw [statements, whole]
  simp [nonempty]

theorem statements_joinWith {separator : Text} (feeds : separator = ['\n'] ∨
    separator = ['\n', '\n']) (items : List Text) :
    statements (joinWith separator items) = items.flatMap statements := by
  induction items with
  | nil => rfl
  | cons item rest ih =>
      cases rest with
      | nil => simp
      | cons next later =>
          rw [joinWith_cons_cons, List.flatMap_cons, ← ih]
          rcases feeds with rfl | rfl
          · rw [List.append_assoc, List.singleton_append, statements_append_feed]
          · have two_feeds (rest : Text) : item ++ ['\n', '\n'] ++ rest
                = item ++ '\n' :: ([] ++ '\n' :: rest) := by simp
            rw [two_feeds, statements_append_feed, statements_append_feed, statements_nil,
              List.nil_append]

theorem statements_joinLines (lines : List Text) :
    statements (joinLines lines) = lines.flatMap statements :=
  statements_joinWith (.inl rfl) lines

theorem statements_joinSections (sections : List Text) :
    statements (joinSections sections) = sections.flatMap statements :=
  statements_joinWith (.inr rfl) sections

theorem indent_append_feed (first second : Text) :
    indent (first ++ '\n' :: second) = indent first ++ '\n' :: indent second := by
  simp [indent, indentBy_eq, hang_cons]

theorem indent_joinLines {lines : List Text} (nonempty : lines ≠ []) :
    indent (joinLines lines) = joinLines (lines.map indent) := by
  induction lines with
  | nil => exact absurd rfl nonempty
  | cons line rest ih =>
      cases rest with
      | nil => rfl
      | cons next later =>
          have rest_indented := ih (by simp)
          simp only [joinLines, joinWith_cons_cons, List.map_cons, List.append_assoc,
            List.singleton_append] at rest_indented ⊢
          rw [indent_append_feed, rest_indented]

theorem flatMap_statements_sectionOf (lines : List Text) :
    (sectionOf lines).flatMap statements = lines.flatMap statements := by
  cases lines with
  | nil => rfl
  | cons line rest =>
      have one : sectionOf (line :: rest) = [joinLines (line :: rest)] := rfl
      rw [one, List.flatMap_singleton, statements_joinLines]

theorem flatMap_statements_indent_sectionOf (lines : List Text) :
    ((sectionOf lines).map indent).flatMap statements
      = (lines.map indent).flatMap statements := by
  cases lines with
  | nil => rfl
  | cons line rest =>
      have one : (sectionOf (line :: rest)).map indent = [indent (joinLines (line :: rest))] := rfl
      rw [one, List.flatMap_singleton, indent_joinLines (by simp), statements_joinLines]

theorem flatMap_statements_of_lines {lines : List Text}
    (plain : ∀ line ∈ lines, '\n' ∉ line ∧ line ≠ []) : lines.flatMap statements = lines := by
  induction lines with
  | nil => rfl
  | cons line rest ih =>
      obtain ⟨one_line, nonempty⟩ := plain line (List.mem_cons_self ..)
      rw [List.flatMap_cons, statements_of_line one_line nonempty,
        ih fun other member => plain other (List.mem_cons_of_mem _ member)]
      rfl

end Text
end DotDoc
