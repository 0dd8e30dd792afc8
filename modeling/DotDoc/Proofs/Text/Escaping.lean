import DotDoc.Proofs.Text.Quoting

/-!
# What escaping adds to a text

An escaped quote and a plain one are the same quote.  `collapse` writes every quote plainly: it
leaves out the last backslash of each odd run that stands before a quote, and nothing else.  Read
in this way an escaped text is the text itself, with one more backslash at the end if the text
ends in an odd run of backslashes, or in one and a line feed.

A text is its own escaped text exactly when its quotes are escaped and neither it nor what stands
before its final line feed ends in an odd run.  An escaped text has escaped quotes and never ends
in an odd run and a line feed, so a second pass can add something in one case only: the first pass
has written a backslash behind a final line feed.
-/

set_option autoImplicit false

namespace DotDoc.Text

/-- The rest of a text with its quotes written plainly, when `odd` tells whether an odd run of
backslashes stands just before. -/
def collapseFrom (odd : Bool) : Text → Text
  | [] => []
  | c :: rest =>
      if c = '\\' then
        if !odd && rest.head? = some '"' then collapseFrom true rest
        else '\\' :: collapseFrom (!odd) rest
      else c :: collapseFrom false rest

/-- A text without the one backslash that escapes a quote, before each escaped quote. -/
def collapse (t : Text) : Text :=
  collapseFrom false t

/-- The backslash that completes an odd run at the end of a text, or before its final line feed. -/
def completion (odd : Bool) : Text → Text
  | [] => if odd then ['\\'] else []
  | c :: rest =>
      if odd && c = '\n' && rest.isEmpty then ['\\'] else completion (c = '\\' && !odd) rest

theorem completion_eq_nil_or (odd : Bool) (t : Text) :
    completion odd t = [] ∨ completion odd t = ['\\'] := by
  fun_induction completion odd t with
  | case1 => exact .inr rfl
  | case2 => exact .inl rfl
  | case3 => exact .inr rfl
  | case4 odd c rest _ ih => exact ih

theorem final_iff {odd : Bool} {c : Char} {rest : Text} :
    (odd && c = '\n' && rest.isEmpty) = true ↔ odd = true ∧ c = '\n' ∧ rest = [] := by
  simp [and_assoc]

theorem completion_eq_iff (odd : Bool) (t : Text) :
    completion odd t = ['\\'] ↔ oddAfter odd t = true ∨ EndsOddThenLineFeed odd t := by
  fun_induction completion odd t with
  | case1 => simp
  | case2 odd even => simpa using even
  | case3 odd c rest final => simp [endsOddThenLineFeed_cons, final_iff.1 final]
  | case4 odd c rest final ih =>
      rw [final_iff] at final
      rw [ih, oddAfter_cons, endsOddThenLineFeed_cons, or_iff_right final]

theorem head?_escapeFrom_odd (t : Text) :
    (escapeFrom true t).head? = some '"' ↔ t.head? = some '"' := by
  cases t with
  | nil => simp [escapeFrom]
  | cons c rest =>
      unfold escapeFrom
      split <;> grind

theorem collapseFrom_escapeFrom (odd : Bool) (t : Text) :
    collapseFrom odd (escapeFrom odd t) = collapseFrom odd t ++ completion odd t := by
  -- The cases are those of escaping: the end after an odd run and otherwise, a backslash, a quote
  -- after an odd run and otherwise, a final line feed after an odd run, any other character.
  fun_induction escapeFrom odd t with
  | case1 => simp [collapseFrom, completion]
  | case2 odd even =>
      obtain rfl : odd = false := by simpa using even
      simp [collapseFrom, completion]
  | case3 odd rest ih =>
      cases odd with
      | true => simpa [collapseFrom, completion] using ih
      | false =>
          by_cases before_quote : rest.head? = some '"' <;>
            simpa [collapseFrom, completion, head?_escapeFrom_odd, before_quote] using ih
  | case4 rest _ ih => simpa [collapseFrom, completion] using ih
  | case5 odd rest even _ ih =>
      obtain rfl : odd = false := by simpa using even
      simpa [collapseFrom, completion] using ih
  | case6 odd c rest _ _ final =>
      obtain ⟨rfl, rfl, rfl⟩ := final_iff.1 final
      simp [collapseFrom, completion]
  | case7 odd c rest slash quote final ih => simpa [collapseFrom, completion, slash, final] using ih

/-- Escaping changes how quotes are written and completes a final run of backslashes.  With its
quotes written plainly an escaped text is the text with its quotes written plainly, followed by one
backslash exactly when the text ends in an odd run of backslashes, or in one and a line feed. -/
theorem collapse_escape (t : Text) :
    (Odd (backslashRun t) ∨ (∃ head, t = head ++ ['\n'] ∧ Odd (backslashRun head)) →
      collapse (escape t) = collapse t ++ ['\\']) ∧
    (¬(Odd (backslashRun t) ∨ ∃ head, t = head ++ ['\n'] ∧ Odd (backslashRun head)) →
      collapse (escape t) = collapse t) := by
  have completed : completion false t = ['\\'] ↔
      Odd (backslashRun t) ∨ ∃ head, t = head ++ ['\n'] ∧ Odd (backslashRun head) := by
    simp only [completion_eq_iff, EndsOddThenLineFeed, odd_backslashRun_iff]
  have read : collapse (escape t) = collapse t ++ completion false t :=
    collapseFrom_escapeFrom false t
  rw [← completed, read]
  constructor
  · intro added
    rw [added]
  · intro not_added
    rw [(completion_eq_nil_or false t).resolve_right not_added, List.append_nil]

example :
    escape "a\" \\\" \\\\\" \\\\\\\" \\n\\".toList = "a\\\" \\\" \\\\\\\" \\\\\\\" \\n\\\\".toList ∧
    collapse "a\" \\\" \\\\\" \\\\\\\" \\n\\".toList = "a\" \" \\\\\" \\\\\" \\n\\".toList := by
  decide

theorem escapeFrom_eq_self_iff (odd : Bool) (t : Text) :
    escapeFrom odd t = t ↔
      QuotesEscaped odd t ∧ oddAfter odd t = false ∧ ¬ EndsOddThenLineFeed odd t := by
  fun_induction escapeFrom odd t with
  | case1 => simp [QuotesEscaped]
  | case2 odd even => simpa [QuotesEscaped] using even
  | case3 odd rest ih => simpa [QuotesEscaped, endsOddThenLineFeed_cons] using ih
  | case4 rest _ ih => simpa [QuotesEscaped, endsOddThenLineFeed_cons] using ih
  | case5 odd rest even => simp [QuotesEscaped, even]
  | case6 odd c rest _ _ final =>
      obtain ⟨rfl, rfl, rfl⟩ := final_iff.1 final
      simp [endsOddThenLineFeed_cons]
  | case7 odd c rest slash quote final ih =>
      rw [final_iff] at final
      simpa [QuotesEscaped, endsOddThenLineFeed_cons, slash, quote, final] using ih

theorem escapeFrom_eq_nil_iff (t : Text) : escapeFrom false t = [] ↔ t = [] := by
  cases t with
  | nil => simp [escapeFrom]
  | cons c rest =>
      unfold escapeFrom
      split <;> grind

/-- No escaped text ends in an odd run of backslashes and a line feed: a backslash was written
behind that line feed. -/
theorem not_endsOddThenLineFeed_escapeFrom (odd : Bool) (t : Text) :
    ¬ EndsOddThenLineFeed odd (escapeFrom odd t) := by
  fun_induction escapeFrom odd t with
  | case1 => simp [endsOddThenLineFeed_cons]
  | case2 => simp
  | case3 odd rest ih => simpa [endsOddThenLineFeed_cons] using ih
  | case4 rest _ ih => simpa [endsOddThenLineFeed_cons] using ih
  | case5 odd rest _ _ ih => simpa [endsOddThenLineFeed_cons] using ih
  | case6 => simp [endsOddThenLineFeed_cons]
  | case7 odd c rest slash _ final ih =>
      rw [final_iff, ← escapeFrom_eq_nil_iff] at final
      simpa [endsOddThenLineFeed_cons, slash, final] using ih

/-- Escaping a text once more changes it exactly when the text ends in an odd run of backslashes
and one line feed. -/
theorem escape_escape_iff (t : Text) :
    escape (escape t) = escape t ↔ ¬∃ head, t = head ++ ['\n'] ∧ Odd (backslashRun head) := by
  have quotes : QuotesEscaped false (escape t) := quotesEscaped_escapeFrom false t
  have feed : ¬ EndsOddThenLineFeed false (escape t) := not_endsOddThenLineFeed_escapeFrom false t
  have run : oddAfter false (escape t) = true ↔ EndsOddThenLineFeed false t :=
    oddAfter_escapeFrom false t
  have fixed : escape (escape t) = escape t ↔
      QuotesEscaped false (escape t) ∧ oddAfter false (escape t) = false ∧
        ¬ EndsOddThenLineFeed false (escape t) := escapeFrom_eq_self_iff false (escape t)
  rw [fixed, and_iff_right quotes, and_iff_left feed, ← Bool.not_eq_true, run]
  simp only [EndsOddThenLineFeed, odd_backslashRun_iff]

end DotDoc.Text
