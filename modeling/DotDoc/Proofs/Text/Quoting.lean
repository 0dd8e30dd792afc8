import DotDoc.Attribute.Written
import Mathlib.Algebra.Ring.Parity
import Mathlib.Data.List.Induction

/-!
# Quoted texts are closed by their last quote

A reader of a quoted text goes on to the first quote that no odd run of backslashes precedes.
`oddAfter` follows the parity of the run before each character, and escaping is one pass with the
same state.  Inside an escaped text every quote has an odd run before it.  At its end the run is
odd in one case only: the text ends in an odd run and one line feed, after which escaping writes a
backslash as if the line feed were not there.
-/

set_option autoImplicit false

namespace DotDoc.Text

/-- How many backslashes stand at the end of a text. -/
def backslashRun (t : Text) : Nat :=
  (t.reverse.takeWhile fun c => c = '\\').length

/-- Whether an odd run of backslashes stands at the end of a text, when `odd` tells it of what
stands before the text. -/
def oddAfter (odd : Bool) (t : Text) : Bool :=
  t.foldl (fun odd c => c = '\\' && !odd) odd

@[simp] theorem oddAfter_nil (odd : Bool) : oddAfter odd [] = odd := rfl

@[simp] theorem oddAfter_cons (odd : Bool) (c : Char) (rest : Text) :
    oddAfter odd (c :: rest) = oddAfter (c = '\\' && !odd) rest := rfl

theorem oddAfter_append (odd : Bool) (first second : Text) :
    oddAfter odd (first ++ second) = oddAfter (oddAfter odd first) second := by
  simp [oddAfter]

theorem backslashRun_concat (t : Text) (c : Char) :
    backslashRun (t ++ [c]) = if c = '\\' then backslashRun t + 1 else 0 := by
  by_cases slash : c = '\\' <;> simp [backslashRun, slash]

theorem odd_backslashRun_iff (t : Text) : Odd (backslashRun t) ↔ oddAfter false t = true := by
  induction t using List.reverseRecOn with
  | nil => decide
  | append_singleton t c ih =>
      rw [backslashRun_concat, oddAfter_append]
      by_cases slash : c = '\\'
      · rw [if_pos slash, Nat.odd_add_one, ih]
        simp [slash]
      · simp [slash]

theorem mem_escapeFrom_iff {c : Char} (other : c ≠ '\\') (odd : Bool) (t : Text) :
    c ∈ escapeFrom odd t ↔ c ∈ t := by
  induction t generalizing odd with
  | nil => cases odd <;> simp [escapeFrom, other]
  | cons d rest ih =>
      by_cases slash : d = '\\'
      · simp [escapeFrom, slash, other, ih]
      by_cases quote : d = '"'
      · cases odd <;> simp [escapeFrom, quote, other, ih]
      by_cases final : (odd && d = '\n' && rest.isEmpty) = true
      · have ⟨⟨run, feed⟩, last⟩ : (odd = true ∧ d = '\n') ∧ rest = [] := by simpa using final
        simp [escapeFrom, run, feed, last, other]
      · simp [escapeFrom, slash, quote, final, ih]

theorem mem_escape_iff {c : Char} (other : c ≠ '\\') (t : Text) : c ∈ escape t ↔ c ∈ t :=
  mem_escapeFrom_iff other false t

/-- Every quote stands after an odd run of backslashes. -/
def QuotesEscaped (odd : Bool) : Text → Prop
  | [] => True
  | c :: rest => (c = '"' → odd = true) ∧ QuotesEscaped (c = '\\' && !odd) rest

theorem quotesEscaped_iff (odd : Bool) (t : Text) :
    QuotesEscaped odd t ↔
      ∀ before after, t = before ++ '"' :: after → oddAfter odd before = true := by
  induction t generalizing odd with
  | nil => simp [QuotesEscaped]
  | cons c rest ih =>
      rw [QuotesEscaped, ih]
      constructor
      · rintro ⟨here, later⟩ before after split
        cases before with
        | nil => exact here (List.cons.inj split).1
        | cons b before =>
            obtain ⟨rfl, rest_split⟩ := List.cons.inj split
            exact later before after rest_split
      · intro all
        refine ⟨fun quote => all [] rest (by rw [quote]; rfl), fun before after split => ?_⟩
        exact all (c :: before) after (by rw [split]; rfl)

theorem quotesEscaped_escapeFrom (odd : Bool) (t : Text) :
    QuotesEscaped odd (escapeFrom odd t) := by
  induction t generalizing odd with
  | nil => cases odd <;> simp [escapeFrom, QuotesEscaped]
  | cons c rest ih =>
      by_cases slash : c = '\\'
      · simp [escapeFrom, QuotesEscaped, slash, ih]
      by_cases quote : c = '"'
      · cases odd <;> simp [escapeFrom, QuotesEscaped, quote, ih]
      by_cases final : (odd && c = '\n' && rest.isEmpty) = true
      · simp [escapeFrom, QuotesEscaped, slash, quote, final]
      · simp [escapeFrom, QuotesEscaped, slash, quote, final, ih]

/-- The text ends in a line feed, and what stands before that in an odd run of backslashes. -/
def EndsOddThenLineFeed (odd : Bool) (t : Text) : Prop :=
  ∃ head, t = head ++ ['\n'] ∧ oddAfter odd head = true

@[simp] theorem not_endsOddThenLineFeed_nil (odd : Bool) : ¬ EndsOddThenLineFeed odd [] := by
  simp [EndsOddThenLineFeed]

theorem endsOddThenLineFeed_cons (odd : Bool) (c : Char) (rest : Text) :
    EndsOddThenLineFeed odd (c :: rest) ↔
      (odd = true ∧ c = '\n' ∧ rest = []) ∨ EndsOddThenLineFeed (c = '\\' && !odd) rest := by
  constructor
  · rintro ⟨head, split, run⟩
    cases head with
    | nil =>
        obtain ⟨rfl, rfl⟩ := List.cons.inj split
        exact .inl ⟨run, rfl, rfl⟩
    | cons h head =>
        obtain ⟨rfl, rest_split⟩ := List.cons.inj split
        exact .inr ⟨head, rest_split, run⟩
  · rintro (⟨run, rfl, rfl⟩ | ⟨head, rfl, run⟩)
    · exact ⟨[], rfl, run⟩
    · exact ⟨c :: head, rfl, run⟩

theorem oddAfter_escapeFrom (odd : Bool) (t : Text) :
    oddAfter odd (escapeFrom odd t) = true ↔ EndsOddThenLineFeed odd t := by
  induction t generalizing odd with
  | nil => cases odd <;> simp [escapeFrom]
  | cons c rest ih =>
      rw [endsOddThenLineFeed_cons]
      by_cases slash : c = '\\'
      · simp [escapeFrom, slash, ih]
      by_cases quote : c = '"'
      · cases odd <;> simp [escapeFrom, quote, ih]
      by_cases final : (odd && c = '\n' && rest.isEmpty) = true
      · have ⟨⟨run, feed⟩, last⟩ : (odd = true ∧ c = '\n') ∧ rest = [] := by simpa using final
        simp [escapeFrom, run, feed, last]
      · have not_final : ¬(odd = true ∧ c = '\n' ∧ rest = []) := by
          simpa [and_assoc] using final
        simp [escapeFrom, slash, quote, final, not_final, ih]

/-- What stands before and after the first quote that no odd run of backslashes precedes. -/
def readToQuote (odd : Bool) : Text → Option (Text × Text)
  | [] => none
  | c :: rest =>
      if c = '"' && !odd then some ([], rest)
      else (readToQuote (c = '\\' && !odd) rest).map fun parts => (c :: parts.1, parts.2)

/-- The quoted text at the front, with the text after it. -/
def readQuoted : Text → Option (Text × Text)
  | '"' :: rest => readToQuote false rest
  | _ => none

/-- A text is read up to the quote behind it exactly when no quote of its own closes it and its
end does not escape that quote. -/
theorem readToQuote_eq_some_iff (odd : Bool) (t rest : Text) :
    readToQuote odd (t ++ '"' :: rest) = some (t, rest) ↔
      QuotesEscaped odd t ∧ oddAfter odd t = false := by
  induction t generalizing odd with
  | nil => cases odd <;> simp [readToQuote, QuotesEscaped]
  | cons c t ih =>
      rw [List.cons_append, readToQuote, QuotesEscaped, oddAfter_cons]
      by_cases closing : c = '"' ∧ odd = false
      · simp [closing]
      · have open_still : (c = '"' && !odd) = false := by simpa using closing
        have escaped : c = '"' → odd = true := fun quote => by simpa [quote] using closing
        rw [open_still, if_neg (by simp), and_iff_right escaped, ← ih, Option.map_eq_some_iff]
        constructor
        · rintro ⟨⟨before, after⟩, read, same⟩
          obtain ⟨texts, rfl⟩ := Prod.mk.inj same
          obtain ⟨-, rfl⟩ := List.cons.inj texts
          exact read
        · exact fun read => ⟨_, read, rfl⟩

/-- Every quote inside a quoted text is escaped, and its last quote closes it, so that reading
gives back the text and all that follows, unless the text ends in an odd run of backslashes and
one line feed.  Then the escaped text ends in an odd run and its last quote is escaped too. -/
theorem quoted_closed_iff (t : Text) :
    (∀ before after, escape t = before ++ '"' :: after → Odd (backslashRun before)) ∧
    (Odd (backslashRun (escape t)) ↔ ∃ head, t = head ++ ['\n'] ∧ Odd (backslashRun head)) ∧
    ∀ rest, readQuoted (quoted t ++ rest) = some (escape t, rest) ↔
      ¬∃ head, t = head ++ ['\n'] ∧ Odd (backslashRun head) := by
  have ends : EndsOddThenLineFeed false t ↔
      ∃ head, t = head ++ ['\n'] ∧ Odd (backslashRun head) := by
    simp only [EndsOddThenLineFeed, odd_backslashRun_iff]
  have escaped : QuotesEscaped false (escape t) := quotesEscaped_escapeFrom false t
  refine ⟨fun before after split => ?_, ?_, fun rest => ?_⟩
  · rw [odd_backslashRun_iff]
    exact (quotesEscaped_iff false (escape t)).1 escaped before after split
  · rw [odd_backslashRun_iff, ← ends]
    exact oddAfter_escapeFrom false t
  · have front : quoted t ++ rest = '"' :: (escape t ++ '"' :: rest) := by simp [quoted]
    rw [front, readQuoted, readToQuote_eq_some_iff, and_iff_right escaped, ← ends,
      ← oddAfter_escapeFrom, Bool.not_eq_true]
    rfl

/-- A backslash before a final line feed leaves the quoted text open. -/
theorem quoted_open_after_final_line_feed :
    escape ['\\', '\n'] = ['\\', '\n', '\\'] ∧
      Odd (backslashRun (escape ['\\', '\n'])) ∧
      readQuoted (quoted ['\\', '\n'] ++ [']']) = none := by
  decide

end DotDoc.Text
