import DotDoc.Decimal.Binary
import DotDoc.Value.Basic

/-!
# Equality of values

`Value.same` compares values by what they mean.  Truth values count as the numbers zero and one,
and numbers of different kinds are compared exactly.  Lists and tuples differ from each other.
Two attribute lists agree when they hold the same entries in the same order, while a mapping
agrees with another one, or with an attribute list, in any order.  Record cells and line breaks
are compared by their parts.  Records, font spans and the parts of tables agree with nothing.
-/

set_option autoImplicit false

namespace DotDoc.Value

/-- The integer that a value is equal to: a truth value, an integer or a floating-point number
without a fraction. -/
def integer? : Value → Option Int
  | bool b => some (if b then 1 else 0)
  | int n => some n
  | float x => (BinaryFraction.ofFloat? x).bind BinaryFraction.integer?
  | _ => none

/-- Whether a value is the given integer, whatever kind of number it is. -/
def isInteger (n : Int) (v : Value) : Bool :=
  v.integer? == some n

/-- The integer that a value is equal to, or else the value itself. -/
def plain (v : Value) : Value :=
  match v.integer? with
  | some n => int n
  | none => v

mutual

def same : Value → Value → Bool
  | null, w => match w with | null => true | _ => false
  | unset, w => match w with | unset => true | _ => false
  | bool b, w => w.isInteger (if b then 1 else 0)
  | int n, w => w.isInteger n
  | float x, w =>
      match w with
      | float y => x == y
      | _ => match w.integer? with
        | some n => (float x).isInteger n
        | none => false
  | str s, w => match w with | str t => s == t | _ => false
  | bytes a, w => match w with | bytes b => a == b | _ => false
  | list items, w => match w with | list others => sameItems items others | _ => false
  | tuple items, w => match w with | tuple others => sameItems items others | _ => false
  | dict entries, w =>
      match w.mapping? with
      | some others => entries.length == others.length && entriesWithin entries others
      | none => false
  | attributes entries, w =>
      match w with
      | attributes others => sameAttributes entries others
      | dict others => entries.length == others.length && attributesWithin entries others
      | _ => false
  | recordCell cell, w => match w with | recordCell other => sameCell cell other | _ => false
  | lineBreak, w => match w with | lineBreak => true | _ => false
  | record _, _ => false
  | font _ _, _ => false
  | tableCell _, _ => false
  | tableRow _, _ => false
  | table _, _ => false
termination_by structural v => v

def sameItems : List Value → List Value → Bool
  | [], others => others.isEmpty
  | item :: rest, others =>
      match others with
      | [] => false
      | other :: later => item.same other && sameItems rest later
termination_by structural items => items

/-- Whether every entry occurs among the others. -/
def entriesWithin : List (Value × Value) → List (Value × Value) → Bool
  | [], _ => true
  | (key, value) :: rest, others =>
      others.any (fun other => key.same other.1 && value.same other.2)
        && entriesWithin rest others
termination_by structural entries => entries

def sameAttributes : List (String × Value) → List (String × Value) → Bool
  | [], others => others.isEmpty
  | (key, value) :: rest, others =>
      match others with
      | [] => false
      | (other, held) :: later => key == other && value.same held && sameAttributes rest later
termination_by structural entries => entries

/-- Whether every attribute occurs among the entries of a mapping. -/
def attributesWithin : List (String × Value) → List (Value × Value) → Bool
  | [], _ => true
  | (key, value) :: rest, others =>
      others.any (fun other => (match other.1 with | str s => key == s | _ => false)
          && value.same other.2)
        && attributesWithin rest others
termination_by structural entries => entries

def sameCell : Record.Cell Value → Record.Cell Value → Bool
  | .text text, other => match other with | .text text' => text.same text' | _ => false
  | .port name text, other =>
      match other with
      | .port name' text' => name.same name' && text.same text'
      | _ => false
  | .group isColumn cells, other =>
      match other with
      | .group isColumn' cells' => isColumn.same isColumn' && sameCells cells cells'
      | _ => false
termination_by structural cell => cell

def sameCells : List (Record.Cell Value) → List (Record.Cell Value) → Bool
  | [], others => others.isEmpty
  | cell :: rest, others =>
      match others with
      | [] => false
      | other :: later => sameCell cell other && sameCells rest later
termination_by structural cells => cells

end

def occursIn (v : Value) (items : List Value) : Bool :=
  items.any fun item => item.same v

@[simp] theorem same_int_int (m n : Int) : (int m).same (int n) = decide (m = n) := by
  simp only [same, isInteger, integer?]
  by_cases h : m = n
  · simp [h]
  · simp [h, Ne.symm h]

@[simp] theorem same_str_str (s t : String) : (str s).same (str t) = decide (s = t) := by
  simp only [same]
  rfl

end DotDoc.Value
