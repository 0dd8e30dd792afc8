import DotDoc.Proofs.Decimal.Reading
import DotDoc.Proofs.Graph.Lookup

/-!
# Written ids

An element is found under every value that is equal to its number, and it is written under the one
that it was found with.  The text of such a value tells its number: integers have digits only,
floating-point numbers have a point or an exponent among theirs, and truth values have letters.
-/

set_option autoImplicit false

namespace DotDoc.Value

/-- The characters of the texts of numbers. -/
def isIdChar (c : Char) : Bool :=
  c.isAlphanum || c = '.' || c = '+' || c = '-'

theorem isIdChar_of_isDigit {c : Char} (digit : c.isDigit = true) : isIdChar c = true := by
  simp [isIdChar, Char.isAlphanum, digit]

theorem int_chars (n : Int) : ∀ c ∈ (int n).display, c.isDigit = true ∨ c = '-' := by
  intro c member
  have digit {m : Nat} (inside : c ∈ Text.ofNat m) : c.isDigit = true :=
    Text.isDigit_of_mem_ofNat inside
  cases n with
  | ofNat m => exact .inl (digit member)
  | negSucc m =>
      rcases List.mem_cons.1 member with rfl | later
      · exact .inr rfl
      · exact .inl (digit later)

theorem float_chars {x : Float} {n : Int} (number : (float x).integer? = some n) :
    ∀ c ∈ (float x).display,
      c.isDigit = true ∨ c = '.' ∨ c = 'e' ∨ c = '+' ∨ c = '-' := by
  obtain ⟨parts, finite, -⟩ := Option.bind_eq_some_iff.1 number
  obtain ⟨first, rest, text, digit, chars, -⟩ :=
    NumberStyle.plain.writeDecimal_chars (Decimal.shortest parts)
  intro c member
  have written : c ∈ NumberStyle.plain.write x := member
  rw [NumberStyle.write_of_finite _ finite, text] at written
  rcases List.mem_append.1 written with sign | unsigned
  · split at sign
    · exact .inr (.inr (.inr (.inr (List.mem_singleton.1 sign))))
    · cases sign
  · rcases List.mem_cons.1 unsigned with rfl | later
    · exact .inl digit
    · exact chars c later

theorem float_marked {x : Float} {n : Int} (number : (float x).integer? = some n) :
    '.' ∈ (float x).display ∨ 'e' ∈ (float x).display := by
  obtain ⟨parts, finite, -⟩ := Option.bind_eq_some_iff.1 number
  obtain ⟨first, rest, text, -, -, marked⟩ :=
    NumberStyle.plain.writeDecimal_chars (Decimal.shortest parts)
  have written : (float x).display
      = (if parts.negative then ['-'] else []) ++ first :: rest := by
    rw [← text]
    exact NumberStyle.write_of_finite _ finite
  rw [written]
  exact marked.imp (fun point => by simp [point]) (fun letter => by simp [letter])

theorem isIdChar_of_mem_display {v : Value} {n : Int} (number : v.integer? = some n) :
    ∀ c ∈ v.display, isIdChar c = true := by
  cases v with
  | bool b =>
      have all : (bool b).display.all isIdChar = true := by cases b <;> decide
      exact List.all_eq_true.1 all
  | int m =>
      intro c member
      rcases int_chars m c member with digit | rfl
      · exact isIdChar_of_isDigit digit
      · decide
  | float x =>
      intro c member
      rcases float_chars number c member with digit | rfl | rfl | rfl | rfl
      · exact isIdChar_of_isDigit digit
      all_goals decide
  | _ => cases number

theorem bool_display_ne {b : Bool} {v : Value}
    (chars : ∀ c ∈ v.display, c.isDigit = true ∨ c = '.' ∨ c = 'e' ∨ c = '+' ∨ c = '-') :
    (bool b).display ≠ v.display := by
  intro same
  cases b with
  | false =>
      have letter : 'F' ∈ v.display := by rw [← same]; decide
      exact absurd (chars 'F' letter) (by decide)
  | true =>
      have letter : 'T' ∈ v.display := by rw [← same]; decide
      exact absurd (chars 'T' letter) (by decide)

theorem int_display_ne {m n : Int} {x : Float} (number : (float x).integer? = some n) :
    (int m).display ≠ (float x).display := by
  intro same
  have chars := int_chars m
  rw [same] at chars
  rcases float_marked number with point | letter
  · exact absurd (chars '.' point) (by decide)
  · exact absurd (chars 'e' letter) (by decide)

/-- The text of an id tells its number. -/
theorem number_eq_of_display {v w : Value} {m n : Int} (v_number : v.integer? = some m)
    (w_number : w.integer? = some n) (same : v.display = w.display) : m = n := by
  have int_some {k : Int} : ∀ c ∈ (int k).display,
      c.isDigit = true ∨ c = '.' ∨ c = 'e' ∨ c = '+' ∨ c = '-' := fun c member =>
    (int_chars k c member).imp_right fun sign => .inr (.inr (.inr sign))
  cases v with
  | bool b => cases w with
    | bool b' =>
        have flags : b = b' := by
          cases b <;> cases b' <;> first | rfl | exact absurd same (by decide)
        rw [flags] at v_number
        exact Option.some.inj (v_number.symm.trans w_number)
    | int k => exact absurd same (bool_display_ne int_some)
    | float y => exact absurd same (bool_display_ne (float_chars w_number))
    | _ => cases w_number
  | int k => cases w with
    | bool b => exact absurd same.symm (bool_display_ne int_some)
    | int l =>
        have numbers : k = l := Text.ofInt_injective same
        rw [numbers] at v_number
        exact Option.some.inj (v_number.symm.trans w_number)
    | float y => exact absurd same (int_display_ne w_number)
    | _ => cases w_number
  | float x => cases w with
    | bool b => exact absurd same.symm (bool_display_ne (float_chars v_number))
    | int l => exact absurd same.symm (int_display_ne v_number)
    | float y =>
        obtain ⟨p, p_parts, p_number⟩ := Option.bind_eq_some_iff.1 v_number
        obtain ⟨q, q_parts, q_number⟩ := Option.bind_eq_some_iff.1 w_number
        have parts : p = q := NumberStyle.parts_eq_of_write _ p_parts q_parts same
        rw [parts] at p_number
        exact Option.some.inj (p_number.symm.trans q_number)
    | _ => cases w_number
  | _ => cases v_number

end DotDoc.Value
