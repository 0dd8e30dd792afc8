/-!
# Lines and joining

A `Text` is a list of characters.  `joinWith` puts a separator between neighbours, and `indent`
puts a number of two-space levels in front of every line, the first one included: a line starts
at the front of the text and after every line feed, and nowhere else.
-/

set_option autoImplicit false

namespace DotDoc

/-- The characters of a piece of writing, in order. -/
abbrev Text := List Char

namespace Text

def joinWith (separator : Text) : List Text → Text
  | [] => []
  | [item] => item
  | item :: next :: rest => item ++ separator ++ joinWith separator (next :: rest)

def joinLines (items : List Text) : Text :=
  joinWith ['\n'] items

def indentUnit : Text := [' ', ' ']

/-- `margin` in front of every line of a text. -/
def indentBy (margin : Text) (t : Text) : Text :=
  margin ++ t.flatMap fun c => if c = '\n' then '\n' :: margin else [c]

def margin (depth : Nat) : Text :=
  (List.replicate depth indentUnit).flatten

/-- Every line of a text one level deeper. -/
def indent (t : Text) : Text :=
  indentBy indentUnit t

def ofNat (n : Nat) : Text :=
  Nat.toDigits 10 n

/-- An integer in decimal digits, a minus sign in front of a negative one. -/
def ofInt : Int → Text
  | .ofNat n => ofNat n
  | .negSucc n => '-' :: ofNat (n + 1)

@[simp] theorem joinWith_nil (separator : Text) : joinWith separator [] = [] := rfl

@[simp] theorem joinWith_singleton (separator item : Text) :
    joinWith separator [item] = item := rfl

@[simp] theorem joinWith_cons_cons (separator item next : Text) (rest : List Text) :
    joinWith separator (item :: next :: rest)
      = item ++ separator ++ joinWith separator (next :: rest) := rfl

@[simp] theorem margin_zero : margin 0 = [] := rfl

theorem margin_succ (depth : Nat) : margin (depth + 1) = indentUnit ++ margin depth := by
  simp [margin, List.replicate_succ]

theorem indentBy_of_not_mem (m t : Text) (one_line : '\n' ∉ t) : indentBy m t = m ++ t := by
  have unchanged : t.flatMap (fun c => if c = '\n' then '\n' :: m else [c]) = t := by
    induction t with
    | nil => rfl
    | cons c rest ih =>
        have other : c ≠ '\n' := fun e => one_line (by simp [e])
        have later : '\n' ∉ rest := fun h => one_line (by simp [h])
        simp [List.flatMap_cons, other, ih later]
  simp [indentBy, unchanged]

end Text
end DotDoc
