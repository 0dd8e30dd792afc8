/-!
# Ascending order

Elements are written in ascending order of their numbers.  `sortByNumber` only rearranges its
items, its result is in ascending order, and items of equal number keep their order.
-/

set_option autoImplicit false

namespace DotDoc

section
variable {α : Type}

/-- An item put into a list that is sorted by number, before the first with a number as large. -/
def insertByNumber (number : α → Nat) (item : α) : List α → List α
  | [] => [item]
  | other :: rest =>
      if number item ≤ number other then item :: other :: rest
      else other :: insertByNumber number item rest

def sortByNumber (number : α → Nat) : List α → List α
  | [] => []
  | item :: rest => insertByNumber number item (sortByNumber number rest)

/-- No item stands before one with a smaller number. -/
def Ascending (number : α → Nat) (items : List α) : Prop :=
  items.Pairwise fun a b => number a ≤ number b

theorem insertByNumber_perm (number : α → Nat) (item : α) (items : List α) :
    (insertByNumber number item items).Perm (item :: items) := by
  induction items with
  | nil => exact .refl _
  | cons other rest ih =>
      by_cases first : number item ≤ number other
      · simp [insertByNumber, first]
      · simp only [insertByNumber, first, if_false]
        exact (ih.cons other).trans (.swap item other rest)

theorem sortByNumber_perm (number : α → Nat) (items : List α) :
    (sortByNumber number items).Perm items := by
  induction items with
  | nil => exact .refl _
  | cons item rest ih => exact (insertByNumber_perm number item _).trans (ih.cons item)

theorem ascending_insertByNumber {number : α → Nat} {items : List α} (item : α)
    (ascending : Ascending number items) : Ascending number (insertByNumber number item items) := by
  induction items with
  | nil => simp [insertByNumber, Ascending]
  | cons other rest ih =>
      obtain ⟨before_rest, rest_ascending⟩ := List.pairwise_cons.1 ascending
      by_cases first : number item ≤ number other
      · simp only [insertByNumber, first, if_true]
        refine List.pairwise_cons.2 ⟨?_, ascending⟩
        intro a member
        rcases List.mem_cons.1 member with rfl | later
        · exact first
        · exact Nat.le_trans first (before_rest a later)
      · simp only [insertByNumber, first, if_false]
        refine List.pairwise_cons.2 ⟨?_, ih rest_ascending⟩
        intro a member
        rcases List.mem_cons.1 ((insertByNumber_perm number item rest).mem_iff.1 member) with
          rfl | later
        · omega
        · exact before_rest a later

theorem ascending_sortByNumber (number : α → Nat) (items : List α) :
    Ascending number (sortByNumber number items) := by
  induction items with
  | nil => exact .nil
  | cons item rest ih => exact ascending_insertByNumber item ih

end

end DotDoc
