import DotDoc.Error

/-!
# Actions

An operation asks a state questions and changes it, one step after the other.  It ends with an
answer or with the reason of a refusal, and it leaves a state in both cases: a refusal takes
nothing back of what was done before it.

The steps of an operation are of three sorts.  A question can be refused and leaves the state as
it is, a check of the arguments does not even look at it, and a change cannot be refused.  The
lemmas tell what an operation does that begins with a step of each sort.
-/

set_option autoImplicit false

namespace DotDoc

abbrev ActionOn (σ α : Type) :=
  ExceptT Error (StateM σ) α

namespace Action

variable {σ α β : Type}

/-- The answer to a question, which leaves the state as it is. -/
def ask (question : σ → Except Error α) : ActionOn σ α :=
  fun s => (question s, s)

variable (s : σ)

theorem bind_apply (first : ActionOn σ α) (next : α → ActionOn σ β) :
    (first >>= next) s = match first s with
      | (.ok answer, after) => next answer after
      | (.error e, after) => (.error e, after) := by
  simp only [bind, ExceptT.bind, ExceptT.mk, StateT.bind]
  generalize first s = ends
  obtain ⟨result, after⟩ := ends
  cases result <;> rfl

theorem map_apply (f : α → β) (action : ActionOn σ α) :
    (f <$> action) s = ((action s).1.map f, (action s).2) := by
  simp only [Functor.map, ExceptT.map, ExceptT.mk, bind, StateT.bind]
  generalize action s = ends
  obtain ⟨result, after⟩ := ends
  cases result <;> rfl

@[simp] theorem pure_apply (answer : α) : (pure answer : ActionOn σ α) s = (.ok answer, s) := rfl

@[simp] theorem modify_apply (f : σ → σ) :
    (modify f : ActionOn σ PUnit) s = (.ok (), f s) := rfl

@[simp] theorem ask_bind (question : σ → Except Error α) (next : α → ActionOn σ β) :
    (ask question >>= next) s = match question s with
      | .ok answer => next answer s
      | .error e => (.error e, s) := by
  rw [bind_apply, ask]
  cases question s <;> rfl

@[simp] theorem check_bind (check : Except Error α) (next : α → ActionOn σ β) :
    ((liftM check : ActionOn σ α) >>= next) s = match check with
      | .ok answer => next answer s
      | .error e => (.error e, s) := by
  cases check <;> rfl

@[simp] theorem change_bind (change : StateM σ α) (next : α → ActionOn σ β) :
    ((liftM change : ActionOn σ α) >>= next) s = next (change s).1 (change s).2 := rfl

@[simp] theorem modify_bind (f : σ → σ) (next : PUnit → ActionOn σ β) :
    ((modify f : ActionOn σ PUnit) >>= next) s = next () (f s) := rfl

theorem ask_of_ok {question : σ → Except Error α} {answer : α} {next : α → ActionOn σ β}
    (answered : question s = .ok answer) : (ask question >>= next) s = next answer s := by
  rw [ask_bind, answered]

theorem check_of_ok {check : Except Error α} {answer : α} {next : α → ActionOn σ β}
    (passed : check = .ok answer) :
    ((liftM check : ActionOn σ α) >>= next) s = next answer s := by
  rw [check_bind, passed]

theorem ask_eq_ok {question : σ → Except Error α} {next : α → ActionOn σ β} {result : β}
    {after : σ} (done : (ask question >>= next) s = (.ok result, after)) :
    ∃ answer, question s = .ok answer ∧ next answer s = (.ok result, after) := by
  rw [ask_bind] at done
  cases answered : question s with
  | error e =>
      rw [answered] at done
      cases done
  | ok answer =>
      rw [answered] at done
      exact ⟨answer, rfl, done⟩

theorem check_eq_ok {check : Except Error α} {next : α → ActionOn σ β} {result : β} {after : σ}
    (done : ((liftM check : ActionOn σ α) >>= next) s = (.ok result, after)) :
    ∃ answer, check = .ok answer ∧ next answer s = (.ok result, after) := by
  cases check with
  | error e => cases done
  | ok answer => exact ⟨answer, rfl, done⟩

end Action
end DotDoc
