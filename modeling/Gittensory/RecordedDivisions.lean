import Mathlib.Algebra.Field.Defs

/-!
Computations over a field that keep a record of every divisor, as a program's quotients
are computed: a computation is defined when no divisor of its record is zero. What a
quotient by zero gives is left to the caller. Being defined goes through `bind`, so that
a computation is checked division by division.
-/
namespace Gittensory.RecordedDivisions

/-- A value and the divisors met on the way to it. -/
structure Divided (K α : Type) where
  value : α
  divisors : List K

variable {K α β : Type}

namespace Divided

instance : Monad (Divided K) where
  pure value := ⟨value, []⟩
  bind x f := ⟨(f x.value).value, x.divisors ++ (f x.value).divisors⟩

@[simp] theorem value_pure (a : α) : (pure a : Divided K α).value = a := rfl

@[simp] theorem value_bind (x : Divided K α) (f : α → Divided K β) :
    (x >>= f).value = (f x.value).value := rfl

@[simp] theorem value_map (f : α → β) (x : Divided K α) : (f <$> x).value = f x.value := rfl

/-- No division by zero was met. -/
def IsDefined [Zero K] (x : Divided K α) : Prop := ∀ divisor ∈ x.divisors, divisor ≠ 0

@[simp] theorem isDefined_pure [Zero K] (a : α) : (pure a : Divided K α).IsDefined := by
  intro divisor hdivisor
  cases hdivisor

@[simp] theorem isDefined_bind [Zero K] (x : Divided K α) (f : α → Divided K β) :
    (x >>= f).IsDefined ↔ x.IsDefined ∧ (f x.value).IsDefined := List.forall_mem_append

@[simp] theorem isDefined_map [Zero K] (f : α → β) (x : Divided K α) :
    (f <$> x).IsDefined ↔ x.IsDefined := by
  constructor
  · intro h divisor hdivisor
    exact h divisor (List.mem_append_left _ hdivisor)
  · intro h divisor hdivisor
    rcases List.mem_append.mp hdivisor with hmem | hmem
    · exact h divisor hmem
    · cases hmem

instance : LawfulMonad (Divided K) := LawfulMonad.mk' (Divided K)
  (fun _ => congrArg (Divided.mk _) (List.append_nil _))
  (fun _ _ => rfl)
  (fun _ _ _ => congrArg (Divided.mk _) (List.append_assoc _ _ _))

@[simp] theorem value_mapM (f : α → Divided K β) (l : List α) :
    (l.mapM f).value = l.map fun a => (f a).value := by
  induction l with
  | nil => rfl
  | cons a l ih =>
      rw [List.mapM_cons, value_bind, value_bind, ih]
      rfl

@[simp] theorem isDefined_mapM [Zero K] (f : α → Divided K β) (l : List α) :
    (l.mapM f).IsDefined ↔ ∀ a ∈ l, (f a).IsDefined := by
  induction l with
  | nil => simp
  | cons a l ih =>
      rw [List.mapM_cons, isDefined_bind, isDefined_bind, ih, List.forall_mem_cons]
      simp

end Divided

/-- A quotient whose divisor is never zero where it is used. -/
def divide [Div K] (left right : K) : Divided K K := ⟨left / right, [right]⟩

@[simp] theorem value_divide [Div K] (left right : K) :
    (divide left right).value = left / right := rfl

@[simp] theorem isDefined_divide [Div K] [Zero K] (left right : K) :
    (divide left right).IsDefined ↔ right ≠ 0 := List.forall_mem_singleton

/-- A quotient that is `found` in a wider type, where a zero divisor has a result too. -/
def quotient [Div K] [Zero K] [DecidableEq K] (found byZero : K → α) (left right : K) :
    Divided K α :=
  ⟨if right = 0 then byZero left else found (left / right), [right]⟩

theorem value_quotient [Div K] [Zero K] [DecidableEq K] (found byZero : K → α)
    (left : K) {right : K} (h : right ≠ 0) :
    (quotient found byZero left right).value = found (left / right) := if_neg h

@[simp] theorem isDefined_quotient [Div K] [Zero K] [DecidableEq K] (found byZero : K → α)
    (left right : K) : (quotient found byZero left right).IsDefined ↔ right ≠ 0 :=
  List.forall_mem_singleton

end Gittensory.RecordedDivisions
