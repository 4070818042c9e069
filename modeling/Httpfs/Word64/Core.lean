import Mathlib.Algebra.Order.Ring.Nat
import Mathlib.Tactic.Common

/-!
# Unsigned 64-bit arithmetic with an exactness mark

A computation over unsigned 64-bit words wraps silently.  `Machine α` is the
value such a computation produces together with a mark that is `true` exactly
when no operation on the way wrapped.  The mark is carried by the monad, so a
translated function states its own overflow freedom and no second copy of it
is needed.

A proof replaces each operation by the exact natural-number result once the
operands are bounded; `pure` is the only shape left afterwards.
-/

namespace Httpfs.Word64

universe u v

/-- Number of distinct unsigned 64-bit words. -/
def modulus : Nat := 2 ^ 64

/-- A value computed by 64-bit operations, marked with whether all of them
were exact. -/
structure Machine (α : Type u) where
  val : α
  exact : Bool
  deriving DecidableEq, Repr

namespace Machine

variable {α : Type u} {β : Type u}

instance : Monad Machine where
  pure value := ⟨value, true⟩
  bind first next := ⟨(next first.val).val, first.exact && (next first.val).exact⟩

@[simp]
theorem val_pure (value : α) : (pure value : Machine α).val = value :=
  rfl

@[simp]
theorem exact_pure (value : α) : (pure value : Machine α).exact = true :=
  rfl

@[simp]
theorem val_bind (first : Machine α) (next : α → Machine β) :
    (first >>= next).val = (next first.val).val :=
  rfl

@[simp]
theorem exact_bind (first : Machine α) (next : α → Machine β) :
    (first >>= next).exact = (first.exact && (next first.val).exact) :=
  rfl

@[ext]
theorem ext {first second : Machine α} (val : first.val = second.val)
    (exact : first.exact = second.exact) : first = second := by
  cases first
  cases second
  simp_all

private theorem bind_assoc_machine {γ : Type u} (first : Machine α)
    (second : α → Machine β) (third : β → Machine γ) :
    first >>= second >>= third = first >>= fun value => second value >>= third := by
  ext
  · rfl
  · simp [Bool.and_assoc]

instance : LawfulMonad Machine :=
  LawfulMonad.mk' Machine
    (by intro α first; ext <;> simp [Functor.map])
    (by intro α β value next; ext <;> simp)
    bind_assoc_machine

end Machine

/-- Unsigned addition. -/
def add (left right : Nat) : Machine Nat :=
  ⟨(left + right) % modulus, decide (left + right < modulus)⟩

/-- Unsigned subtraction; an underflow continues modulo the word size. -/
def sub (left right : Nat) : Machine Nat :=
  ⟨(modulus + left - right) % modulus, decide (right ≤ left)⟩

/-- Unsigned multiplication. -/
def mul (left right : Nat) : Machine Nat :=
  ⟨(left * right) % modulus, decide (left * right < modulus)⟩

theorem add_eq_pure {left right : Nat} (bound : left + right < modulus) :
    add left right = pure (left + right) := by
  ext
  · simp [add, Nat.mod_eq_of_lt bound]
  · simpa [add] using bound

theorem sub_eq_pure {left right : Nat} (order : right ≤ left)
    (bound : left < modulus) : sub left right = pure (left - right) := by
  have shifted : modulus + left - right = left - right + modulus := by omega
  have small : left - right < modulus := by omega
  ext
  · simp [sub, shifted, Nat.mod_eq_of_lt small]
  · simpa [sub] using order

/-- Even a wrapping machine never reports more than the exact difference of
ordered operands. -/
theorem sub_val_le {left right : Nat} (order : right ≤ left) :
    (sub left right).val ≤ left - right := by
  have shifted : modulus + left - right = left - right + modulus := by omega
  simp only [sub, shifted, Nat.add_mod_right]
  exact Nat.mod_le _ _

theorem mul_eq_pure {left right : Nat} (bound : left * right < modulus) :
    mul left right = pure (left * right) := by
  ext
  · simp [mul, Nat.mod_eq_of_lt bound]
  · simpa [mul] using bound

end Httpfs.Word64
