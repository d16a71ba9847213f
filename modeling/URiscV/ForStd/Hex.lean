import Mathlib.Algebra.Group.Nat.Defs
import Mathlib.Data.List.Basic

/-!
# Numbers in hexadecimal

The digits of a number at a fixed width, most significant first, and the number that a
list of digits stands for.

## Key results

- `value_digits`: the number is read back from its digits
-/

namespace Hex

/-- The last `k` digits of `n`, in lower case. -/
def digits : Nat → Nat → List Char
  | 0, _ => []
  | k + 1, n => digits k (n / 16) ++ [Nat.digitChar (n % 16)]

/-- The value of a digit, in either case. -/
def digitVal? (c : Char) : Option Nat :=
  if '0' ≤ c ∧ c ≤ '9' then some (c.toNat - '0'.toNat)
  else if 'a' ≤ c ∧ c ≤ 'f' then some (c.toNat - 'a'.toNat + 10)
  else if 'A' ≤ c ∧ c ≤ 'F' then some (c.toNat - 'A'.toNat + 10)
  else none

/-- The number that `cs` stands for behind digits of value `acc`; `none` if one of them is
    no digit. -/
def valueFrom (acc : Nat) : List Char → Option Nat
  | [] => some acc
  | c :: cs =>
    match digitVal? c with
    | some d => valueFrom (16 * acc + d) cs
    | none => none

/-- The number that a list of digits stands for. -/
def value (cs : List Char) : Option Nat := valueFrom 0 cs

/-- A number of `k` digits. -/
@[simp] theorem length_digits (k n : Nat) : (digits k n).length = k := by
  induction k generalizing n with
  | zero => rfl
  | succ k ih => simp [digits, ih]

/-- All of them are digits. -/
theorem exists_of_mem_digits {c : Char} {k n : Nat} (h : c ∈ digits k n) :
    ∃ d < 16, c = Nat.digitChar d := by
  induction k generalizing n with
  | zero => cases h
  | succ k ih =>
    rcases List.mem_append.mp h with h | h
    · exact ih h
    · exact ⟨n % 16, Nat.mod_lt n (by omega), List.mem_singleton.mp h⟩

/-- What no digit is stands nowhere in a number. -/
theorem not_mem_digits {c : Char} (h : ∀ d < 16, c ≠ Nat.digitChar d) (k n : Nat) :
    c ∉ digits k n := fun hmem =>
  let ⟨d, hd, hc⟩ := exists_of_mem_digits hmem
  h d hd hc

/-- A digit is read back. -/
theorem digitVal?_digitChar {d : Nat} (h : d < 16) : digitVal? (Nat.digitChar d) = some d := by
  revert d
  decide

/-- The digits at the end of a list count last. -/
theorem valueFrom_append (acc : Nat) (cs ds : List Char) :
    valueFrom acc (cs ++ ds) = (valueFrom acc cs).bind fun v => valueFrom v ds := by
  induction cs generalizing acc with
  | nil => rfl
  | cons c cs ih =>
    rw [List.cons_append, valueFrom, valueFrom]
    cases digitVal? c with
    | none => rfl
    | some d => exact ih _

/-- **Round trip.** `k` digits hold a number below `16 ^ k`. -/
theorem value_digits (k n : Nat) : value (digits k n) = some (n % 16 ^ k) := by
  induction k generalizing n with
  | zero => simp [digits, value, valueFrom, Nat.mod_one]
  | succ k ih =>
    have hlast := digitVal?_digitChar (Nat.mod_lt n (show 0 < 16 by omega))
    have hdiv : 16 * (n / 16 % 16 ^ k) + n % 16 = n % 16 ^ (k + 1) := by
      rw [Nat.pow_succ, Nat.mul_comm (16 ^ k), Nat.mod_mul]
      omega
    rw [digits, value, valueFrom_append, ← value, ih, Option.bind_some, valueFrom, hlast]
    exact congrArg some hdiv

end Hex
