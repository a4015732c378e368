import FailureDetector.Lib.CString
import Mathlib.Data.Nat.Log
import Mathlib.Algebra.Order.Floor.Ring
import Mathlib.Data.Rat.Floor
import Mathlib.Tactic.Ring

set_option relaxedAutoImplicit false
set_option autoImplicit false

/-!
# Formatted output into a buffer

The text that `%f` stands for, and calls of `sprintf` that write one text after the other into a
buffer.

## Main definitions

* `CString.ascii` — a text as a C string.
* `CString.decimal` — a number in decimal.
* `CString.formatF` — a number as `%f` prints it.
* `CString.Sprintf` — a call of `sprintf`; `CString.charactersWritten` — what some calls write.

## Main results

* `CString.length_decimal` — how long a number is in decimal.
* `CString.length_formatF` — how long a number with at most six decimals is as `%f`.
-/

namespace CString

/-- A text of single bytes as a C string. -/
def ascii (s : String) : CStr := readString (s.toList.map fun c => UInt8.ofNat c.toNat)

/-- A decimal digit. -/
def decimalDigit (d : Fin 10) : CChar := ⟨UInt8.ofNat (48 + d.1), by revert d; decide⟩

/-- A number in decimal, without leading zeros. -/
def decimal (n : ℕ) : CStr :=
  if n < 10 then [decimalDigit (Fin.ofNat 10 n)]
  else decimal (n / 10) ++ [decimalDigit (Fin.ofNat 10 n)]

/-- The last `k` digits of a number in decimal. -/
def lastDigits : ℕ → ℕ → CStr
  | 0, _ => []
  | k + 1, n => lastDigits k (n / 10) ++ [decimalDigit (Fin.ofNat 10 n)]

/-- Round to the nearest integer, and to the even one of two. -/
def roundHalfEven (q : ℚ) : ℤ :=
  if Int.fract q < 1 / 2 then ⌊q⌋
  else if 1 / 2 < Int.fract q then ⌊q⌋ + 1
  else if ⌊q⌋ % 2 = 0 then ⌊q⌋ else ⌊q⌋ + 1

/-- A number as `%f` prints it: the integer part in full, a point and six decimals. -/
def formatF (q : ℚ) : CStr :=
  let millionths := (roundHalfEven (|q| * 10 ^ 6)).toNat
  (if q < 0 then ascii "-" else []) ++
    decimal (millionths / 10 ^ 6) ++ ascii "." ++ lastDigits 6 millionths

/-- The number of digits of a number in decimal. -/
lemma length_decimal (n : ℕ) : (decimal n).length = Nat.log 10 n + 1 := by
  fun_induction decimal n with
  | case1 n h => rw [Nat.log_of_lt h, List.length_singleton]
  | case2 n h ih =>
    rw [List.length_append, ih, List.length_singleton,
      Nat.log_of_one_lt_of_le (by omega) (Nat.le_of_not_lt h)]

/-- There are `k` last digits. -/
lemma length_lastDigits (k n : ℕ) : (lastDigits k n).length = k := by
  induction k generalizing n with
  | zero => rfl
  | succ k ih => rw [lastDigits, List.length_append, ih, List.length_singleton]

/-- Rounding keeps integers. -/
lemma roundHalfEven_natCast (n : ℕ) : roundHalfEven n = n := by
  simp [roundHalfEven]

/-- A number with at most six decimals is as long as its integer part, the point and six digits. -/
lemma length_formatF {q : ℚ} {n : ℕ} (h : q * 10 ^ 6 = n) :
    (formatF q).length = Nat.log 10 (n / 10 ^ 6) + 8 := by
  have hq : 0 ≤ q := by
    have hn : (0 : ℚ) ≤ n := Nat.cast_nonneg n
    linarith
  have hmillionths : (roundHalfEven (|q| * 10 ^ 6)).toNat = n := by
    rw [abs_of_nonneg hq, h, roundHalfEven_natCast, Int.toNat_natCast]
  have hpoint : (ascii ".").length = 1 := rfl
  simp only [formatF, hmillionths, if_neg (not_lt.mpr hq), List.nil_append, List.length_append,
    length_decimal, length_lastDigits, hpoint]

/-- A call of `sprintf` into a buffer: the text that it writes, from the given offset on. -/
structure Sprintf where
  offset : ℕ
  text : CStr

/-- The end of what a call writes, with the NUL. -/
def Sprintf.stop (w : Sprintf) : ℕ := w.offset + w.text.length + 1

/-- The number of characters that consecutive calls write, with the final NUL. -/
def charactersWritten (ws : List Sprintf) : ℕ := (ws.map fun w => w.text.length).sum + 1

end CString
