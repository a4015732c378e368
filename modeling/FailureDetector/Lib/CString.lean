import Mathlib.Data.List.Basic
import Mathlib.Order.Basic
import Mathlib.Tactic.Linarith

set_option relaxedAutoImplicit false
set_option autoImplicit false

/-!
# C strings and character arrays

A C string is the list of its characters before the terminating NUL, so no character of it is
NUL. A `char` array is a list of bytes of fixed length; the string it holds ends at its first
NUL, and copying a shorter string into it leaves the bytes after the NUL as they were.

## Main definitions

* `CString.CStr` — C strings.
* `CString.strcmp` — comparison as the C library defines it, by the first differing characters.
* `CString.CharArray` — arrays of `n` bytes; `CString.CharArray.cstr` — the string in one.
* `CString.strcpy` — copying a string into an array it fits in; `CString.strdup` — the string in
  some bytes, if it ends there.

## Main results

* `CString.strcmp_eq_zero`, `CString.strcmp_swap`, `CString.strcmp_trans` — `strcmp` is a linear
  order on strings.
* `CString.cstr_strcpy` — an array holds the string last copied into it.
-/

namespace CString

/-- A character of a string: any byte but NUL. -/
abbrev CChar := {b : UInt8 // b ≠ 0}

/-- A C string, without its terminating NUL. -/
abbrev CStr := List CChar

/-- A character as a number. -/
def code (c : CChar) : ℤ := c.1.toNat

/-- Characters are positive. -/
lemma code_pos (c : CChar) : 0 < code c := by
  have h : c.1.toNat ≠ 0 := fun h0 => c.2 (UInt8.toNat_inj.mp h0)
  unfold code
  omega

/-- Characters with the same number are equal. -/
lemma code_injective {c d : CChar} (h : code c = code d) : c = d := by
  unfold code at h
  exact Subtype.ext (UInt8.toNat_inj.mp (by omega))

/-- `strcmp`: the difference of the first two differing characters, where the NUL at the end of
a string counts as zero. -/
def strcmp : CStr → CStr → ℤ
  | [], [] => 0
  | [], d :: _ => -code d
  | c :: _, [] => code c
  | c :: s, d :: t => if c = d then strcmp s t else code c - code d

/-- Exchanging the strings negates the comparison. -/
lemma strcmp_swap : ∀ s t : CStr, strcmp t s = -strcmp s t
  | [], [] => rfl
  | [], _ :: _ => by simp [strcmp]
  | _ :: _, [] => by simp [strcmp]
  | c :: s, d :: t => by
    by_cases h : c = d
    · simp only [strcmp, h, if_true]
      exact strcmp_swap s t
    · simp only [strcmp, h, Ne.symm h, if_false]
      omega

/-- Strings compare as zero exactly when they are equal. -/
lemma strcmp_eq_zero : ∀ {s t : CStr}, strcmp s t = 0 ↔ s = t
  | [], [] => by simp [strcmp]
  | [], d :: _ => by simp [strcmp, (code_pos d).ne']
  | c :: _, [] => by simp [strcmp, (code_pos c).ne']
  | c :: s, d :: t => by
    by_cases h : c = d
    · simp only [strcmp, h, if_true, List.cons.injEq, true_and]
      exact strcmp_eq_zero
    · simp only [strcmp, h, if_false, List.cons.injEq, false_and, iff_false]
      intro h0
      exact h (code_injective (by omega))

/-- A string compares as zero with itself. -/
@[simp] lemma strcmp_self (s : CStr) : strcmp s s = 0 := strcmp_eq_zero.mpr rfl

/-- `strcmp` is transitive.

**Proof sketch.** Induction on the first string. Where the first characters of all three strings
agree the claim is that of their tails; otherwise the first differing characters decide. -/
lemma strcmp_trans : ∀ {s t u : CStr}, strcmp s t ≤ 0 → strcmp t u ≤ 0 → strcmp s u ≤ 0
  | [], _, [], _, _ => by simp
  | [], _, e :: _, _, _ => by simp [strcmp, (code_pos e).le]
  | c :: _, [], _, h, _ => by
    have := code_pos c
    simp only [strcmp] at h
    omega
  | _ :: _, d :: _, [], _, h => by
    have := code_pos d
    simp only [strcmp] at h
    omega
  | c :: s, d :: t, e :: u, h₁, h₂ => by
    by_cases hcd : c = d
    · by_cases hde : d = e
      · simp only [strcmp, hcd, hde, if_true] at h₁ h₂ ⊢
        exact strcmp_trans h₁ h₂
      · simpa only [strcmp, hcd, hde, if_false] using h₂
    · simp only [strcmp, hcd, if_false] at h₁
      by_cases hde : d = e
      · subst hde
        simpa only [strcmp, hcd, if_false] using h₁
      · simp only [strcmp, hde, if_false] at h₂
        have hne : c ≠ e := by
          rintro rfl
          exact hcd (code_injective (by omega))
        simp only [strcmp, hne, if_false]
        omega

/-- Any two strings compare one way or the other. -/
lemma strcmp_total (s t : CStr) : strcmp s t ≤ 0 ∨ strcmp t s ≤ 0 := by
  rw [strcmp_swap s t]
  omega

/-- An array of `n` bytes. -/
@[ext] structure CharArray (n : ℕ) where
  /-- The bytes. -/
  bytes : List UInt8
  /-- There are `n` of them. -/
  length_eq : bytes.length = n
  deriving DecidableEq

/-- An array of NULs. -/
def CharArray.zero (n : ℕ) : CharArray n := ⟨List.replicate n 0, List.length_replicate⟩

/-- The string that starts at the first of some bytes. It ends at the first NUL, or with the
bytes. -/
def readString : List UInt8 → CStr
  | [] => []
  | b :: bs => if h : b = 0 then [] else ⟨b, h⟩ :: readString bs

/-- The string in an array. -/
def CharArray.cstr {n : ℕ} (a : CharArray n) : CStr := readString a.bytes

/-- `strdup` of the string that starts at the first of some bytes, unless there is no NUL among
them: then it reads on behind them. -/
def strdup (bytes : List UInt8) : Option CStr := if 0 ∈ bytes then some (readString bytes) else none

/-- The bytes of a string without its NUL. -/
def stringBytes (s : CStr) : List UInt8 := s.map Subtype.val

/-- A string followed by its NUL reads back, whatever follows. -/
lemma readString_append (s : CStr) (tail : List UInt8) :
    readString (stringBytes s ++ 0 :: tail) = s := by
  induction s with
  | nil => simp [stringBytes, readString]
  | cons c s ih =>
    have hc : c.1 ≠ 0 := c.2
    simp only [stringBytes, List.map_cons, List.cons_append, readString, hc, dif_neg,
      not_false_eq_true]
    exact congrArg (c :: ·) ih

/-- `strcpy` of a string into an array it fits in: the string, its NUL, and then what the array
contained there before. -/
def strcpy {n : ℕ} (dst : CharArray n) (s : CStr) (h : s.length < n) : CharArray n where
  bytes := stringBytes s ++ 0 :: dst.bytes.drop (s.length + 1)
  length_eq := by
    simp only [stringBytes, List.length_append, List.length_map, List.length_cons,
      List.length_drop, dst.length_eq]
    omega

/-- An array holds the string last copied into it. -/
@[simp] lemma cstr_strcpy {n : ℕ} (dst : CharArray n) (s : CStr) (h : s.length < n) :
    (strcpy dst s h).cstr = s := readString_append s _

/-- An array that a string has been copied into has a NUL. -/
lemma zero_mem_strcpy {n : ℕ} (dst : CharArray n) (s : CStr) (h : s.length < n) :
    0 ∈ (strcpy dst s h).bytes := List.mem_append_right _ List.mem_cons_self

end CString
