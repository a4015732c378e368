import Mathlib.Data.List.Basic
import FailureDetector.Lib.CString

set_option relaxedAutoImplicit false
set_option autoImplicit false

/-!
# Readers for fixed binary layouts

A reader consumes a prefix of a byte string and returns a value and the bytes after it. Each
reader comes with its writer and the law that it undoes the writer in front of any suffix, so
that the law for a whole layout follows by rewriting field by field.

## Main definitions

* `Wire.expect` — a fixed sequence of bytes.
* `Wire.readByte` — one byte.
* `Wire.readArray` — an array of `n` bytes.
* `Wire.writeU32`, `Wire.readU32` — a 32-bit word, least significant byte first; the reader can
  swap the byte order.
* `Wire.word` — a 32-bit word in either byte order.
* `Wire.readArrays` — all remaining bytes, as arrays of `n` bytes.

## Main results

* `Wire.expect_append`, `Wire.readArray_append`, `Wire.readU32_append`,
  `Wire.readArrays_flatMap` — the readers undo the writers.
* `Wire.expect_eq_some`, `Wire.readArray_eq_some`, `Wire.readU32_eq_some`,
  `Wire.readArrays_eq_some` — the readers accept nothing but what the writers write.
-/

namespace Wire

open CString

/-- A byte string. -/
abbrev Bytes := List UInt8

/-- Consume the bytes `p`, which must come next. -/
def expect (p input : Bytes) : Option Bytes :=
  if input.take p.length = p then some (input.drop p.length) else none

/-- Expected bytes are consumed. -/
@[simp] lemma expect_append (p rest : Bytes) : expect p (p ++ rest) = some rest := by
  simp [expect]

/-- Read one byte. -/
def readByte : Bytes → Option (UInt8 × Bytes)
  | [] => none
  | b :: rest => some (b, rest)

/-- A byte reads back. -/
@[simp] lemma readByte_cons (b : UInt8) (rest : Bytes) :
    readByte (b :: rest) = some (b, rest) := rfl

/-- Read an array of `n` bytes. -/
def readArray (n : ℕ) (input : Bytes) : Option (CharArray n × Bytes) :=
  if h : (input.take n).length = n then some (⟨input.take n, h⟩, input.drop n) else none

/-- An array reads back. -/
@[simp] lemma readArray_append {n : ℕ} (a : CharArray n) (rest : Bytes) :
    readArray n (a.bytes ++ rest) = some (a, rest) := by
  have htake : (a.bytes ++ rest).take n = a.bytes := List.take_left' a.length_eq
  have hdrop : (a.bytes ++ rest).drop n = rest := List.drop_left' a.length_eq
  have hlen : ((a.bytes ++ rest).take n).length = n := by rw [htake, a.length_eq]
  rw [readArray, dif_pos hlen]
  simp only [Option.some.injEq, Prod.mk.injEq, hdrop, and_true]
  exact CharArray.ext htake

/-- A 32-bit word, least significant byte first. Larger numbers are cut off. -/
def writeU32 (k : ℕ) : Bytes :=
  [UInt8.ofNat k, UInt8.ofNat (k / 256), UInt8.ofNat (k / 65536), UInt8.ofNat (k / 16777216)]

/-- Read a 32-bit word, in the opposite byte order if `swap` is set. -/
def readU32 (swap : Bool) : Bytes → Option (ℕ × Bytes)
  | b₀ :: b₁ :: b₂ :: b₃ :: rest =>
    if swap then
      some (b₃.toNat + 256 * b₂.toNat + 65536 * b₁.toNat + 16777216 * b₀.toNat, rest)
    else
      some (b₀.toNat + 256 * b₁.toNat + 65536 * b₂.toNat + 16777216 * b₃.toNat, rest)
  | _ => none

/-- A word reads back, cut off to 32 bits. -/
@[simp] lemma readU32_append (k : ℕ) (rest : Bytes) :
    readU32 false (writeU32 k ++ rest) = some (k % 4294967296, rest) := by
  simp only [writeU32, List.cons_append, List.nil_append, readU32, Bool.false_eq_true, if_false,
    UInt8.toNat_ofNat', Option.some.injEq, Prod.mk.injEq, and_true]
  omega

/-- A word takes four bytes. -/
@[simp] lemma length_writeU32 (k : ℕ) : (writeU32 k).length = 4 := rfl

/-- Read all of the input as arrays of `n` bytes each, for a positive `n`. -/
def readArrays (n : ℕ) (hn : 0 < n) (input : Bytes) : Option (List (CharArray n)) :=
  if input = [] then some []
  else if h : (input.take n).length = n then
    (readArrays n hn (input.drop n)).map (⟨input.take n, h⟩ :: ·)
  else none
termination_by input.length
decreasing_by
  rw [List.length_take] at h
  rw [List.length_drop]
  omega

/-- A sequence of arrays reads back. -/
@[simp] lemma readArrays_flatMap {n : ℕ} (hn : 0 < n) (as : List (CharArray n)) :
    readArrays n hn (as.flatMap CharArray.bytes) = some as := by
  induction as with
  | nil => rw [readArrays, if_pos (by simp)]
  | cons a as ih =>
    have hne : (a :: as).flatMap CharArray.bytes ≠ [] := by
      rw [List.flatMap_cons]
      intro h
      have := congrArg List.length h
      simp only [List.length_append, a.length_eq, List.length_nil] at this
      omega
    have htake : ((a :: as).flatMap CharArray.bytes).take n = a.bytes :=
      List.take_left' a.length_eq
    have hdrop : ((a :: as).flatMap CharArray.bytes).drop n = as.flatMap CharArray.bytes :=
      List.drop_left' a.length_eq
    have hlen : (((a :: as).flatMap CharArray.bytes).take n).length = n := by
      rw [htake, a.length_eq]
    rw [readArrays, if_neg hne, dif_pos hlen, hdrop, ih, Option.map_some]
    simp only [Option.some.injEq, List.cons.injEq, and_true]
    exact CharArray.ext htake

/-! ### What the readers accept -/

/-- A 32-bit word in the byte order of the reader. -/
def word (swap : Bool) (k : ℕ) : Bytes := if swap then (writeU32 k).reverse else writeU32 k

/-- A word takes four bytes. -/
@[simp] lemma length_word (swap : Bool) (k : ℕ) : (word swap k).length = 4 := by
  cases swap <;> simp [word]

/-- A word reads back in either byte order. -/
@[simp] lemma readU32_word (swap : Bool) (k : ℕ) (rest : Bytes) :
    readU32 swap (word swap k ++ rest) = some (k % 4294967296, rest) := by
  cases swap with
  | false => exact readU32_append k rest
  | true =>
    simp [word, writeU32, readU32]
    omega

/-- A number and its last 32 bits are written as the same word. -/
lemma word_mod (swap : Bool) (k : ℕ) : word swap (k % 4294967296) = word swap k := by
  have hwrite : writeU32 (k % 4294967296) = writeU32 k := by
    rw [writeU32, writeU32]
    refine congrArg₂ _ ?_ (congrArg₂ _ ?_ (congrArg₂ _ ?_ (congrArg₂ _ ?_ rfl))) <;>
    · apply UInt8.toNat_inj.mp
      rw [UInt8.toNat_ofNat', UInt8.toNat_ofNat']
      omega
  rw [word, word, hwrite]

/-- Two numbers that are written as the same word have the same last 32 bits. -/
lemma mod_eq_of_word_eq {swap : Bool} {k k' : ℕ} (h : word swap k = word swap k') :
    k % 4294967296 = k' % 4294967296 := by
  have hread := congrArg (fun w => readU32 swap (w ++ [])) h
  rw [readU32_word, readU32_word] at hread
  exact (Prod.mk.inj (Option.some.inj hread)).1

/-- The bytes that were expected come first. -/
lemma expect_eq_some {p input rest : Bytes} (h : expect p input = some rest) :
    input = p ++ rest := by
  rw [expect] at h
  split at h
  · next htake =>
    cases h
    exact (List.take_append_drop p.length input).symm.trans (congrArg (· ++ _) htake)
  · cases h

/-- The byte that is read comes first. -/
lemma readByte_eq_some {input rest : Bytes} {b : UInt8} (h : readByte input = some (b, rest)) :
    input = b :: rest := by
  cases input with
  | nil => cases h
  | cons b' rest' =>
    cases h
    rfl

/-- The array that is read comes first. -/
lemma readArray_eq_some {n : ℕ} {input rest : Bytes} {a : CharArray n}
    (h : readArray n input = some (a, rest)) : input = a.bytes ++ rest := by
  rw [readArray] at h
  split at h
  · cases h
    exact (List.take_append_drop n input).symm
  · cases h

/-- The four bytes of a word are those of the number that they make up. -/
lemma writeU32_bytes (b₀ b₁ b₂ b₃ : UInt8) :
    writeU32 (b₀.toNat + 256 * b₁.toNat + 65536 * b₂.toNat + 16777216 * b₃.toNat) =
      [b₀, b₁, b₂, b₃] := by
  have h₀ := b₀.toNat_lt
  have h₁ := b₁.toNat_lt
  have h₂ := b₂.toNat_lt
  have h₃ := b₃.toNat_lt
  rw [writeU32]
  refine congrArg₂ _ ?_ (congrArg₂ _ ?_ (congrArg₂ _ ?_ (congrArg₂ _ ?_ rfl))) <;>
  · apply UInt8.toNat_inj.mp
    rw [UInt8.toNat_ofNat']
    omega

/-- The word that is read comes first. -/
lemma readU32_eq_some {swap : Bool} {input rest : Bytes} {k : ℕ}
    (h : readU32 swap input = some (k, rest)) : k < 4294967296 ∧ input = word swap k ++ rest := by
  match input, h with
  | b₀ :: b₁ :: b₂ :: b₃ :: tail, h =>
    have h₀ := b₀.toNat_lt
    have h₁ := b₁.toNat_lt
    have h₂ := b₂.toNat_lt
    have h₃ := b₃.toNat_lt
    cases swap with
    | false =>
      cases h
      refine ⟨by omega, ?_⟩
      show _ = writeU32 _ ++ _
      rw [writeU32_bytes]
      rfl
    | true =>
      cases h
      refine ⟨by omega, ?_⟩
      show _ = (writeU32 _).reverse ++ _
      rw [writeU32_bytes]
      rfl

/-- The arrays that are read are all of the input. -/
lemma readArrays_eq_some {n : ℕ} {hn : 0 < n} {input : Bytes} {as : List (CharArray n)}
    (h : readArrays n hn input = some as) : input = as.flatMap CharArray.bytes := by
  induction as generalizing input with
  | nil =>
    rw [readArrays] at h
    split at h
    · assumption
    · split at h
      · obtain ⟨_, _, heq⟩ := Option.map_eq_some_iff.mp h
        cases heq
      · cases h
  | cons a as ih =>
    rw [readArrays] at h
    split at h
    · cases h
    · split at h
      · obtain ⟨as', has, heq⟩ := Option.map_eq_some_iff.mp h
        cases heq
        rw [List.flatMap_cons, ← ih has]
        exact (List.take_append_drop n input).symm
      · cases h

end Wire
