import FailureDetector.Lib.Wire

set_option relaxedAutoImplicit false
set_option autoImplicit false

/-!
# Reading and writing a buffer at an offset

Code that walks through a buffer with a pointer reads and writes at an offset that it moves itself.
Nothing is read or written if the bytes are not all in the buffer. The readers of
`FailureDetector.Lib.Wire` do the same as reading, to what is left from the offset on.

The bytes of a new buffer are not set. Code that writes one piece after the other fills the buffer
from its beginning on.

## Main definitions

* `Wire.peek`, `Wire.peekU32` — some bytes and a 32-bit word at an offset.
* `Wire.poke`, `Wire.put` — write at an offset, and move it.
* `Wire.Writes` — code that appends some bytes to what has been written.

## Main results

* `Wire.readU32_drop`, `Wire.readArray_drop`, `Wire.expect_drop` — the readers at an offset.
* `Wire.peek_of_drop`, `Wire.peekU32_of_drop` — what is read where the contents are known.
* `Wire.Writes.bind`, `Wire.writes_foldlM` — pieces that are written one after the other.
* `Wire.Writes.fills` — a buffer of the right size is filled.
-/

namespace Wire

open CString

/-- The `n` bytes at an offset, if they are all in the buffer. -/
def peek (image : Bytes) (dv n : ℕ) : Option Bytes :=
  if dv + n ≤ image.length then some ((image.drop dv).take n) else none

/-- The 32-bit word at an offset, in the opposite byte order if `swap` is set. -/
def peekU32 (swap : Bool) (image : Bytes) (dv : ℕ) : Option ℕ :=
  (readU32 swap (image.drop dv)).map Prod.fst

/-- A buffer with some bytes written at an offset, if they are all in the buffer. -/
def poke {α : Type*} (mem : List α) (dv : ℕ) (p : List α) : Option (List α) :=
  if dv + p.length ≤ mem.length then some (mem.take dv ++ p ++ mem.drop (dv + p.length)) else none

/-- A buffer whose bytes may not be set yet, and the offset at which the next ones are written. -/
abbrev Out := List (Option UInt8) × ℕ

/-- Write some bytes, and move the offset behind them. -/
def put (out : Out) (p : Bytes) : Option Out :=
  (poke out.1 out.2 (p.map some)).map fun mem => (mem, out.2 + p.length)

/-- A buffer of `sz` bytes whose first ones have been written. -/
def filled (sz : ℕ) (done : Bytes) : Out :=
  (done.map some ++ List.replicate (sz - done.length) none, done.length)

/-- The code appends the bytes `p` to what has been written, if they fit in the buffer. -/
def Writes (f : Out → Option Out) (p : Bytes) : Prop :=
  ∀ sz done, done.length + p.length ≤ sz → f (filled sz done) = some (filled sz (done ++ p))

variable {image rest : Bytes} {swap : Bool} {dv n k : ℕ}

/-! ### Offsets for readers -/

/-- The word at an offset is read there. -/
lemma readU32_drop (h : peekU32 swap image dv = some k) :
    readU32 swap (image.drop dv) = some (k, image.drop (dv + 4)) := by
  obtain ⟨⟨k', rest⟩, hread, rfl⟩ := Option.map_eq_some_iff.mp h
  obtain ⟨-, hdrop⟩ := readU32_eq_some hread
  rw [hread, ← List.drop_drop, hdrop, List.drop_left' (length_word swap k')]

/-- A word at an offset has 32 bits, which are in the buffer. -/
lemma peekU32_eq_some (h : peekU32 swap image dv = some k) :
    k < 4294967296 ∧ dv + 4 ≤ image.length := by
  obtain ⟨hlt, hdrop⟩ := readU32_eq_some (readU32_drop h)
  have hlength := congrArg List.length hdrop
  rw [List.length_drop, List.length_append, length_word] at hlength
  exact ⟨hlt, by omega⟩

/-- There is a word wherever four bytes are left. -/
lemma exists_peekU32 (swap : Bool) (h : dv + 4 ≤ image.length) :
    ∃ k, peekU32 swap image dv = some k := by
  have hlength : 4 ≤ (image.drop dv).length := by
    rw [List.length_drop]
    omega
  unfold peekU32
  match image.drop dv, hlength with
  | b₀ :: b₁ :: b₂ :: b₃ :: rest, _ => cases swap <;> exact ⟨_, rfl⟩

/-- An array at an offset. -/
lemma readArray_drop (h : dv + n ≤ image.length) : ∃ a : CharArray n,
    peek image dv n = some a.bytes ∧
      readArray n (image.drop dv) = some (a, image.drop (dv + n)) := by
  have hlength : ((image.drop dv).take n).length = n := by
    rw [List.length_take, List.length_drop]
    omega
  refine ⟨⟨(image.drop dv).take n, hlength⟩, if_pos h, ?_⟩
  rw [readArray, dif_pos hlength, List.drop_drop]

/-- Expected bytes at an offset. -/
lemma expect_drop {p : Bytes} (h : image.drop dv = p ++ rest) :
    expect p (image.drop dv) = some (image.drop (dv + p.length)) := by
  rw [← List.drop_drop, h, expect_append, List.drop_left]

/-! ### Known contents -/

/-- What comes after some bytes at an offset. -/
lemma drop_add_of_drop {p : Bytes} (h : image.drop dv = p ++ rest) (hp : p.length = n) :
    image.drop (dv + n) = rest := by
  rw [← List.drop_drop, h, List.drop_left' hp]

/-- Bytes at an offset are read. -/
lemma peek_of_drop {p : Bytes} (hdv : dv ≤ image.length) (h : image.drop dv = p ++ rest)
    (hp : p.length = n) : peek image dv n = some p := by
  have hlength := congrArg List.length h
  rw [List.length_drop, List.length_append] at hlength
  rw [peek, if_pos (by omega), h, List.take_left' hp]

/-- A word at an offset is read, cut off to 32 bits. -/
lemma peekU32_of_drop (h : image.drop dv = word swap k ++ rest) :
    peekU32 swap image dv = some (k % 4294967296) := by
  rw [peekU32, h, readU32_word]
  rfl

/-- A number of arrays is read from as many bytes as they take. -/
lemma readArrays_of_length (hn : 0 < n) {input : Bytes} (h : input.length = k * n) :
    ∃ as, readArrays n hn input = some as ∧ as.length = k := by
  induction k generalizing input with
  | zero =>
    obtain rfl : input = [] := List.length_eq_zero_iff.mp (by simpa using h)
    exact ⟨[], by rw [readArrays, if_pos rfl], rfl⟩
  | succ k ih =>
    rw [Nat.succ_mul] at h
    have hne : input ≠ [] := by
      rintro rfl
      rw [List.length_nil] at h
      omega
    have htake : (input.take n).length = n := by
      rw [List.length_take]
      omega
    have hrest : (input.drop n).length = k * n := by
      rw [List.length_drop]
      omega
    obtain ⟨as, has, hlength⟩ := ih hrest
    refine ⟨⟨input.take n, htake⟩ :: as, ?_, by rw [List.length_cons, hlength]⟩
    rw [readArrays, if_neg hne, dif_pos htake, has, Option.map_some]

/-! ### Writing -/

/-- A whole array is read from its beginning. -/
lemma peek_zero {p : Bytes} (hp : p.length = n) : peek p 0 n = some p := by
  have hdrop : p.drop 0 = p ++ [] := by
    rw [List.drop_zero, List.append_nil]
  exact peek_of_drop (Nat.zero_le _) hdrop hp

/-- An array is written over. -/
lemma poke_zero {α : Type*} {mem p : List α} (hp : p.length = mem.length) :
    poke mem 0 p = some p := by
  rw [poke, if_pos (by omega), Nat.zero_add, List.take_zero, List.nil_append,
    List.drop_of_length_le hp.ge, List.append_nil]

/-- Bytes are written behind those that have been written before. -/
lemma poke_append {α : Type*} {done mem p : List α} (hp : p.length ≤ mem.length) :
    poke (done ++ mem) done.length p = some (done ++ p ++ mem.drop p.length) := by
  have hdrop : (done ++ mem).drop (done.length + p.length) = mem.drop p.length := by
    rw [← List.drop_drop, List.drop_left]
  rw [poke, if_pos (by rw [List.length_append]; omega), List.take_left, hdrop]

/-- Some bytes are written. -/
lemma writes_put (p : Bytes) : Writes (fun out => put out p) p := by
  intro sz done hle
  have hlength : (p.map some).length = p.length := List.length_map some
  have hroom : (p.map some).length ≤
      (List.replicate (sz - done.length) (none : Option UInt8)).length := by
    rw [hlength, List.length_replicate]
    omega
  have hpoke := @poke_append _ (done.map some) _ _ hroom
  rw [List.length_map] at hpoke
  simp only [put, filled, hpoke, Option.map_some, hlength, List.drop_replicate, List.map_append,
    List.length_append, Nat.sub_sub]

/-- Nothing is written. -/
lemma writes_nil : Writes some [] := by
  intro sz done _
  rw [List.append_nil]

/-- Two pieces, one after the other. -/
lemma Writes.bind {f g : Out → Option Out} {p q : Bytes} (hf : Writes f p) (hg : Writes g q) :
    Writes (fun out => (f out).bind g) (p ++ q) := by
  intro sz done hle
  rw [List.length_append] at hle
  have hle' : (done ++ p).length + q.length ≤ sz := by
    rw [List.length_append]
    omega
  show (f (filled sz done)).bind g = some (filled sz (done ++ (p ++ q)))
  rw [hf sz done (by omega), Option.bind_some, hg sz (done ++ p) hle', List.append_assoc]

/-- A piece for every element of a list.

**Proof sketch.** Induction on the list. -/
lemma writes_foldlM {α : Type*} {f : Out → α → Option Out} {p : α → Bytes} {l : List α}
    (h : ∀ x ∈ l, Writes (fun out => f out x) (p x)) :
    Writes (fun out => l.foldlM f out) (l.flatMap p) := by
  induction l with
  | nil => exact writes_nil
  | cons x l ih =>
    rw [List.flatMap_cons]
    exact (h x List.mem_cons_self).bind (ih fun y hy => h y (List.mem_cons_of_mem x hy))

/-- **A new buffer of the right size is filled**, and no byte is left unset. -/
lemma Writes.fills {f : Out → Option Out} {p : Bytes} (h : Writes f p) :
    f (List.replicate p.length none, 0) = some (p.map some, p.length) := by
  have hfill := h p.length [] (by simp)
  simpa [filled] using hfill

end Wire
