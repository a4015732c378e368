import FailureDetector.Lib.Printf
import FailureDetector.PaxosReplica.Learner

set_option relaxedAutoImplicit false
set_option autoImplicit false

/-!
# The log line of a state (`log_state_list`)

A state is logged as one line with every address and the time since the last change, which is put
together in a buffer on the stack. Every address has four characters of the buffer more than it
needs at most, but for a `%f` there are only the eight bytes that a `double` takes in memory. So
the line fits as long as the slack of the addresses makes up for the digits of the time.

## Main definitions

* `FailureDetector.logBufferSize` — `buffer_size`.
* `FailureDetector.logStateList` — `log_state_list`: its calls of `sprintf`.

## Main results

* `FailureDetector.charactersWritten_logStateList` — how long the line is.
* `FailureDetector.state_log_fits_iff` — when it fits.
* `FailureDetector.onDeliver_logStateList`, `FailureDetector.onDeliver_line_fits_iff` — which lines
  `on_deliver` logs, and when they fit.
-/

namespace FailureDetector

open CString Wire

/-- `TIME_PASSED_LABEL`. -/
def timePassedLabel : CStr := ascii "Since last state change: "

section Lines

variable {L : Type} [ZlistImpl L CStr]

/-- `buffer_size`. The third and the fifth number are the sizes of `double` and `char`. -/
def logBufferSize (list : L) : ℕ :=
  zlistSize list * (maxSizeIpAddressString + 4) + 8 + 2 + 1 * timePassedLabel.length + 4

/-- The loop of `log_state_list`, from the item under the cursor on: its calls of `sprintf`, the
offset of `buffer` after them, and the list. -/
def logStateListLoop (list : L) (buffer : ℕ) : List Sprintf × ℕ × L :=
  match _h : zlistItem list with
  | none => ([], buffer, list)
  | some str =>
    let text := ascii "| " ++ str
    let (calls, buffer', list') := logStateListLoop (zlistNext list) (buffer + text.length)
    (⟨buffer, text⟩ :: calls, buffer', list')
termination_by (ZlistImpl.cursor list).length
decreasing_by exact ZlistImpl.length_cursor_next _h

/-- What the last `sprintf` of `log_state_list` writes. -/
def lastLine (timePassed : ℚ) : CStr :=
  ascii "| " ++ timePassedLabel ++ ascii " " ++ formatF timePassed ++ ascii " ms"

/-- `log_state_list`: its calls of `sprintf`, and the list with its cursor moved. -/
def logStateList (list : L) (timePassed : ℚ) : List Sprintf × L :=
  let (calls, buffer, list) := logStateListLoop (zlistFirst list) 0
  (calls ++ [⟨buffer, lastLine timePassed⟩], list)

/-- The loop writes two characters more than each string has, and its calls follow each other. -/
lemma logStateListLoop_spec (list : L) (buffer : ℕ) :
    let result := logStateListLoop list buffer
    result.2.1 = buffer + ((ZlistImpl.cursor list).map fun s => s.length + 2).sum ∧
      (result.1.map fun w => w.text.length).sum =
        ((ZlistImpl.cursor list).map fun s => s.length + 2).sum ∧
      ∀ w ∈ result.1, w.stop ≤ result.2.1 + 1 := by
  fun_induction logStateListLoop list buffer with
  | case1 list buffer h =>
    rw [ZlistImpl.item_eq_none.mp h]
    simp
  | case2 list buffer str h text calls buffer' list' heq ih =>
    obtain ⟨rest, hrest⟩ := ZlistImpl.item_eq_some.mp h
    have hlength : text.length = str.length + 2 := by
      show (ascii "| " ++ str).length = str.length + 2
      have hbar : (ascii "| ").length = 2 := rfl
      rw [List.length_append, hbar]
      omega
    rw [heq, ZlistImpl.cursor_next list str rest hrest] at ih
    obtain ⟨hbuffer, hsum, hstop⟩ := ih
    simp only [hrest, List.map_cons, List.sum_cons, hlength, List.mem_cons, forall_eq_or_imp,
      Sprintf.stop] at hbuffer hsum hstop ⊢
    refine ⟨by omega, by omega, by omega, hstop⟩

/-- The end of the line has one character for every digit of the whole milliseconds, and `38`
others. -/
lemma length_lastLine (m : ℕ) :
    (lastLine (m / 1000)).length = Nat.log 10 (m / 1000) + 39 := by
  have htime : ((m : ℚ) / 1000) * 10 ^ 6 = (1000 * m : ℕ) := by
    push_cast
    ring
  have hdiv : 1000 * m / 10 ^ 6 = m / 1000 := by omega
  have htexts : (ascii "| ").length = 2 ∧ timePassedLabel.length = 25 ∧
      (ascii " ").length = 1 ∧ (ascii " ms").length = 3 := ⟨rfl, rfl, rfl, rfl⟩
  simp only [lastLine, List.length_append, length_formatF htime, hdiv, htexts]
  omega

/-- What `log_state_list` writes: the line, of which the last call writes the end. -/
lemma charactersWritten_logStateList (list : L) (m : ℕ) :
    charactersWritten (logStateList list (m / 1000)).1 =
        ((ZlistImpl.items list).map List.length).sum + 2 * (ZlistImpl.items list).length +
          Nat.log 10 (m / 1000) + 40 ∧
      (∀ w ∈ (logStateList list (m / 1000)).1,
        w.stop ≤ charactersWritten (logStateList list (m / 1000)).1) ∧
      ∃ w ∈ (logStateList list (m / 1000)).1,
        w.stop = charactersWritten (logStateList list (m / 1000)).1 := by
  obtain ⟨hbuffer, hsum, hstop⟩ := logStateListLoop_spec (zlistFirst list) 0
  have hcalls : (logStateList list (m / 1000)).1 = (logStateListLoop (zlistFirst list) 0).1 ++
      [⟨(logStateListLoop (zlistFirst list) 0).2.1, lastLine (m / 1000)⟩] := rfl
  have hlengths : ((ZlistImpl.items list).map fun s => s.length + 2).sum =
      ((ZlistImpl.items list).map List.length).sum + 2 * (ZlistImpl.items list).length := by
    rw [List.sum_map_add, List.map_const', List.sum_replicate_nat, Nat.mul_comm 2]
  rw [ZlistImpl.cursor_first, hlengths] at hbuffer hsum
  rw [hcalls]
  generalize logStateListLoop (zlistFirst list) 0 = result at hbuffer hsum hstop ⊢
  have hline := length_lastLine m
  have hwritten : charactersWritten (result.1 ++ [⟨result.2.1, lastLine (m / 1000)⟩]) =
      ((ZlistImpl.items list).map List.length).sum + 2 * (ZlistImpl.items list).length +
        Nat.log 10 (m / 1000) + 40 := by
    simp only [charactersWritten, List.map_append, List.sum_append, hsum, List.map_singleton,
      List.sum_singleton, hline]
    omega
  rw [hwritten]
  refine ⟨rfl, fun w hw => ?_, ⟨result.2.1, lastLine (m / 1000)⟩, by simp, ?_⟩
  · rcases List.mem_append.mp hw with hw | hw
    · have := hstop w hw
      omega
    · rw [List.mem_singleton.mp hw]
      show result.2.1 + (lastLine (m / 1000)).length + 1 ≤ _
      omega
  · show result.2.1 + (lastLine (m / 1000)).length + 1 = _
    omega

/-- How much of the buffer there is. -/
lemma logBufferSize_eq (list : L) :
    logBufferSize list = 20 * (ZlistImpl.items list).length + 39 := by
  have hlabel : timePassedLabel.length = 25 := rfl
  rw [logBufferSize, hlabel, ZlistImpl.size_eq, maxSizeIpAddressString]
  omega

/-- Every call of `sprintf` stays inside the buffer exactly if the whole line fits. -/
lemma stop_le_iff (list : L) (m : ℕ) :
    (∀ w ∈ (logStateList list (m / 1000)).1, w.stop ≤ logBufferSize list) ↔
      charactersWritten (logStateList list (m / 1000)).1 ≤ logBufferSize list := by
  obtain ⟨-, hstop, w, hw, hlast⟩ := charactersWritten_logStateList list m
  constructor
  · intro h
    rw [← hlast]
    exact h w hw
  · intro h w hw
    exact (hstop w hw).trans h

/-- The line fits exactly if the slack of the addresses makes up for the digits of the time. -/
lemma charactersWritten_le_iff (list : L) (m : ℕ) :
    charactersWritten (logStateList list (m / 1000)).1 ≤ logBufferSize list ↔
      ((ZlistImpl.items list).map List.length).sum + (decimal (m / 1000)).length ≤
        18 * (ZlistImpl.items list).length := by
  rw [(charactersWritten_logStateList list m).1, logBufferSize_eq, length_decimal]
  omega

/-- `log_state_list`, seen from outside. -/
lemma logStateList_view (list : L) (timePassed : ℚ) :
    logStateList (ZlistImpl.view list) timePassed =
      (logStateList list timePassed).map id ZlistImpl.view := by
  have hloop : ∀ (list : L) (buffer : ℕ), logStateListLoop (ZlistImpl.view list) buffer =
      (logStateListLoop list buffer).map id (Prod.map id ZlistImpl.view) := by
    intro list buffer
    fun_induction logStateListLoop list buffer with
    | case1 list buffer h =>
      rw [logStateListLoop, ZlistImpl.item_view, h]
      rfl
    | case2 list buffer str h text calls buffer' list' heq ih =>
      rw [logStateListLoop, ZlistImpl.item_view, h]
      dsimp only
      rw [← ZlistImpl.view_next, ih, heq]
      rfl
  rw [logStateList, ← ZlistImpl.view_first, hloop]
  rfl

end Lines

/-- **When the line of a state fits its buffer.** For every list and every time `m` in microseconds,
printed in milliseconds, the characters that `log_state_list` writes fit if and only if the
lengths of the strings and the number of digits of the whole milliseconds are together at most
`18` for every string. That is also when every single call stays inside the buffer. -/
theorem state_log_fits_iff {L : Type} [ZlistImpl L CStr] (list : L) (m : ℕ) :
    (charactersWritten (logStateList list (m / 1000)).1 ≤ logBufferSize list ↔
      ((ZlistImpl.items list).map List.length).sum + (decimal (m / 1000)).length ≤
        18 * (ZlistImpl.items list).length) ∧
    ((∀ w ∈ (logStateList list (m / 1000)).1, w.stop ≤ logBufferSize list) ↔
      ((ZlistImpl.items list).map List.length).sum + (decimal (m / 1000)).length ≤
        18 * (ZlistImpl.items list).length) :=
  ⟨charactersWritten_le_iff list m, (stop_le_iff list m).trans (charactersWritten_le_iff list m)⟩

/-- **The line does not always fit**: that of the address `255.255.255.255` with a time of one
second takes one character more than there is. -/
theorem state_log_overflows :
    ¬ ∀ (list : Zlist CStr) (m : ℕ), (∀ s ∈ list.items, s.length ≤ 15) →
      charactersWritten (logStateList list (m / 1000)).1 ≤ logBufferSize list := by
  intro h
  have hfits := h (Zlist.new.push (ascii "255.255.255.255")) 1000000 (by
    intro s hs
    rw [List.mem_singleton.mp hs]
    exact Nat.le_refl 15)
  have hitems : ZlistImpl.items (Zlist.new.push (ascii "255.255.255.255")) =
      [ascii "255.255.255.255"] := rfl
  rw [(charactersWritten_logStateList _ _).1, logBufferSize_eq, hitems] at hfits
  have hlength : (ascii "255.255.255.255").length = 15 := rfl
  have hlog : Nat.log 10 (1000000 / 1000) = 3 := by decide
  simp only [List.map_cons, List.map_nil, List.sum_cons,
    List.sum_nil, hlength, hlog, List.length_singleton] at hfits
  omega

/-- **The lines that `on_deliver` logs**: the list that the replica holds then, with the time since
the last one. -/
lemma onDeliver_logStateList {env : PaxosEnv} {replica : FdReplica} {iid : ℕ} {value : Bytes}
    {l : List CStr} {t : ℚ} (h : .logStateList l t ∈ (onDeliver env replica iid value).2) :
    l = (onDeliver env replica iid value).1.paxosStateArray.items ∧
      t = env.timeMs - replica.lastLoggedStateTimeMs := by
  have hstep := onDeliver_step env replica iid value
  generalize onDeliver env replica iid value = result at hstep h ⊢
  cases hstep with
  | changed m received current => simpa using h
  | _ => simp at h

/-- **When a line that `on_deliver` logs fits**, `m` microseconds after the last one. -/
theorem onDeliver_line_fits_iff {env : PaxosEnv} {replica : FdReplica} {iid : ℕ} {value : Bytes}
    {l : List CStr} {m : ℕ}
    (h : .logStateList l (m / 1000) ∈ (onDeliver env replica iid value).2) :
    let list := (onDeliver env replica iid value).1.paxosStateArray
    (∀ w ∈ (logStateList list (env.timeMs - replica.lastLoggedStateTimeMs)).1,
        w.stop ≤ logBufferSize list) ↔
      (l.map List.length).sum + (decimal (m / 1000)).length ≤ 18 * l.length := by
  intro list
  obtain ⟨hitems, htime⟩ := onDeliver_logStateList h
  rw [← htime, hitems, stop_le_iff, charactersWritten_le_iff]
  rfl

end FailureDetector
