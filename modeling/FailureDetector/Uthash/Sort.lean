import FailureDetector.Lib.BottomUpSort
import FailureDetector.Uthash.Table
import Mathlib.Tactic.Ring

set_option relaxedAutoImplicit false
set_option autoImplicit false

/-!
# Sorting a table

`HASH_SORT` merges runs of the list through all elements by writing the links of the elements it has
merged, while it still reads those of the elements to come. The elements of the first run that are
left, those from the second run on, and those merged so far are three separate lists, and no link is
read after it has been written. So every pass of the macro is a pass of a bottom-up merge sort, and
the macro sorts the table stably.

## Main definitions

* `FailureDetector.Merging` — the three lists in the links, between two steps of a merge.

## Main results

* `FailureDetector.Merging.merge` — a merge of two runs ends, and merges them.
* `FailureDetector.Merging.pass` — a pass is `BottomUpSort.mergePass`.
* `FailureDetector.UtHash.Represents.sort` — sorting a table sorts its list stably.
-/

namespace FailureDetector

open CString DoublyLinked BottomUpSort

variable {ι : Type*} [DecidableEq ι] {cmpfcn : ι → ι → ℤ} {s : SortState ι}
  {merged run rest l : List ι} {x : ι}

/-! ### One step -/

namespace SortState

/-- The links written when an element is linked behind those merged so far. -/
@[simp] lemma emit_next (s : SortState ι) (e : Option ι) :
    (s.emit e).app.next = write s.app.next s.tail e := by
  unfold emit
  cases s.tail <;> rfl

@[simp] lemma emit_prev (s : SortState ι) (e : Option ι) :
    (s.emit e).app.prev = write s.app.prev e s.tail := by
  unfold emit
  cases s.tail <;> rfl

@[simp] lemma emit_p (s : SortState ι) (e : Option ι) : (s.emit e).p = s.p := by
  unfold emit
  cases s.tail <;> rfl

@[simp] lemma emit_q (s : SortState ι) (e : Option ι) : (s.emit e).q = s.q := by
  unfold emit
  cases s.tail <;> rfl

@[simp] lemma emit_psize (s : SortState ι) (e : Option ι) : (s.emit e).psize = s.psize := by
  unfold emit
  cases s.tail <;> rfl

@[simp] lemma emit_qsize (s : SortState ι) (e : Option ι) : (s.emit e).qsize = s.qsize := by
  unfold emit
  cases s.tail <;> rfl

@[simp] lemma emit_list (s : SortState ι) (e : Option ι) :
    (s.emit e).list = if s.tail = none then e else s.list := by
  unfold emit
  cases s.tail <;> rfl

@[simp] lemma emit_tail (s : SortState ι) (e : Option ι) : (s.emit e).tail = e := rfl

end SortState

omit [DecidableEq ι] in
/-- In the links, `merged` are the elements merged so far, `run` those left of the first run, and
`rest` those from the second run on. Behind the last elements of `merged` and `run` the links are
not what they should be, and they are not read. -/
structure Merging (s : SortState ι) (merged run rest : List ι) : Prop where
  nodup : (merged ++ run ++ rest).Nodup
  psize : s.psize = run.length
  p : run ≠ [] → s.p = run.head?
  q : s.q = rest.head?
  list : s.list = merged.head?
  tail : s.tail = merged.getLast?
  merged_next : ∃ a, Path s.app.next merged a
  merged_prev : Path s.app.prev merged.reverse none
  run_next : ∃ a, Path s.app.next run a
  rest_next : Path s.app.next rest none

namespace Merging

/-- What linking one more element behind the merged ones does to a list of other elements. -/
lemma path_emit {f : ι → Option ι} {a : Option ι} (h : Path f l a)
    (hdisj : ∀ y ∈ merged, y ∉ l) {e : Option ι} : Path (write f merged.getLast? e) l a := by
  apply h.congr
  intro y hy
  apply write_of_ne
  intro heq
  exact hdisj y (List.mem_of_getLast? heq) hy

/-- The links of the merged elements after one more has been linked behind them. -/
lemma merged_emit (h : Merging s merged run rest) (hx : x ∉ merged) {t : SortState ι}
    (htnext : t.app.next = s.app.next) (htprev : t.app.prev = s.app.prev)
    (htlist : t.list = s.list) (httail : t.tail = s.tail) :
    (t.emit (some x)).list = (merged ++ [x]).head? ∧
      (t.emit (some x)).tail = (merged ++ [x]).getLast? ∧
      (∃ a, Path (t.emit (some x)).app.next (merged ++ [x]) a) ∧
      Path (t.emit (some x)).app.prev (merged ++ [x]).reverse none := by
  have hnodup : merged.Nodup := by
    have hnodup := h.nodup
    rw [List.append_assoc] at hnodup
    exact (List.nodup_append.mp hnodup).1
  obtain ⟨a, hnext⟩ := h.merged_next
  refine ⟨?_, ?_, ⟨_, path_concat.mpr ⟨?_, rfl⟩⟩, ?_⟩
  · rw [SortState.emit_list, httail, htlist, h.tail, h.list]
    cases merged <;> simp
  · rw [SortState.emit_tail, List.getLast?_concat]
  · rw [SortState.emit_next, htnext, httail, h.tail]
    exact hnext.retarget hnodup
  · rw [SortState.emit_prev, htprev, httail, h.tail, List.reverse_append, List.reverse_singleton,
      List.singleton_append]
    refine ⟨?_, h.merged_prev.update fun hmem => hx (List.mem_reverse.mp hmem)⟩
    rw [write, Function.update_self, List.head?_reverse, Option.or_none]

/-- Taking an element of the first run. -/
lemma takeP (h : Merging s merged (x :: run) rest) :
    Merging (s.takeP.emit (some x)) (merged ++ [x]) run rest := by
  have hnodup := h.nodup
  have hsplit : merged ++ (x :: run) ++ rest = merged ++ (x :: (run ++ rest)) := by simp
  rw [hsplit, List.nodup_append, List.nodup_cons, List.mem_append, not_or] at hnodup
  obtain ⟨-, ⟨⟨hxrun, hxrest⟩, -⟩, hdisj⟩ := hnodup
  have hx : x ∉ merged := fun hmem => hdisj x hmem x List.mem_cons_self rfl
  obtain ⟨hlist, htail, hnext, hprev⟩ := h.merged_emit hx (t := s.takeP) rfl rfl rfl rfl
  obtain ⟨a, hfirst, hrun⟩ := h.run_next
  refine ⟨?_, ?_, fun hne => ?_, ?_, hlist, htail, hnext, hprev, ⟨a, ?_⟩, ?_⟩
  · simpa using h.nodup
  · rw [SortState.emit_psize]
    show s.psize - 1 = run.length
    rw [h.psize, List.length_cons, Nat.add_sub_cancel]
  · rw [SortState.emit_p]
    show s.p.bind s.app.next = run.head?
    rw [h.p (List.cons_ne_nil _ _), List.head?_cons, Option.bind_some, hfirst]
    cases run with
    | nil => exact absurd rfl hne
    | cons y run => rfl
  · rw [SortState.emit_q]
    exact h.q
  · rw [SortState.emit_next]
    show Path (write s.app.next s.tail (some x)) run a
    rw [h.tail]
    refine path_emit hrun fun y hy hmem => ?_
    exact hdisj y hy y (List.mem_cons_of_mem _ (List.mem_append_left _ hmem)) rfl
  · rw [SortState.emit_next]
    show Path (write s.app.next s.tail (some x)) rest none
    rw [h.tail]
    refine path_emit h.rest_next fun y hy hmem => ?_
    exact hdisj y hy y (List.mem_cons_of_mem _ (List.mem_append_right _ hmem)) rfl

/-- Taking an element of the second run. -/
lemma takeQ (h : Merging s merged run (x :: rest)) :
    Merging (s.takeQ.emit (some x)) (merged ++ [x]) run rest := by
  have hperm : (merged ++ run ++ x :: rest).Perm (merged ++ [x] ++ run ++ rest) := by
    simp only [List.append_assoc, List.singleton_append]
    exact List.perm_middle.append_left merged
  have hnodup := h.nodup
  rw [List.append_assoc, List.nodup_append, List.nodup_append] at hnodup
  obtain ⟨-, -, hdisj⟩ := hnodup
  have hx : x ∉ merged := fun hmem =>
    hdisj x hmem x (List.mem_append_right _ List.mem_cons_self) rfl
  obtain ⟨hlist, htail, hnext, hprev⟩ := h.merged_emit hx (t := s.takeQ) rfl rfl rfl rfl
  obtain ⟨a, hrun⟩ := h.run_next
  obtain ⟨hfirst, hrest⟩ := h.rest_next
  refine ⟨hperm.nodup_iff.mp h.nodup, ?_, fun hne => ?_, ?_, hlist, htail, hnext, hprev,
    ⟨a, ?_⟩, ?_⟩
  · rw [SortState.emit_psize]
    exact h.psize
  · rw [SortState.emit_p]
    exact h.p hne
  · rw [SortState.emit_q]
    show s.q.bind s.app.next = rest.head?
    rw [h.q, List.head?_cons, Option.bind_some, hfirst, Option.or_none]
  · rw [SortState.emit_next]
    show Path (write s.app.next s.tail (some x)) run a
    rw [h.tail]
    refine path_emit hrun fun y hy hmem => ?_
    exact hdisj y hy y (List.mem_append_left _ hmem) rfl
  · rw [SortState.emit_next]
    show Path (write s.app.next s.tail (some x)) rest none
    rw [h.tail]
    refine path_emit hrest fun y hy hmem => ?_
    exact hdisj y hy y (List.mem_append_right _ (List.mem_cons_of_mem _ hmem)) rfl

/-! ### The loops -/

variable (cmpfcn) in
/-- **The body of the merging loop** links the next element of the merge of the two runs behind the
merged ones. -/
lemma step (h : Merging s merged run rest)
    (hcond : s.psize ≠ 0 ∨ (s.qsize ≠ 0 ∧ s.q ≠ none)) :
    ∃ x run₁ rest₁, Merging (sortStep cmpfcn s) (merged ++ [x]) run₁ rest₁ ∧
      run.merge (rest.take s.qsize) (fun a b => cmpfcn a b ≤ 0) =
        x :: run₁.merge (rest₁.take (sortStep cmpfcn s).qsize) (fun a b => cmpfcn a b ≤ 0) ∧
      rest.drop s.qsize = rest₁.drop (sortStep cmpfcn s).qsize ∧
      run₁.length + (sortStep cmpfcn s).qsize < run.length + s.qsize := by
  cases run with
  | nil =>
    obtain ⟨hq, hrest⟩ := hcond.resolve_left fun hp => hp h.psize
    cases rest with
    | nil => exact absurd h.q hrest
    | cons y rest =>
      have hbody : sortStep cmpfcn s = s.takeQ.emit (some y) := by
        have hpsize : s.psize = 0 := h.psize
        rw [sortStep, if_pos hpsize, h.q, List.head?_cons]
      have hqsize : (s.takeQ.emit (some y)).qsize = s.qsize - 1 := SortState.emit_qsize _ _
      obtain ⟨m, hm⟩ := Nat.exists_eq_succ_of_ne_zero hq
      rw [hbody, hqsize, hm, Nat.succ_sub_one]
      refine ⟨y, [], rest, h.takeQ, ?_, rfl, ?_⟩
      · rw [List.take_succ_cons, List.nil_merge, List.nil_merge]
      · omega
  | cons x run =>
    have hp : s.p = some x := h.p (List.cons_ne_nil _ _)
    have hpsize : s.psize ≠ 0 := by
      rw [h.psize]
      exact Nat.succ_ne_zero _
    have htakeP : (s.takeP.emit (some x)).qsize = s.qsize := SortState.emit_qsize _ _
    have hfirst : sortStep cmpfcn s = s.takeP.emit (some x) →
        (x :: run).merge (rest.take s.qsize) (fun a b => cmpfcn a b ≤ 0) =
          x :: run.merge (rest.take s.qsize) (fun a b => cmpfcn a b ≤ 0) →
        ∃ z run₁ rest₁, Merging (sortStep cmpfcn s) (merged ++ [z]) run₁ rest₁ ∧
          (x :: run).merge (rest.take s.qsize) (fun a b => cmpfcn a b ≤ 0) =
            z :: run₁.merge (rest₁.take (sortStep cmpfcn s).qsize) (fun a b => cmpfcn a b ≤ 0) ∧
          rest.drop s.qsize = rest₁.drop (sortStep cmpfcn s).qsize ∧
          run₁.length + (sortStep cmpfcn s).qsize < (x :: run).length + s.qsize := by
      intro hbody hmerge
      rw [hbody, htakeP]
      refine ⟨x, run, rest, h.takeP, hmerge, rfl, ?_⟩
      rw [List.length_cons]
      omega
    by_cases hq : s.qsize = 0
    · apply hfirst
      · rw [sortStep, if_neg hpsize, if_pos hq, hp]
      · simp [hq]
    · cases rest with
      | nil =>
        apply hfirst
        · rw [sortStep, if_neg hpsize, if_neg hq, h.q, hp]
          rfl
        · simp
      | cons y rest =>
        obtain ⟨m, hm⟩ := Nat.exists_eq_succ_of_ne_zero hq
        have hbody : sortStep cmpfcn s =
            if cmpfcn x y ≤ 0 then s.takeP.emit (some x) else s.takeQ.emit (some y) := by
          rw [sortStep, if_neg hpsize, if_neg hq, h.q, hp]
          rfl
        by_cases hle : cmpfcn x y ≤ 0
        · apply hfirst
          · rw [hbody, if_pos hle]
          · rw [hm, List.take_succ_cons, List.cons_merge_cons, if_pos (decide_eq_true hle)]
        · have hqsize : (s.takeQ.emit (some y)).qsize = s.qsize - 1 := SortState.emit_qsize _ _
          rw [hbody, if_neg hle, hqsize, hm, Nat.succ_sub_one]
          refine ⟨y, x :: run, rest, h.takeQ, ?_, rfl, ?_⟩
          · rw [List.take_succ_cons, List.cons_merge_cons, if_neg (by simpa using hle)]
          · omega

variable (cmpfcn) in
/-- **A merge of two runs ends, and merges them.** -/
lemma merge (h : Merging s merged run rest) {fuel : ℕ} (hfuel : run.length + s.qsize ≤ fuel) :
    ∃ s', sortMerge cmpfcn fuel s = some s' ∧
      Merging s' (merged ++ run.merge (rest.take s.qsize) fun a b => cmpfcn a b ≤ 0) []
        (rest.drop s.qsize) := by
  induction fuel generalizing s merged run rest with
  | zero =>
    obtain rfl : run = [] := List.eq_nil_of_length_eq_zero (by omega)
    have hqsize : s.qsize = 0 := by omega
    refine ⟨s, ?_, by simpa [hqsize] using h⟩
    rw [sortMerge, if_neg]
    rintro (hp | ⟨hq, -⟩)
    · exact hp h.psize
    · exact hq hqsize
  | succ fuel ih =>
    by_cases hcond : s.psize ≠ 0 ∨ (s.qsize ≠ 0 ∧ s.q ≠ none)
    · obtain ⟨x, run₁, rest₁, h₁, hmerge, hdrop, hless⟩ := h.step cmpfcn hcond
      obtain ⟨s', heq, h'⟩ := ih h₁ (by omega)
      refine ⟨s', ?_, ?_⟩
      · rw [sortMerge, if_pos hcond]
        exact heq
      · rw [hmerge, hdrop]
        simpa using h'
    · refine ⟨s, ?_, ?_⟩
      · rw [sortMerge, if_neg hcond]
      · rw [not_or, not_not, not_and_or, not_not, not_not] at hcond
        obtain rfl : run = [] := List.eq_nil_of_length_eq_zero (h.psize.symm.trans hcond.1)
        rcases hcond.2 with hq | hq
        · simpa [hq] using h
        · obtain rfl : rest = [] := List.head?_eq_none_iff.mp (h.q.symm.trans hq)
          simpa using h

omit [DecidableEq ι] in
/-- Skipping a run: its size, and the element behind it. -/
lemma skip {next : ι → Option ι} (h : Path next l none) (hne : l ≠ []) (insize psize : ℕ) :
    sortSkip next insize l.head? psize =
      (psize + (l.take insize).length, (l.drop insize).head?) := by
  induction insize generalizing l psize with
  | zero => rfl
  | succ insize ih =>
    obtain ⟨x, l, rfl⟩ := List.exists_cons_of_ne_nil hne
    obtain ⟨hx, hl⟩ := h
    rw [List.head?_cons, sortSkip, Option.bind_some, hx, Option.or_none]
    cases l with
    | nil => simp
    | cons y l =>
      have hskip := ih hl (List.cons_ne_nil y l) (psize + 1)
      rw [List.head?_cons] at hskip ⊢
      dsimp only
      rw [hskip, List.take_succ_cons, List.drop_succ_cons, List.length_cons, Prod.mk.injEq]
      exact ⟨by omega, rfl⟩

omit [DecidableEq ι] in
/-- How many parts of `m` elements there are: one more than without the first `m` elements. -/
lemma ceilDiv_eq_succ {m n : ℕ} (hm : 0 < m) (hn : 0 < n) :
    (n + (m - 1)) / m = (n - m + (m - 1)) / m + 1 := by
  rcases Nat.lt_or_ge n m with hlt | hge
  · rw [Nat.sub_eq_zero_of_le hlt.le, Nat.zero_add, Nat.div_eq_of_lt (by omega : m - 1 < m),
      Nat.div_eq_iff hm]
    omega
  · rw [← Nat.add_div_right _ hm]
    congr 1
    omega

variable (cmpfcn) in
/-- **A pass merges neighbouring runs**, and counts the merges. -/
lemma pass (h : Merging s merged [] rest) (hp : s.p = rest.head?) {insize : ℕ} (hk : 0 < insize)
    {fuel : ℕ} (hfuel : rest.length ≤ fuel) (nmerges : ℕ) :
    ∃ s', sortPass cmpfcn insize fuel s nmerges =
        some (s', nmerges + (rest.length + (2 * insize - 1)) / (2 * insize)) ∧
      Merging s' (merged ++ mergePass (fun a b => cmpfcn a b ≤ 0) insize rest) [] [] := by
  induction fuel generalizing s merged rest nmerges with
  | zero =>
    obtain rfl : rest = [] := List.eq_nil_of_length_eq_zero (by omega)
    refine ⟨s, ?_, by simpa using h⟩
    rw [sortPass, hp, List.length_nil, Nat.div_eq_of_lt (by omega)]
    rfl
  | succ fuel ih =>
    cases rest with
    | nil =>
      refine ⟨s, ?_, by simpa using h⟩
      rw [sortPass, hp, List.length_nil, Nat.div_eq_of_lt (by omega)]
      rfl
    | cons x rest =>
      have hsplit : (x :: rest).take insize ++ (x :: rest).drop insize = x :: rest :=
        List.take_append_drop _ _
      have hruns : Merging { s with
          q := ((x :: rest).drop insize).head?
          psize := ((x :: rest).take insize).length
          qsize := insize } merged ((x :: rest).take insize) ((x :: rest).drop insize) := by
        have hnext := h.rest_next
        rw [← hsplit, path_append] at hnext
        refine ⟨?_, rfl, fun _ => ?_, rfl, h.list, h.tail, h.merged_next, h.merged_prev,
          ⟨_, hnext.1⟩, hnext.2⟩
        · rw [List.append_assoc, hsplit]
          simpa using h.nodup
        · show s.p = _
          rw [hp, List.head?_take, if_neg (by omega)]
      obtain ⟨s₁, heq₁, h₁⟩ := hruns.merge cmpfcn le_rfl
      have hnew : Merging { s₁ with p := s₁.q } _ [] _ :=
        ⟨h₁.nodup, h₁.psize, fun hne => absurd rfl hne, h₁.q, h₁.list, h₁.tail, h₁.merged_next,
          h₁.merged_prev, h₁.run_next, h₁.rest_next⟩
      obtain ⟨s', heq, h'⟩ := ih hnew h₁.q (by
        simp only [List.length_drop, List.length_cons] at hfuel ⊢
        omega) (nmerges + 1)
      refine ⟨s', ?_, ?_⟩
      · have hskip := skip h.rest_next (List.cons_ne_nil x rest) insize 0
        rw [Nat.zero_add, List.head?_cons] at hskip
        rw [hp, List.head?_cons] at heq₁
        dsimp only at heq₁
        rw [sortPass, hp, List.head?_cons]
        dsimp only
        rw [hskip]
        dsimp only
        rw [heq₁, Option.bind_some, heq, ceilDiv_eq_succ (by omega) (List.length_pos_of_ne_nil
          (List.cons_ne_nil x rest)), List.length_drop, List.length_drop, Nat.sub_sub,
          show insize + insize = 2 * insize by omega, Nat.add_assoc, Nat.add_comm 1]
      · rw [mergePass_of_ne_nil hk (List.cons_ne_nil x rest), ← List.append_assoc]
        exact h'

end Merging

omit [DecidableEq ι] in
/-- A pass begins with nothing merged. -/
lemma merging_start {app : Links ι} (h : Path app.next l none) :
    Merging ⟨app, l.head?, l.head?, 0, 0, none, none⟩ [] [] l :=
  ⟨by simpa using h.nodup, rfl, fun hne => absurd rfl hne, rfl, rfl, rfl, ⟨none, trivial⟩, trivial,
    ⟨none, trivial⟩, h⟩

/-- What `q` is before a pass does not matter. -/
lemma sortPass_q {insize fuel nmerges : ℕ} (hp : s.p = some x) (q : Option ι) :
    sortPass cmpfcn insize (fuel + 1) { s with q := q } nmerges =
      sortPass cmpfcn insize (fuel + 1) s nmerges := by
  rw [sortPass, sortPass, hp]

variable (cmpfcn) in
/-- **One pass over the links of a list**: the links after it are those of the merged list. -/
lemma sortPass_start {app : Links ι} (h : Path app.next l none) (hne : l ≠ []) {insize : ℕ}
    (hk : 0 < insize) {numItems : ℕ} (hitems : l.length ≤ numItems) :
    ∃ s, sortPass cmpfcn insize numItems ⟨app, l.head?, none, 0, 0, none, none⟩ 0 =
        some (s, (l.length + (2 * insize - 1)) / (2 * insize)) ∧
      s.list = (mergePass (fun a b => cmpfcn a b ≤ 0) insize l).head? ∧
      s.tail = (mergePass (fun a b => cmpfcn a b ≤ 0) insize l).getLast? ∧
      Linked { s.app with next := write s.app.next s.tail none }
        (mergePass (fun a b => cmpfcn a b ≤ 0) insize l) := by
  obtain ⟨s, heq, hs⟩ := (merging_start h).pass cmpfcn rfl hk hitems 0
  obtain ⟨x, l, rfl⟩ := List.exists_cons_of_ne_nil hne
  obtain ⟨fuel, rfl⟩ := Nat.exists_eq_succ_of_ne_zero (Nat.ne_zero_of_lt hitems)
  rw [List.nil_append] at hs
  refine ⟨s, ?_, hs.list, hs.tail, ?_, hs.merged_prev⟩
  · rw [← sortPass_q rfl (x :: l).head?, heq, Nat.zero_add]
  · obtain ⟨a, hnext⟩ := hs.merged_next
    have hnodup := hs.nodup
    rw [List.append_nil, List.append_nil] at hnodup
    show Path (write s.app.next s.tail none) _ none
    rw [hs.tail]
    exact hnext.retarget hnodup

/-- The number of merges tells whether the runs of a pass cover the list. -/
lemma ceilDiv_le_one {m n : ℕ} (hm : 0 < m) : (n + (m - 1)) / m ≤ 1 ↔ n ≤ m := by
  rw [← Nat.lt_succ_iff, Nat.div_lt_iff_lt_mul hm]
  omega

variable (cmpfcn) in
/-- A pass, and whether it is the last one. -/
lemma sortLoop_succ {app : Links ι} (h : Path app.next l none) (hne : l ≠ []) {insize : ℕ}
    (hk : 0 < insize) {numItems : ℕ} (hitems : l.length ≤ numItems) (fuel : ℕ) :
    ∃ app', Linked app' (mergePass (fun a b => cmpfcn a b ≤ 0) insize l) ∧
      sortLoop cmpfcn numItems (fuel + 1) insize app l.head? =
        if l.length ≤ 2 * insize then
          some (app', (mergePass (fun a b => cmpfcn a b ≤ 0) insize l).head?,
            (mergePass (fun a b => cmpfcn a b ≤ 0) insize l).getLast?)
        else sortLoop cmpfcn numItems fuel (insize * 2) app'
          (mergePass (fun a b => cmpfcn a b ≤ 0) insize l).head? := by
  obtain ⟨s, heq, hlist, htail, hlinked⟩ := sortPass_start cmpfcn h hne hk hitems
  refine ⟨_, hlinked, ?_⟩
  rw [sortLoop, heq, Option.bind_some, ← hlist, ← htail]
  dsimp only
  simp only [ceilDiv_le_one (show 0 < 2 * insize by omega)]

omit [DecidableEq ι] in
/-- The comparison function orders the elements, with ties. -/
structure Orders (cmpfcn : ι → ι → ℤ) : Prop where
  trans : ∀ a b c, cmpfcn a b ≤ 0 → cmpfcn b c ≤ 0 → cmpfcn a c ≤ 0
  total : ∀ a b, cmpfcn a b ≤ 0 ∨ cmpfcn b a ≤ 0

omit [DecidableEq ι] in
/-- Sorted runs of a list after a pass, for a comparison function that orders the elements. -/
lemma Orders.mergePass (hcmp : Orders cmpfcn) {insize : ℕ} (hk : 0 < insize) (l₀ : List ι) :
    BottomUpSort.mergePass (fun a b => cmpfcn a b ≤ 0) insize
        (sortRuns (fun a b => cmpfcn a b ≤ 0) insize l₀) =
      sortRuns (fun a b => cmpfcn a b ≤ 0) (insize + insize) l₀ := by
  apply mergePass_sortRuns _ _ hk
  · simpa only [decide_eq_true_eq] using hcmp.trans
  · simpa only [Bool.or_eq_true, decide_eq_true_eq] using hcmp.total

omit [DecidableEq ι] in
/-- A pass over sorted runs that covers the list with two of them sorts it. -/
lemma Orders.mergePass_last (hcmp : Orders cmpfcn) {insize : ℕ} (hk : 0 < insize) {l₀ : List ι}
    (hle : (sortRuns (fun a b => cmpfcn a b ≤ 0) insize l₀).length ≤ 2 * insize) :
    BottomUpSort.mergePass (fun a b => cmpfcn a b ≤ 0) insize
        (sortRuns (fun a b => cmpfcn a b ≤ 0) insize l₀) =
      l₀.mergeSort fun a b => cmpfcn a b ≤ 0 := by
  rw [length_sortRuns] at hle
  rw [hcmp.mergePass hk, sortRuns_of_length_le (by omega)]

variable (cmpfcn) in
/-- **The passes end**, and keep the elements. If the runs of a list were sorted before, the list is
sorted after them. -/
lemma sortLoop_spec {app : Links ι} (h : Path app.next l none) (hne : l ≠ []) {insize : ℕ}
    (hk : 0 < insize) {numItems : ℕ} (hitems : l.length ≤ numItems) {fuel : ℕ}
    (hfuel : l.length ≤ 2 * insize * 2 ^ fuel) :
    ∃ app' l', sortLoop cmpfcn numItems (fuel + 1) insize app l.head? =
        some (app', l'.head?, l'.getLast?) ∧ Linked app' l' ∧ l'.Perm l ∧
      (Orders cmpfcn → ∀ l₀, l = sortRuns (fun a b => cmpfcn a b ≤ 0) insize l₀ →
        l' = l₀.mergeSort fun a b => cmpfcn a b ≤ 0) := by
  induction fuel generalizing app l insize with
  | zero =>
    obtain ⟨app', hlinked, heq⟩ := sortLoop_succ cmpfcn h hne hk hitems 0
    have hle : l.length ≤ 2 * insize := by omega
    rw [if_pos hle] at heq
    refine ⟨app', _, heq, hlinked, mergePass_perm, ?_⟩
    rintro hcmp l₀ rfl
    exact hcmp.mergePass_last hk hle
  | succ fuel ih =>
    obtain ⟨app', hlinked, heq⟩ := sortLoop_succ cmpfcn h hne hk hitems (fuel + 1)
    by_cases hle : l.length ≤ 2 * insize
    · rw [if_pos hle] at heq
      refine ⟨app', _, heq, hlinked, mergePass_perm, ?_⟩
      rintro hcmp l₀ rfl
      exact hcmp.mergePass_last hk hle
    · rw [if_neg hle] at heq
      have hperm : (mergePass (fun a b => decide (cmpfcn a b ≤ 0)) insize l).Perm l :=
        mergePass_perm
      have hne' : mergePass (fun a b => decide (cmpfcn a b ≤ 0)) insize l ≠ [] := by
        intro hnil
        rw [hnil] at hperm
        exact hne hperm.symm.eq_nil
      have hfuel' : l.length ≤ 2 * (insize * 2) * 2 ^ fuel := by
        rw [pow_succ] at hfuel
        calc l.length ≤ 2 * insize * (2 ^ fuel * 2) := hfuel
          _ = 2 * (insize * 2) * 2 ^ fuel := by ring
      obtain ⟨app'', l', heq', hlinked', hperm', hsorted⟩ := ih hlinked.next hne' (by omega)
        (hperm.length_eq.trans_le hitems) (hperm.length_eq.trans_le hfuel')
      refine ⟨app'', l', heq.trans heq', hlinked', hperm'.trans hperm, fun hcmp l₀ hruns => ?_⟩
      apply hsorted hcmp l₀
      rw [hruns, hcmp.mergePass hk, mul_two]

/-! ### The table -/

variable {hashFcn : CStr → UInt32} {h : UtHash ι} {elems : List ι}

/-- **Sorting a table** ends and keeps the elements, with any comparison function. If the function
orders the elements, the table is sorted stably. -/
lemma UtHash.Represents.sort (hrep : h.Represents hashFcn elems) (cmpfcn : ι → ι → ℤ) :
    ∃ h' elems', hashSrt cmpfcn h = some h' ∧ h'.Represents hashFcn elems' ∧
      elems'.Perm elems ∧ h'.hh.key = h.hh.key ∧
      (Orders cmpfcn → elems' = elems.mergeSort fun a b => cmpfcn a b ≤ 0) := by
  rcases elems with - | ⟨x₀, elems⟩
  · refine ⟨h, [], ?_, hrep, List.Perm.refl _, rfl, fun _ => by simp⟩
    rw [hashSrt, hrep.head]
    rfl
  · have hne : x₀ :: elems ≠ [] := List.cons_ne_nil _ _
    have htbl := hrep.tbl hne
    obtain ⟨chains, hchained⟩ := htbl.chained
    have hpow : (x₀ :: elems).length ≤ 2 * 1 * 2 ^ h.tbl.numItems := by
      rw [htbl.numItems, mul_one, ← pow_succ']
      exact (Nat.lt_two_pow_self).le.trans (Nat.pow_le_pow_right (by omega) (by omega))
    obtain ⟨app', elems', heq, hlinked, hperm, hsorted⟩ := sortLoop_spec cmpfcn
      hrep.app.next hne one_pos htbl.numItems.ge hpow
    have hset : {x | x ∈ x₀ :: elems} = {x | x ∈ elems'} := Set.ext fun x => hperm.mem_iff.symm
    refine ⟨⟨elems'.head?, { h.tbl with tail := elems'.getLast? }, { h.hh with app := app' }⟩,
      elems', ?_, ⟨rfl, hlinked, fun _ =>
        ⟨rfl, htbl.numItems.trans hperm.length_eq.symm, htbl.numBuckets,
        ⟨chains, hset ▸ hchained⟩, fun x hx => htbl.hashv x (hperm.mem_iff.mp hx)⟩,
        fun _ => hrep.bounded hne⟩, hperm, rfl, fun hcmp => hsorted hcmp _ sortRuns_one.symm⟩
    rw [hashSrt, hrep.head]
    dsimp only [List.head?_cons]
    rw [List.head?_cons] at heq
    rw [heq]
    rfl

end FailureDetector
