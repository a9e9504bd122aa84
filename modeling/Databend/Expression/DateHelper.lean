import Mathlib

namespace Databend.Expression

-- an `i64` result of `+`, `*`, unary `-` or `wrapping_add` with overflow checks off: the exact
-- value modulo 2^64, read in two's complement
def wrap64 (x : Int) : Int := x.bmod (2 ^ 64)

theorem wrap64_spec (x : Int) : ∃ q : Int, wrap64 x = x - 2 ^ 64 * q ∧ -2 ^ 63 ≤ wrap64 x ∧ wrap64 x < 2 ^ 63 := by
  refine ⟨x.bdiv (2 ^ 64), ?_, ?_, ?_⟩
  · rw [wrap64, Int.bmod_eq_self_sub_mul_bdiv]
    norm_num
  · have := Int.le_bmod (x := x) (m := 2 ^ 64) (by norm_num)
    simp only [wrap64]
    omega
  · have := Int.bmod_lt (x := x) (m := 2 ^ 64) (by norm_num)
    simp only [wrap64]
    omega

theorem wrap64_of_mem {x : Int} (h1 : -2 ^ 63 ≤ x) (h2 : x < 2 ^ 63) : wrap64 x = x := by
  obtain ⟨q, hq, hlo, hhi⟩ := wrap64_spec x
  -- the multiple of 2^64 taken off is zero
  have hq0 : q = 0 := by omega
  rw [hq, hq0]
  ring

theorem wrap64_mul_wrap (x y : Int) : wrap64 (wrap64 x * y) = wrap64 (x * y) := by
  simp only [wrap64, Int.bmod_mul_bmod]

section Ranges

def DATE_MIN : Int := -354285
def DATE_MAX : Int := 2932896

def check_date (days : Int) : Except String Int :=
  if DATE_MIN ≤ days ∧ days ≤ DATE_MAX then .ok days else .error "date is out of range"

def TIMESTAMP_MIN : Int := -30610224000000000
def TIMESTAMP_MAX : Int := 253402300799999999

def check_timestamp (micros : Int) : Except String Int :=
  if TIMESTAMP_MIN ≤ micros ∧ micros ≤ TIMESTAMP_MAX then .ok micros else .error "timestamp is out of range"

def MICROS_IN_A_SEC : Int := 1000000

def FACTOR_HOUR : Int := 3600
def FACTOR_MINUTE : Int := 60
def FACTOR_SECOND : Int := 1

end Ranges

section Arith

-- `AddDaysImpl::eval_date`: `(date as i64).wrapping_add(delta)`
def AddDaysImpl.eval_date (date delta : Int) : Except String Int :=
  check_date (wrap64 (date + delta))

-- `AddDaysImpl::eval_timestamp`: `date.wrapping_add(delta * 24 * 3600 * MICROS_IN_A_SEC)`
def AddDaysImpl.eval_timestamp (date delta : Int) : Except String Int :=
  check_timestamp (wrap64 (date + wrap64 (wrap64 (wrap64 (delta * 24) * 3600) * MICROS_IN_A_SEC)))

-- `AddTimesImpl::eval_timestamp`: `us.wrapping_add(delta * factor * MICROS_IN_A_SEC)`
def AddTimesImpl.eval_timestamp (us delta factor : Int) : Except String Int :=
  check_timestamp (wrap64 (us + wrap64 (wrap64 (delta * factor) * MICROS_IN_A_SEC)))

def signed_ident (delta : Int) : Int := wrap64 (-delta)

def unsigned_ident (delta : Int) : Int := delta

def add_days_date (wrapper : Int → Int) (date delta : Int) : Except String Int :=
  AddDaysImpl.eval_date date (wrapper delta)

def add_days_timestamp (wrapper : Int → Int) (ts delta : Int) : Except String Int :=
  AddDaysImpl.eval_timestamp ts (wrapper delta)

def add_times_timestamp (wrapper : Int → Int) (factor ts delta : Int) : Except String Int :=
  AddTimesImpl.eval_timestamp ts (wrapper delta) factor

def add_times_date (wrapper : Int → Int) (factor date delta : Int) : Except String Int :=
  let val := wrap64 (wrap64 (wrap64 (date * 24) * 3600) * MICROS_IN_A_SEC)
  AddTimesImpl.eval_timestamp val (wrapper delta) factor

end Arith

section Exact

theorem days_micros_eq (delta : Int) :
    wrap64 (wrap64 (wrap64 (delta * 24) * 3600) * MICROS_IN_A_SEC) = wrap64 (delta * 86400000000) := by
  rw [wrap64_mul_wrap, mul_assoc, wrap64_mul_wrap, MICROS_IN_A_SEC]
  ring_nf

theorem check_wrap64_add {lo hi a b : Int} (hlo : -2 ^ 62 ≤ lo) (hhi : hi < 2 ^ 62)
    (ha : -2 ^ 62 ≤ a ∧ a < 2 ^ 62) (hb : -2 ^ 63 ≤ b ∧ b < 2 ^ 63) :
    (lo ≤ wrap64 (a + b) ∧ wrap64 (a + b) ≤ hi) ↔ (lo ≤ a + b ∧ a + b ≤ hi) := by
  obtain ⟨q, hq, h1, h2⟩ := wrap64_spec (a + b)
  -- the sum is at most one wrap away: `q` is -1, 0 or 1
  have hq1 : q = -1 ∨ q = 0 ∨ q = 1 := by omega
  rcases hq1 with rfl | rfl | rfl <;> omega

theorem check_date_congr {x y : Int} (h : (DATE_MIN ≤ x ∧ x ≤ DATE_MAX) ↔ (DATE_MIN ≤ y ∧ y ≤ DATE_MAX))
    (hxy : DATE_MIN ≤ x ∧ x ≤ DATE_MAX → x = y) : check_date x = check_date y := by
  unfold check_date
  by_cases hx : DATE_MIN ≤ x ∧ x ≤ DATE_MAX
  · rw [if_pos hx, if_pos (h.mp hx), hxy hx]
  · rw [if_neg hx, if_neg (fun hy => hx (h.mpr hy))]

theorem check_timestamp_congr {x y : Int}
    (h : (TIMESTAMP_MIN ≤ x ∧ x ≤ TIMESTAMP_MAX) ↔ (TIMESTAMP_MIN ≤ y ∧ y ≤ TIMESTAMP_MAX))
    (hxy : TIMESTAMP_MIN ≤ x ∧ x ≤ TIMESTAMP_MAX → x = y) : check_timestamp x = check_timestamp y := by
  unfold check_timestamp
  by_cases hx : TIMESTAMP_MIN ≤ x ∧ x ≤ TIMESTAMP_MAX
  · rw [if_pos hx, if_pos (h.mp hx), hxy hx]
  · rw [if_neg hx, if_neg (fun hy => hx (h.mpr hy))]

theorem check_date_wrap64_add {date x : Int} (hdate : DATE_MIN ≤ date ∧ date ≤ DATE_MAX)
    (hx : -2 ^ 63 ≤ x ∧ x < 2 ^ 63) : check_date (wrap64 (date + x)) = check_date (date + x) := by
  have hmin : DATE_MIN = -354285 := rfl
  have hmax : DATE_MAX = 2932896 := rfl
  have hiff := @check_wrap64_add DATE_MIN DATE_MAX date x (by omega) (by omega) (by omega) hx
  refine check_date_congr hiff fun hin => ?_
  have hin' := hiff.mp hin
  exact wrap64_of_mem (by omega) (by omega)

theorem check_timestamp_wrap64_add {ts x : Int} (hts : TIMESTAMP_MIN ≤ ts ∧ ts ≤ TIMESTAMP_MAX)
    (hx : -2 ^ 63 ≤ x ∧ x < 2 ^ 63) : check_timestamp (wrap64 (ts + x)) = check_timestamp (ts + x) := by
  have hmin : TIMESTAMP_MIN = -30610224000000000 := rfl
  have hmax : TIMESTAMP_MAX = 253402300799999999 := rfl
  have hiff := @check_wrap64_add TIMESTAMP_MIN TIMESTAMP_MAX ts x (by omega) (by omega) (by omega) hx
  refine check_timestamp_congr hiff fun hin => ?_
  have hin' := hiff.mp hin
  exact wrap64_of_mem (by omega) (by omega)

theorem add_days_date_exact {date delta : Int} (hdate : DATE_MIN ≤ date ∧ date ≤ DATE_MAX)
    (hdelta : -2 ^ 63 ≤ delta ∧ delta < 2 ^ 63) :
    add_days_date unsigned_ident date delta = check_date (date + delta) ∧
      add_days_date signed_ident date delta = check_date (date - delta) := by
  refine ⟨check_date_wrap64_add hdate hdelta, ?_⟩
  -- the negated delta wraps only at `i64::MIN`, where both sides are out of range
  show check_date (wrap64 (date + wrap64 (-delta))) = check_date (date - delta)
  obtain ⟨q, hq, h1, h2⟩ := wrap64_spec (-delta)
  rw [check_date_wrap64_add hdate ⟨h1, h2⟩]
  have hmin : DATE_MIN = -354285 := rfl
  have hmax : DATE_MAX = 2932896 := rfl
  have hq1 : q = 0 ∨ q = 1 := by omega
  rcases hq1 with rfl | rfl
  · rw [hq]
    ring_nf
  · refine check_date_congr (by omega) fun hin => ?_
    omega

theorem add_days_date_exact_max_delta :
    add_days_date unsigned_ident 0 (2 ^ 63 - 1) = check_date (0 + (2 ^ 63 - 1)) ∧
      add_days_date signed_ident 0 (2 ^ 63 - 1) = check_date (0 - (2 ^ 63 - 1)) :=
  add_days_date_exact ⟨by decide, by decide⟩ ⟨by decide, by decide⟩

theorem add_times_timestamp_exact {factor ts delta : Int} (hts : TIMESTAMP_MIN ≤ ts ∧ ts ≤ TIMESTAMP_MAX)
    (hfit : -2 ^ 63 ≤ delta * factor * 1000000 ∧ delta * factor * 1000000 < 2 ^ 63) :
    add_times_timestamp unsigned_ident factor ts delta = check_timestamp (ts + delta * factor * 1000000) := by
  show check_timestamp (wrap64 (ts + wrap64 (wrap64 (delta * factor) * MICROS_IN_A_SEC))) = _
  rw [wrap64_mul_wrap, MICROS_IN_A_SEC, wrap64_of_mem hfit.1 hfit.2]
  exact check_timestamp_wrap64_add hts hfit

theorem add_days_timestamp_exact {ts delta : Int} (hts : TIMESTAMP_MIN ≤ ts ∧ ts ≤ TIMESTAMP_MAX)
    (hfit : -2 ^ 63 ≤ delta * 86400000000 ∧ delta * 86400000000 < 2 ^ 63) :
    add_days_timestamp unsigned_ident ts delta = check_timestamp (ts + delta * 86400000000) := by
  show check_timestamp (wrap64 (ts + wrap64 (wrap64 (wrap64 (delta * 24) * 3600) * MICROS_IN_A_SEC))) = _
  rw [days_micros_eq, wrap64_of_mem hfit.1 hfit.2]
  exact check_timestamp_wrap64_add hts hfit

theorem add_timestamp_exact {ts : Int} (hts : TIMESTAMP_MIN ≤ ts ∧ ts ≤ TIMESTAMP_MAX) :
    (∀ factor delta, -2 ^ 63 ≤ delta * factor * 1000000 ∧ delta * factor * 1000000 < 2 ^ 63 →
      add_times_timestamp unsigned_ident factor ts delta = check_timestamp (ts + delta * factor * 1000000)) ∧
    (∀ delta, -2 ^ 63 ≤ delta * 86400000000 ∧ delta * 86400000000 < 2 ^ 63 →
      add_days_timestamp unsigned_ident ts delta = check_timestamp (ts + delta * 86400000000)) :=
  ⟨fun _ _ hfit => add_times_timestamp_exact hts hfit, fun _ hfit => add_days_timestamp_exact hts hfit⟩

theorem add_timestamp_exact_max :
    add_times_timestamp unsigned_ident FACTOR_HOUR TIMESTAMP_MAX 1 =
        check_timestamp (TIMESTAMP_MAX + 1 * FACTOR_HOUR * 1000000) ∧
      add_days_timestamp unsigned_ident TIMESTAMP_MAX (-1) = check_timestamp (TIMESTAMP_MAX + -1 * 86400000000) :=
  ⟨(add_timestamp_exact ⟨by decide, le_rfl⟩).1 _ _ (by decide),
    (add_timestamp_exact ⟨by decide, le_rfl⟩).2 _ (by decide)⟩

theorem add_days_timestamp_wraps :
    add_days_timestamp unsigned_ident 0 (2 ^ 51) = .ok 0 ∧
      check_timestamp (0 + 2 ^ 51 * 86400000000) = .error "timestamp is out of range" := by
  constructor <;> decide

end Exact

end Databend.Expression
