import AgoricSdk.Timer.Numbers

/-!
Repeating events are counted from their start. The time of the latest event is computed
in integers of any size, its count in floating-point numbers.
-/

namespace AgoricSdk.Timer

structure Occurrence where
  time : ℕ
  count : ℤ
  deriving DecidableEq

structure Measure where
  latest : Option Occurrence
  next : Occurrence
  deriving DecidableEq

/-- The remainder of integers, which throws for a zero divisor. -/
def bigIntMod (a b : ℕ) : Option ℕ := if b = 0 then none else some (a % b)

/-- The number of events at or before `now`. -/
def latestCount (start interval now : ℕ) : Option ℤ := do
  let age := (Number.ofBigInt now).sub (.ofBigInt start)
  return (← (age.div (.ofBigInt interval)).floor.toBigInt) + 1

def measureInterval (start interval now : ℕ) : Option Measure :=
  if start ≤ now then do
    let latestTime := now - (← bigIntMod (now - start) interval)
    let latestCount ← latestCount start interval now
    return {
      latest := some { time := latestTime, count := latestCount }
      next := { time := latestTime + interval, count := latestCount + 1 } }
  else some { latest := none, next := { time := start, count := 1 } }

/-- The occurrence of a count falls on its own time. -/
def Occurrence.OnSchedule (start interval : ℕ) (o : Occurrence) : Prop :=
  1 ≤ o.count ∧ (o.time : ℤ) = start + (o.count - 1) * interval

structure Measure.Exact (start interval now : ℕ) (m : Measure) : Prop where
  latest_none : m.latest = none ↔ now < start
  latest (o : Occurrence) (h : m.latest = some o) :
    o.OnSchedule start interval ∧ o.time ≤ now ∧ m.next.count = o.count + 1
  next : m.next.OnSchedule start interval ∧ now < m.next.time

def MeasuredExactly (start interval now : ℕ) : Prop :=
  ∃ m, measureInterval start interval now = some m ∧ m.Exact start interval now

theorem Number.floor_div {a d : ℕ} (ha : a ≤ 2 ^ 53) (hd : 0 < d) :
    (Number.div (.finite a) (.finite d)).floor = .finite (a / d : ℕ) := by
  have hdQ : (0 : ℚ) < d := Nat.cast_pos.mpr hd
  rw [Number.div, if_neg hdQ.ne']
  rcases Nat.eq_zero_or_pos a with rfl | hpos
  · rw [Nat.cast_zero, zero_div, Number.ofRat_zero]
    simp [Number.floor]
  · have hq : (0 : ℚ) < a / d := div_pos (Nat.cast_pos.mpr hpos) hdQ
    have hqle : (a : ℚ) / d ≤ 2 ^ 53 := by
      rw [div_le_iff₀ hdQ]
      have hmul : a ≤ 2 ^ 53 * d := ha.trans (Nat.le_mul_of_pos_right _ hd)
      exact_mod_cast hmul
    have hfloor := BinaryFormat.floor_round_div (F := binary64) (a := a) (b := d) ha hd
    rw [Number.ofRat_of_le hq hqle, Number.floor, ← hfloor,
      natCast_floor_eq_intCast_floor (BinaryFormat.round_nonneg _)]

theorem floor_age_div {start interval now : ℕ} (hinterval : 0 < interval) (hle : start ≤ now)
    (hnow : now < 2 ^ 53) :
    (((Number.ofBigInt now).sub (.ofBigInt start)).div (.ofBigInt interval)).floor =
      .finite ((now - start) / interval : ℕ) := by
  have hage : (Number.ofBigInt now).sub (.ofBigInt start) = .finite (now - start : ℕ) := by
    have hsub := Number.ofBigInt_natCast (n := now - start) (by omega)
    rw [Number.ofBigInt, Int.cast_natCast] at hsub
    rw [Number.ofBigInt_natCast hnow.le, Number.ofBigInt_natCast (by omega), Number.sub,
      ← Nat.cast_sub hle, hsub]
  rw [hage]
  rcases le_or_gt interval (2 ^ 53) with hsmall | hlarge
  · rw [Number.ofBigInt_natCast hsmall]
    exact Number.floor_div (by omega) hinterval
  · -- the latest occurrence is the first, whatever becomes of the interval
    have hzero : (now - start) / interval = 0 := Nat.div_eq_of_lt (by omega)
    rw [hzero]
    rcases Number.ofBigInt_large hlarge with hinfinity | ⟨m, hm, hfinite⟩
    · rw [hinfinity]
      simp [Number.div, Number.floor]
    · rw [hfinite, Number.floor_div (by omega) (by omega), Nat.div_eq_of_lt (by omega)]

theorem latestCount_eq {start interval now : ℕ} (hinterval : 0 < interval) (hle : start ≤ now)
    (hnow : now < 2 ^ 53) :
    latestCount start interval now = some (((now - start) / interval : ℕ) + 1) := by
  rw [latestCount, floor_age_div hinterval hle hnow]
  rfl

theorem Measure.exact_of_latest {start interval now k : ℕ} (hle : start + k * interval ≤ now)
    (hlt : now < start + k * interval + interval) :
    Measure.Exact start interval now {
      latest := some { time := start + k * interval, count := k + 1 }
      next := { time := start + k * interval + interval, count := k + 1 + 1 } } := by
  have hk : (0 : ℤ) ≤ k := Int.natCast_nonneg k
  constructor
  · have hstart : ¬ now < start := by
      have hmul := Nat.zero_le (k * interval)
      omega
    simpa using hstart
  · rintro o ⟨⟩
    refine ⟨⟨by dsimp only; omega, ?_⟩, hle, rfl⟩
    push_cast
    ring
  · refine ⟨⟨by dsimp only; omega, ?_⟩, hlt⟩
    push_cast
    ring

theorem measureInterval_exact {start interval now : ℕ} (hinterval : 0 < interval)
    (hnow : now < 2 ^ 53) : MeasuredExactly start interval now := by
  unfold MeasuredExactly measureInterval
  split
  case isFalse hlt =>
    refine ⟨_, rfl, ?_⟩
    constructor
    · simpa using hlt
    · exact nofun
    · refine ⟨⟨le_rfl, ?_⟩, not_le.mp hlt⟩
      simp
  case isTrue hle =>
    rw [bigIntMod, if_neg hinterval.ne', latestCount_eq hinterval hle hnow]
    have hdivmod := Nat.div_add_mod (now - start) interval
    have hmod := Nat.mod_lt (now - start) hinterval
    have htime : now - (now - start) % interval = start + (now - start) / interval * interval := by
      rw [Nat.mul_comm]
      omega
    have hexact : Measure.Exact start interval now _ :=
      Measure.exact_of_latest (k := (now - start) / interval) (by omega) (by omega)
    rw [← htime] at hexact
    exact ⟨_, rfl, hexact⟩

theorem measureInterval_ahead :
    measureInterval 0 (2 ^ 53 + 1) (2 ^ 53) = some {
      latest := some { time := 0, count := 2 }
      next := { time := 2 ^ 53 + 1, count := 3 } } := by
  decide +kernel

theorem not_exact_ahead {m : Measure} (hm : measureInterval 0 (2 ^ 53 + 1) (2 ^ 53) = some m) :
    ¬ m.Exact 0 (2 ^ 53 + 1) (2 ^ 53) := by
  intro hexact
  rw [measureInterval_ahead] at hm
  cases hm
  obtain ⟨⟨-, htime⟩, -⟩ := hexact.latest _ rfl
  revert htime
  decide

/-- The second event is counted before its time has come. -/
theorem not_measuredExactly_ahead : ¬ MeasuredExactly 0 (2 ^ 53 + 1) (2 ^ 53) := by
  rintro ⟨m, hm, hexact⟩
  exact not_exact_ahead hm hexact

end AgoricSdk.Timer
