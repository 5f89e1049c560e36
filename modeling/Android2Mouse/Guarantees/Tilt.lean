import Android2Mouse.Source.Joystick
import Android2Mouse.Library.Lasting

/-!
# The joystick under tilt

Samples are integers here and the sensitivity is 1. What is kept of a sample is the sample
itself (`run_snoc`), so a report depends on two samples that follow each other: it adds to
the earlier one how far they are apart, also where the reading fell. `tilt_follows_iff` is
over every sequence of samples.
-/
namespace Android2Mouse.Guarantees.Tilt
open Library Source.Joystick

/-- A reading of the accelerometer. -/
structure Sample where
  x : ℤ
  y : ℤ
  z : ℤ
  deriving DecidableEq, Repr

def Sample.event (sample : Sample) : SensorEvent := ⟨sample.x, sample.y, sample.z⟩

def run (samples : List Sample) : Activity :=
  samples.foldl (fun s sample => (onSensorChanged sample.event s).1) .initial

/-! ## One sample -/

/-- The activity after a sample. -/
def after (sample : Sample) : Activity := ⟨1, true, sample.x, sample.y, sample.z⟩

theorem onSensorChanged_after (sample : Sample) {s : Activity} (h : s.sensivity = 1) :
    (onSensorChanged sample.event s).1 = after sample := by
  obtain ⟨sensivity, initialized, x, y, z⟩ := s
  obtain rfl : sensivity = 1 := h
  cases initialized with
  | false => rfl
  | true =>
    rw [onSensorChanged, if_neg (by simp)]
    simp only [Sample.event, roundHalfUp_intCast, after]

theorem run_sensivity (samples : List Sample) : (run samples).sensivity = 1 := by
  induction samples using List.reverseRecOn with
  | nil => rfl
  | append_singleton samples sample ih =>
    rw [run, List.foldl_concat]
    exact congrArg Activity.sensivity (onSensorChanged_after sample ih)

theorem run_snoc (samples : List Sample) (sample : Sample) :
    run (samples ++ [sample]) = after sample := by
  rw [run, List.foldl_concat]
  exact onSensorChanged_after sample (run_sensivity samples)

/-- What is added to the last reading of an axis. -/
def jump (last now : ℤ) : ℤ := if |last - now| < 2 then 0 else |last - now|

theorem damped_eq (last now : ℤ) : damped (roundHalfUp |(last : ℚ) - now|) = jump last now := by
  have hcast : |(last : ℚ) - now| = (|last - now| : ℤ) := by
    rw [Int.cast_abs, Int.cast_sub]
  have hnoise : (((|last - now| : ℤ) : ℚ) < noise) ↔ |last - now| < 2 := by
    rw [noise]
    exact_mod_cast Iff.rfl
  rw [damped, hcast, roundHalfUp_intCast, jump]
  by_cases h : |last - now| < 2
  · rw [if_pos (hnoise.mpr h), if_pos h, Int.cast_zero]
  · rw [if_neg (mt hnoise.mp h), if_neg h]

theorem adjSensivity_after (sample : Sample) (v : ℤ) : adjSensivity (after sample) v = v * 10 := by
  have hone : (v : ℚ) * (after sample).sensivity = v := mul_one _
  rw [adjSensivity, hone, truncate_intCast]

/-- The report of two samples that follow each other. -/
theorem onSensorChanged_report (last now : Sample) :
    ∃ report, (onSensorChanged now.event (after last)).2 = some report ∧
      report.x = (last.x + jump last.x now.x) * 10 ∧
      report.y = (last.y + jump last.y now.y) * 10 := by
  refine ⟨_, rfl, ?_, ?_⟩
  · change adjSensivity (after last) (last.x + damped (roundHalfUp |(last.x : ℚ) - now.x|)) = _
    rw [damped_eq, ← Int.cast_add, adjSensivity_after]
  · change adjSensivity (after last) (last.y + damped (roundHalfUp |(last.y : ℚ) - now.y|)) = _
    rw [damped_eq, ← Int.cast_add, adjSensivity_after]

/-! ## Following -/

/-- A value that is ten times a number close to the reading. -/
def Near (value now : ℤ) : Prop := ∃ k, value = 10 * k ∧ |k - now| < 2

theorem near_iff (last now : ℤ) : Near ((last + jump last now) * 10) now ↔ last - now < 2 := by
  have hk : Near ((last + jump last now) * 10) now ↔ |last + jump last now - now| < 2 := by
    constructor
    · rintro ⟨k, hvalue, hnear⟩
      obtain rfl : last + jump last now = k := by omega
      exact hnear
    · exact fun h => ⟨_, Int.mul_comm _ _, h⟩
  rw [hk, abs_lt, jump]
  rcases abs_cases (last - now) with ⟨habs, _⟩ | ⟨habs, _⟩
  -- a reading that fell is met with a jump up
  · rw [habs]
    split <;> omega
  · rw [habs]
    split <;> omega

/-- The report of a sample follows it on both axes. -/
def Follows (s : Activity) (now : Sample) : Prop :=
  ∃ report, (onSensorChanged now.event s).2 = some report ∧ Near report.x now.x ∧
    Near report.y now.y

theorem follows_iff (last now : Sample) :
    Follows (after last) now ↔ last.x - now.x < 2 ∧ last.y - now.y < 2 := by
  obtain ⟨report, hreport, hx, hy⟩ := onSensorChanged_report last now
  constructor
  · rintro ⟨report', hreport', hnearX, hnearY⟩
    obtain rfl : report = report' := Option.some.inj (hreport.symm.trans hreport')
    rw [hx, near_iff] at hnearX
    rw [hy, near_iff] at hnearY
    exact ⟨hnearX, hnearY⟩
  · rintro ⟨hfallX, hfallY⟩
    refine ⟨report, hreport, ?_, ?_⟩
    · rw [hx]
      exact (near_iff last.x now.x).mpr hfallX
    · rw [hy]
      exact (near_iff last.y now.y).mpr hfallY

/-- In a sequence of samples, the reports of all samples after the first follow them if and
only if no sample is 2 or more below the one before it, on either axis. -/
theorem tilt_follows_iff (samples : List Sample) :
    (∀ before now since, samples = before ++ now :: since → before ≠ [] →
      Follows (run before) now) ↔
    ∀ before last now since, samples = before ++ last :: now :: since →
      last.x - now.x < 2 ∧ last.y - now.y < 2 := by
  constructor
  · intro hall before last now since hsamples
    have hfollows := hall (before ++ [last]) now since (by simpa using hsamples) (by simp)
    rw [run_snoc] at hfollows
    exact (follows_iff last now).mp hfollows
  · intro hall before now since hsamples hbefore
    obtain ⟨before', last, rfl⟩ : ∃ before' last, before = before' ++ [last] :=
      ⟨_, _, (List.dropLast_append_getLast hbefore).symm⟩
    rw [run_snoc]
    exact (follows_iff last now).mpr (hall before' last now since (by simpa using hsamples))

/-- From 10 to 5, the report is 150. -/
theorem fall_not_followed :
    ¬ ∀ (samples before : List Sample) (now : Sample) (since : List Sample),
      samples = before ++ now :: since → before ≠ [] → Follows (run before) now := by
  intro h
  have hfollows := h [⟨10, 0, 0⟩, ⟨5, 0, 0⟩] [⟨10, 0, 0⟩] ⟨5, 0, 0⟩ [] rfl (List.cons_ne_nil _ _)
  have hrun : run [⟨10, 0, 0⟩] = after ⟨10, 0, 0⟩ := run_snoc [] _
  rw [hrun, follows_iff] at hfollows
  exact absurd hfollows.1 (by decide)

end Android2Mouse.Guarantees.Tilt
