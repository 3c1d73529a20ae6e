import Mathlib.Data.Real.Basic
import Odbcpp.Auth.AuthCore

/-!
# Validity of temporary credentials

`convert_temporary_validity` of `sdk/src/auth/temporary_db_validity.cpp`: the expiry an issuer
states in UTC becomes a time point of the steady clock. A signed computation that leaves its type
stops the model, apart from the failures the source reports. The converted expiry is never later
than the stated one if the clocks keep within the errors that the sample admits.
-/

namespace Odbcpp.Auth

inductive TimeFailure where
  | unsupportedMethod | invalidInput | unknownClockQuality | overflow | staleSample | clockRollback
  | expired | cancelled
deriving DecidableEq

/-- The ticks of the clock in a microsecond, `Ratio` of the source. -/
structure TickRatio where
  num : Nat
  den : Nat
  num_pos : 0 < num
  den_pos : 0 < den

structure TemporaryClockSample where
  utc : Int64
  before : Deadline
  after : Deadline
  acquisitionCompleted : Deadline
  now : Deadline
  utcUncertainty : Option Int64
  driftError : Option Int64
  suspendError : Option Int64
  previousMonotonicSample : Option Deadline

structure TemporaryTimePolicy where
  maxAge : Int64
  maxBracket : Int64
  maxTotalError : Int64
  maxHorizon : Int64

namespace TimeConversion

/-- Why a conversion has no value: a signed computation overflows, or it reports a failure. -/
inductive Stop where
  | overflows
  | failed (failure : TimeFailure)
deriving DecidableEq

/-- A number of the signed 64-bit type. -/
abbrev InRange (value : Int) : Prop := Rep.min ≤ value ∧ value ≤ Rep.max

def check (value : Int) : Except Stop Int :=
  if InRange value then .ok value else .error .overflows

def failIf (failure : TimeFailure) (condition : Prop) [Decidable condition] : Except Stop Unit :=
  if condition then .error (.failed failure) else .ok ()

/-- `add`; every caller reports the failure as an overflow. -/
def add (a b : Int) : Except Stop Int := do
  if 0 < b then failIf .overflow ((← check (Rep.max - b)) < a)
  if b < 0 then failIf .overflow (a < (← check (Rep.min - b)))
  check (a + b)

def subtract (a b : Int) : Except Stop Int := do
  if 0 < b then failIf .overflow (a < (← check (Rep.min + b)))
  if b < 0 then failIf .overflow ((← check (Rep.max + b)) < a)
  check (a - b)

/-- In microseconds. -/
def hours24 : Int := 24 * 60 * 60 * 1000000

def policyLimit (value : Int64) : Prop := 0 ≤ value.toInt ∧ value.toInt ≤ hours24

instance (value : Int64) : Decidable (policyLimit value) :=
  inferInstanceAs (Decidable (_ ∧ _))

def stated : Option Int64 → Except Stop Int
  | some bound => .ok bound.toInt
  | none => .error (.failed .unknownClockQuality)

variable (ratio : TickRatio)

def toTicks (micros : Int) : Except Stop Int := do
  failIf .overflow (micros < 0 ∨ Rep.max / ratio.num < micros)
  let ticks := (← check (micros * ratio.num)) / ratio.den
  failIf .overflow (Rep.max < ticks)
  return ticks

def totalError (policy : TemporaryTimePolicy) (bounds : List Int) : Except Stop Int :=
  bounds.foldlM (fun error bound => do
    failIf .invalidInput (bound < 0)
    failIf .unknownClockQuality (policy.maxTotalError.toInt < bound)
    add error bound) 0

def timePoint (ticks : Int) : Except Stop Deadline :=
  if fits : InRange ticks then .ok ⟨ticks, fits.1, fits.2⟩
  else .error .overflows

def convertTemporaryValidity (deadline : Deadline) (headroom expiry : Int64)
    (sample : TemporaryClockSample) (policy : TemporaryTimePolicy) (cancelled : Bool) :
    Except Stop Validity := do
  failIf .invalidInput (¬policyLimit policy.maxAge ∨ ¬policyLimit policy.maxBracket ∨
    ¬policyLimit policy.maxTotalError ∨ ¬policyLimit policy.maxHorizon ∨
    policy.maxHorizon.toInt = 0 ∨ !deadline.finite ∨ headroom.toInt < 0 ∨
    hours24 * ratio.num < headroom.toInt * ratio.den)
  failIf .invalidInput (!sample.before.finite ∨ !sample.after.finite ∨
    !sample.acquisitionCompleted.finite ∨ !sample.now.finite ∨
    ∃ previous ∈ sample.previousMonotonicSample, !previous.finite)
  failIf .clockRollback (sample.after < sample.before ∨
    sample.acquisitionCompleted < sample.after ∨ sample.now < sample.acquisitionCompleted ∨
    ∃ previous ∈ sample.previousMonotonicSample, sample.before < previous)
  let uncertainty ← stated sample.utcUncertainty
  let drift ← stated sample.driftError
  let suspended ← stated sample.suspendError
  let error ← totalError policy [uncertainty, drift, suspended]
  failIf .unknownClockQuality (policy.maxTotalError.toInt < error)
  let age ← subtract sample.now.ticks sample.before.ticks
  let bracket ← subtract sample.after.ticks sample.before.ticks
  let maxAge ← toTicks ratio policy.maxAge.toInt
  let maxBracket ← toTicks ratio policy.maxBracket.toInt
  failIf .staleSample (maxAge < age ∨ maxBracket < bracket)
  let remaining ← subtract expiry.toInt sample.utc.toInt
  let remaining ← subtract remaining error
  failIf .expired (remaining ≤ 0)
  failIf .invalidInput (policy.maxHorizon.toInt < remaining)
  let duration ← toTicks ratio remaining
  let expires ← timePoint (← add sample.before.ticks duration)
  let required ← timePoint (← add deadline.ticks headroom.toInt)
  failIf .overflow (!expires.finite ∨ !required.finite)
  failIf .expired (duration = 0 ∨ expires ≤ sample.now ∨ expires ≤ sample.acquisitionCompleted ∨
    deadline ≤ sample.now ∨ expires ≤ required)
  failIf .cancelled cancelled
  return ⟨.trustedMonotonicExpiry, sample.acquisitionCompleted, expires⟩

/-! ## What the steps ensure -/

variable {α β : Type}

/-- Nothing overflows, and a value satisfies `holds`. -/
def Within (holds : α → Prop) : Except Stop α → Prop
  | .ok value => holds value
  | .error .overflows => False
  | .error (.failed _) => True

section Rules

variable {holds : β → Prop} {rest : α → Except Stop β}

theorem Within.bind {between : α → Prop} {run : Except Stop α} (first : Within between run)
    (second : ∀ value, between value → Within holds (rest value)) :
    Within holds (run >>= rest) := by
  match run with
  | .ok value => exact second value first
  | .error (.failed _) => trivial

theorem Within.weaken {between holds : α → Prop} {run : Except Stop α} (first : Within between run)
    (implied : ∀ value, between value → holds value) : Within holds run := by
  match run with
  | .ok value => exact implied value first
  | .error (.failed _) => trivial

theorem within_failIf {failure : TimeFailure} {condition : Prop} [Decidable condition] :
    Within (fun _ => ¬condition) (failIf failure condition) := by
  by_cases met : condition <;> simp [failIf, met, Within]

theorem rep_bounds : Rep.min = -9223372036854775808 ∧ Rep.max = 9223372036854775807 := ⟨rfl, rfl⟩

theorem inRange_toInt (value : Int64) : InRange value.toInt := by
  have lower := value.le_toInt
  have upper := value.toInt_lt
  constructor <;> simp [Rep.min, Rep.max] <;> omega

variable {a b : Int}

theorem within_check (fits : InRange a) :
    Within (fun value => value = a ∧ InRange value) (check a) := by
  rw [check, if_pos fits]
  exact ⟨rfl, fits⟩

theorem within_guarded {limit : Int} {outside : Int → Prop} [DecidablePred outside]
    (limited : InRange limit) (fits : ¬outside limit → InRange a) :
    Within (fun value => value = a ∧ InRange value) (do
      failIf .overflow (outside (← check limit))
      check a) := by
  refine (within_check limited).bind fun _ same => within_failIf.bind fun _ inside => ?_
  rw [same.1] at inside
  exact within_check (fits inside)

theorem within_add (left : InRange a) (right : InRange b) :
    Within (fun sum => sum = a + b ∧ InRange sum) (add a b) := by
  unfold add
  obtain ⟨least, most⟩ := rep_bounds
  rcases lt_trichotomy 0 b with positive | rfl | negative
  · simp only [if_pos positive, if_neg positive.not_gt]
    exact within_guarded (by omega) (by omega)
  · simpa using within_check left
  · simp only [if_neg negative.not_gt, if_pos negative]
    exact within_guarded (by omega) (by omega)

theorem within_subtract (left : InRange a) (right : InRange b) :
    Within (fun difference => difference = a - b ∧ InRange difference) (subtract a b) := by
  unfold subtract
  obtain ⟨least, most⟩ := rep_bounds
  rcases lt_trichotomy 0 b with positive | rfl | negative
  · simp only [if_pos positive, if_neg positive.not_gt]
    exact within_guarded (by omega) (by omega)
  · simpa using within_check left
  · simp only [if_neg negative.not_gt, if_pos negative]
    exact within_guarded (by omega) (by omega)

variable {ratio}

theorem within_toTicks :
    Within (fun ticks => ticks = a * ratio.num / ratio.den ∧ InRange ticks ∧ 0 ≤ a)
      (toTicks ratio a) := by
  obtain ⟨least, most⟩ := rep_bounds
  refine within_failIf.bind fun _ admitted => ?_
  rw [not_or, not_lt, not_lt] at admitted
  have scaled : a * ratio.num ≤ Rep.max :=
    (Int.le_ediv_iff_mul_le (by exact_mod_cast ratio.num_pos)).mp admitted.2
  have positive : 0 ≤ a * ratio.num := mul_nonneg admitted.1 (by positivity)
  refine (within_check ⟨by omega, scaled⟩).bind fun _ same => within_failIf.bind fun _ _ => ?_
  obtain ⟨rfl, -⟩ := same
  have ticks := Int.ediv_nonneg positive (Int.natCast_nonneg ratio.den)
  have smaller := Int.ediv_le_self ratio.den positive
  exact ⟨rfl, ⟨by omega, by omega⟩, admitted.1⟩

theorem within_timePoint (fits : InRange a) :
    Within (fun time => time.ticks = a) (timePoint a) := by
  rw [timePoint, dif_pos fits]
  rfl

theorem within_stated {bound} :
    Within (fun value => ∃ stated ∈ bound, value = stated.toInt) (stated bound) := by
  cases bound with
  | none => trivial
  | some bound => exact ⟨bound, rfl, rfl⟩

theorem within_totalError {policy : TemporaryTimePolicy} {bounds : List Int}
    (fits : ∀ bound ∈ bounds, InRange bound) :
    Within (fun error => error = bounds.sum ∧ InRange error) (totalError policy bounds) := by
  have loop (bounds : List Int) (error : Int) (start : InRange error)
      (fits : ∀ bound ∈ bounds, InRange bound) :
      Within (fun total => total = error + bounds.sum ∧ InRange total)
        (bounds.foldlM (fun error bound => do
          failIf .invalidInput (bound < 0)
          failIf .unknownClockQuality (policy.maxTotalError.toInt < bound)
          add error bound) error) := by
    induction bounds generalizing error with
    | nil => exact ⟨by simp, start⟩
    | cons bound bounds ih =>
      obtain ⟨first, others⟩ := List.forall_mem_cons.mp fits
      rw [List.foldlM_cons]
      refine Within.bind (within_failIf.bind fun _ _ => within_failIf.bind fun _ _ =>
        within_add start first) fun next added => ?_
      refine (ih next added.2 others).weaken fun total summed => ⟨?_, summed.2⟩
      rw [summed.1, added.1, List.sum_cons, add_assoc]
  exact (loop bounds 0 (by decide) fits).weaken fun _ summed => by simpa using summed

end Rules

/-! ## The converted expiry -/

variable {ratio}

/-- What the sampler and the clocks are relied on for: the UTC reading was taken between the two
monotonic ones and is off by its uncertainty at most, and until true UTC comes to the expiry, at
`reached` on the steady clock, that clock drifts and stands still within its errors. -/
def Reliable (ratio : TickRatio) (sample : TemporaryClockSample) (expiry : Int64)
    (reached : ℝ) : Prop :=
  ∃ uncertainty ∈ sample.utcUncertainty, ∃ driftError ∈ sample.driftError,
  ∃ suspendError ∈ sample.suspendError, ∃ read trueUtc drift lost : ℝ,
    (sample.before.ticks ≤ read ∧ read ≤ sample.after.ticks) ∧
    |sample.utc.toInt - trueUtc| ≤ uncertainty.toInt ∧
    |drift| ≤ driftError.toInt ∧ (0 ≤ lost ∧ lost ≤ suspendError.toInt) ∧
    (reached - read) * ratio.den / ratio.num = expiry.toInt - trueUtc + drift - lost

theorem Reliable.le {sample expiry reached uncertainty driftError suspendError}
    (reliable : Reliable ratio sample expiry reached)
    (isUncertainty : uncertainty ∈ sample.utcUncertainty)
    (isDrift : driftError ∈ sample.driftError) (isSuspend : suspendError ∈ sample.suspendError) :
    ((sample.before.ticks + (expiry.toInt - sample.utc.toInt -
      (uncertainty.toInt + driftError.toInt + suspendError.toInt)) * ratio.num / ratio.den : Int) :
      ℝ) ≤ reached := by
  obtain ⟨_, isFirst, _, isSecond, _, isThird, read, trueUtc, drift, lost, bracket, utc, drifts,
    loses, elapsed⟩ := reliable
  obtain rfl := Option.mem_unique isUncertainty isFirst
  obtain rfl := Option.mem_unique isDrift isSecond
  obtain rfl := Option.mem_unique isSuspend isThird
  have den : (0 : ℝ) < ratio.den := by exact_mod_cast ratio.den_pos
  have num : (0 : ℝ) < ratio.num := by exact_mod_cast ratio.num_pos
  have rounded (micros : Int) : ((micros * ratio.num / ratio.den : Int) : ℝ) ≤
      micros * ratio.num / ratio.den := by
    rw [le_div_iff₀ den]
    exact_mod_cast Int.ediv_mul_le _ (by exact_mod_cast ratio.den_pos.ne')
  have ahead : reached - read =
      (expiry.toInt - trueUtc + drift - lost) * ratio.num / ratio.den := by
    rw [← elapsed]
    field_simp
  have micros : ((expiry.toInt - sample.utc.toInt -
      (uncertainty.toInt + driftError.toInt + suspendError.toInt) : Int) : ℝ) ≤
      expiry.toInt - trueUtc + drift - lost := by
    have utc := (abs_le.mp utc).1
    have drifts := (abs_le.mp drifts).1
    push_cast
    linarith [loses.2]
  have scaled := div_le_div_of_nonneg_right (mul_le_mul_of_nonneg_right micros num.le) den.le
  rw [Int.cast_add]
  linarith [rounded (expiry.toInt - sample.utc.toInt -
    (uncertainty.toInt + driftError.toInt + suspendError.toInt)), bracket.1]

theorem within_convertTemporaryValidity (deadline : Deadline) (headroom expiry : Int64)
    (sample : TemporaryClockSample) (policy : TemporaryTimePolicy) (cancelled : Bool) :
    Within (fun validity =>
      sample.now < validity.expiresAt ∧ sample.acquisitionCompleted < validity.expiresAt ∧
      deadline.ticks + headroom.toInt < validity.expiresAt.ticks ∧
      ∃ uncertainty ∈ sample.utcUncertainty, ∃ driftError ∈ sample.driftError,
      ∃ suspendError ∈ sample.suspendError,
        validity.expiresAt.ticks = sample.before.ticks + (expiry.toInt - sample.utc.toInt -
          (uncertainty.toInt + driftError.toInt + suspendError.toInt)) * ratio.num / ratio.den)
      (convertTemporaryValidity ratio deadline headroom expiry sample policy cancelled) := by
  have inRange (time : Deadline) : InRange time.ticks := ⟨time.lower, time.upper⟩
  refine within_failIf.bind fun _ _ => ?_
  refine within_failIf.bind fun _ _ => within_failIf.bind fun _ _ => ?_
  refine within_stated.bind fun _ ⟨uncertainty, isUncertainty, first⟩ => ?_
  refine within_stated.bind fun _ ⟨driftError, isDrift, second⟩ => ?_
  refine within_stated.bind fun _ ⟨suspendError, isSuspend, third⟩ => ?_
  subst first second third
  have bounded : ∀ bound ∈ [uncertainty.toInt, driftError.toInt, suspendError.toInt],
      InRange bound := by
    simp only [List.forall_mem_cons]
    exact ⟨inRange_toInt _, inRange_toInt _, inRange_toInt _, nofun⟩
  refine (within_totalError bounded).bind fun error ⟨total, errorFits⟩ => ?_
  refine within_failIf.bind fun _ _ => ?_
  refine (within_subtract (inRange _) (inRange _)).bind fun _ _ => ?_
  refine (within_subtract (inRange _) (inRange _)).bind fun _ _ => ?_
  refine within_toTicks.bind fun _ _ => within_toTicks.bind fun _ _ => ?_
  refine within_failIf.bind fun _ _ => ?_
  refine (within_subtract (inRange_toInt _) (inRange_toInt _)).bind
    fun left ⟨isLeft, leftFits⟩ => ?_
  refine (within_subtract leftFits errorFits).bind fun remaining ⟨isRemaining, _⟩ => ?_
  refine within_failIf.bind fun _ _ => within_failIf.bind fun _ _ => ?_
  refine within_toTicks.bind fun duration ⟨isDuration, durationFits, _⟩ => ?_
  refine (within_add (inRange _) durationFits).bind fun sum ⟨isSum, sumFits⟩ => ?_
  refine (within_timePoint sumFits).bind fun expires isUntil => ?_
  refine (within_add (inRange _) (inRange_toInt _)).bind fun sum ⟨isRequired, requiredFits⟩ => ?_
  refine (within_timePoint requiredFits).bind fun required isTime => ?_
  refine within_failIf.bind fun _ _ => within_failIf.bind fun _ current => ?_
  refine within_failIf.bind fun _ _ => ?_
  simp only [not_or, Deadline.le_def, not_le] at current
  refine ⟨current.2.1, current.2.2.1, ?_, uncertainty, isUncertainty, driftError, isDrift,
    suspendError, isSuspend, ?_⟩
  · rw [← isRequired, ← isTime]
    exact current.2.2.2.2
  · rw [isUntil, isSum, isDuration, isRemaining, isLeft, total]
    simp [add_assoc]

/-- No signed computation of a conversion overflows. A converted expiry is later than the sample,
the acquisition and the deadline with its headroom, and not later than the instant at which true
UTC comes to the expiry of the issuer. -/
theorem convertTemporaryValidity_not_late (ratio : TickRatio) (deadline : Deadline)
    (headroom expiry : Int64) (sample : TemporaryClockSample) (policy : TemporaryTimePolicy)
    (cancelled : Bool) :
    let conversion :=
      convertTemporaryValidity ratio deadline headroom expiry sample policy cancelled
    conversion ≠ .error .overflows ∧
    ∀ validity, conversion = .ok validity →
      sample.now < validity.expiresAt ∧ sample.acquisitionCompleted < validity.expiresAt ∧
      deadline.ticks + headroom.toInt < validity.expiresAt.ticks ∧
      ∀ reached, Reliable ratio sample expiry reached → validity.expiresAt.ticks ≤ reached := by
  have within :=
    @within_convertTemporaryValidity ratio deadline headroom expiry sample policy cancelled
  refine ⟨fun overflows => ?_, fun validity converted => ?_⟩
  · rw [overflows] at within
    exact within
  rw [converted] at within
  obtain ⟨now, acquired, required, _, isFirst, _, isSecond, _, isThird, expires⟩ := within
  refine ⟨now, acquired, required, fun reached reliable => ?_⟩
  rw [expires]
  exact reliable.le isFirst isSecond isThird

end TimeConversion

end Odbcpp.Auth
