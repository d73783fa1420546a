import SqlPlan.Execution.Collect
import SqlPlan.Proofs.Numbers.Magnitude

/-!
# Timers

A limit is kept if a timer that is set to it has run out exactly on the replies
that take longer.  Timers run for whole milliseconds and not for longer than
their longest time, so these are the limits that are kept whatever the reply.
-/

namespace SqlPlan

/-! ## Time -/

namespace Delay

/-- The milliseconds of a stretch of time. -/
def value (delay : Delay) : ℚ := delay.ticks / delay.rate

theorem value_milliseconds (count : ℕ) : (milliseconds count).value = count :=
  div_one _

theorem exceeds_iff (delay : Delay) (limit : ℕ) :
    delay.exceeds limit = true ↔ limit < delay.value := by
  have running : (0 : ℚ) < delay.rate := by exact_mod_cast delay.running
  rw [exceeds, decide_eq_true_iff, value, lt_div_iff₀ running]
  exact_mod_cast Iff.rfl

/-- A clock can be fast enough for any time. -/
theorem exists_value_eq {time : ℚ} (nonneg : 0 ≤ time) : ∃ delay : Delay, delay.value = time := by
  refine ⟨{ ticks := time.num.toNat, rate := time.den, running := time.den_pos }, ?_⟩
  have ticks : ((time.num.toNat : ℕ) : ℚ) = time.num := by
    exact_mod_cast Int.toNat_of_nonneg (Rat.num_nonneg.mpr nonneg)
  rw [value, ticks, Rat.num_div_den]

end Delay

/-- A reply that takes longer than a limit, or for ever. -/
def Reply.Late (limit : Number) (reply : Reply) : Prop :=
  reply.answer = .silent ∨ limit.value < reply.delay.value

namespace Timer

variable {limit : Number}

def RunsOut (limit : Number) (reply : Reply) : Prop := runsOut limit reply = true

/-- A timer has run out exactly if the reply is late. -/
def Keeps (limit : Number) (reply : Reply) : Prop := RunsOut limit reply ↔ reply.Late limit

theorem runsOut_iff (limit : Number) (reply : Reply) :
    RunsOut limit reply ↔ reply.answer = .silent ∨ milliseconds limit < reply.delay.value := by
  rw [← Delay.exceeds_iff, RunsOut, runsOut]
  cases reply.answer <;> simp

section Positive

variable (positive : limit.isPositive = true)

include positive

theorem admits_iff :
    admits limit ⌊limit.value⌋₊ = true ↔ 1 ≤ limit.value ∧ limit.value ≤ longest := by
  have above := (Number.value_pos positive).le
  have within : limit.value ≤ longest ↔
      ⌊limit.value⌋₊ < longest ∨ ⌊limit.value⌋₊ = longest ∧ limit.isInteger = true := by
    rw [Number.isInteger_iff_value positive, Nat.floor_lt above, le_iff_lt_or_eq]
    refine or_congr_right ⟨?_, ?_⟩
    · intro same
      exact ⟨by rw [same, Nat.floor_natCast], longest, same⟩
    · rintro ⟨floor, whole, same⟩
      rw [same, Nat.floor_natCast] at floor
      rw [same, floor]
  rw [within, admits, positive]
  simp [Nat.one_le_floor_iff]

theorem milliseconds_eq :
    milliseconds limit =
      if 1 ≤ limit.value ∧ limit.value ≤ longest then ⌊limit.value⌋₊ else 1 := by
  rw [milliseconds, Number.whole?_eq_floor positive]
  by_cases admitted : 1 ≤ limit.value ∧ limit.value ≤ longest
  · rw [if_pos admitted]
    exact if_pos ((admits_iff positive).mpr admitted)
  · rw [if_neg admitted]
    exact if_neg (mt (admits_iff positive).mp admitted)

/-- Only whole milliseconds up to the longest time are run for as they are. -/
theorem milliseconds_eq_value_iff :
    (milliseconds limit : ℚ) = limit.value ↔
      limit.isInteger = true ∧ limit.value ≤ longest := by
  rw [milliseconds_eq positive, Number.isInteger_iff_value positive]
  constructor
  · intro same
    refine ⟨⟨_, same.symm⟩, ?_⟩
    split at same
    · rename_i admitted
      exact admitted.2
    · rw [← same]
      norm_num [longest]
  · rintro ⟨⟨whole, same⟩, atMost⟩
    have one : 1 ≤ limit.value := by
      have above := Number.value_pos positive
      rw [same] at above ⊢
      exact_mod_cast above
    rw [if_pos ⟨one, atMost⟩, same, Nat.floor_natCast]

/-- The limits that a timer keeps whatever the reply. -/
theorem forall_keeps_iff :
    (∀ reply, Keeps limit reply) ↔ limit.isInteger = true ∧ limit.value ≤ longest := by
  rw [← milliseconds_eq_value_iff positive]
  constructor
  · intro kept
    have tells (delay : Delay) :
        milliseconds limit < delay.value ↔ limit.value < delay.value := by
      simpa [Keeps, runsOut_iff, Reply.Late] using kept { answer := .failed .nothing, delay }
    -- A reply after either of the two times tells them apart.
    apply le_antisymm
    · have own := tells (.milliseconds (milliseconds limit))
      rw [Delay.value_milliseconds] at own
      exact not_lt.mp (mt own.mpr (lt_irrefl _))
    · obtain ⟨delay, same⟩ := Delay.exists_value_eq (Number.value_pos positive).le
      have own := tells delay
      rw [same] at own
      exact not_lt.mp (mt own.mp (lt_irrefl _))
  · intro same reply
    rw [Keeps, runsOut_iff, same, Reply.Late]

end Positive

end Timer

end SqlPlan
