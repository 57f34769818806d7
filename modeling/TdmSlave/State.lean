import TdmSlave.Types

/-!
# The state of `tdm_main_loop`

One activation of `tdm_main_loop` is a record of its locals, of the two fields of its interrupt
data that change (`working_in_buffer`, `working_out_buffer` and `fsync_time`), of the mutable
argument `num_bclk_cycles_offset`, and of the part of the bit-clock port and of the thread that the
loop and `tdm_isr` set and read: the trigger time, whether the trigger is enabled, and whether
interrupts are masked. A pointer into a double buffer is the index of the element it points to:
the code only ever points `working_*` and `safe_*` at `in_s.buffer[i]` and `out_s.buffer[i]`.

`Pc` names the statement of `tdm_main_loop` that runs next. Statements that run with interrupts
masked, or that touch nothing `tdm_isr` reads or writes, are grouped into one point; the five
statements of each call of `commit_buffers` are separate points, since the interrupt may fire
between any two of them. What the application and the hardware supply at a statement (the
configuration `init` writes, the answer of `restart_check`, the effect of `process`, the timestamp
of a frame sync) is a `TdmInput`, and what the loop does towards them is a `TdmEvent`.
-/

namespace TdmSlave

/-- The statements of `commit_buffers`, in order. -/
inductive CommitStmt
  /-- `interrupt_data->working_in_buffer = &(in_buffer->buffer[current_buf_no])`. -/
  | workingIn
  /-- `interrupt_data->working_out_buffer = &(out_buffer->buffer[current_buf_no])`. -/
  | workingOut
  /-- `current_buf_no ^= 0b1`. -/
  | flip
  /-- `*safe_in_buf_addr = &(in_buffer->buffer[current_buf_no])`. -/
  | safeIn
  /-- `*safe_out_buf_addr = &(out_buffer->buffer[current_buf_no])`. -/
  | safeOut
  deriving DecidableEq, Repr

/-- The two calls of `commit_buffers` in `tdm_main_loop`. -/
inductive CommitSite
  /-- The call of the configuration block, with interrupts masked. -/
  | init
  /-- The call of the frame loop. -/
  | running
  deriving DecidableEq, Repr

/-- The statement of `tdm_main_loop` that runs next. -/
inductive Pc
  /-- `while (restart != TDM_SHUTDOWN)`. -/
  | outerLoop
  /-- `interrupt_mask_all()`, `init`, the polarity, the offset, and the priming `process`. -/
  | initBlock
  /-- A statement of a call of `commit_buffers`. -/
  | commit (site : CommitSite) (k : CommitStmt)
  /-- The first frame sync, the interrupt's set-up and trigger, and `interrupt_unmask_all()`. -/
  | arm
  /-- The set-up of the data ports and the first `preload_data`. -/
  | startIo
  /-- `while (restart == TDM_NO_RESTART)`. -/
  | innerLoop
  /-- `tdm_interrupt_data.fsync_time = hold_for_frame_sync(..)` in the frame loop. -/
  | hold
  /-- `restart = restart_check(app_data)`. -/
  | restartCheck
  /-- `process(app_data, .., safe_in_buffer, safe_out_buffer)` in the frame loop. -/
  | process
  /-- `preload_data(&tdm_interrupt_data)` in the frame loop. -/
  | preload
  /-- `tdm_main_loop` has returned. -/
  | done
  deriving DecidableEq, Repr

/-- Whether the next statement is one of `commit_buffers`. -/
def Pc.inCommit : Pc → Bool
  | .commit _ _ => true
  | _ => false

/-- One activation of `tdm_main_loop`, with the bit-clock port and the thread's interrupt mask. -/
structure TdmState where
  /-- The statement that runs next. -/
  pc : Pc
  /-- The local `restart`. -/
  restart : TdmRestart
  /-- The local `tdm_config`, which `init` fills in. -/
  tdmConfig : TdmConfig
  /-- `args->num_bclk_cycles_offset`. -/
  numBclkCyclesOffset : BitVec 32
  /-- `in_s.buffer`. -/
  inS : Fin 2 → TdmSampleBuffer
  /-- `out_s.buffer`. -/
  outS : Fin 2 → TdmSampleBuffer
  /-- `tdm_interrupt_data.working_in_buffer`, an element of `in_s.buffer`. -/
  workingInBuffer : Fin 2
  /-- `tdm_interrupt_data.working_out_buffer`, an element of `out_s.buffer`. -/
  workingOutBuffer : Fin 2
  /-- `safe_in_buffer`, an element of `in_s.buffer`. -/
  safeInBuffer : Fin 2
  /-- `safe_out_buffer`, an element of `out_s.buffer`. -/
  safeOutBuffer : Fin 2
  /-- `tdm_interrupt_data.fsync_time`. -/
  fsyncTime : PortTimestamp
  /-- `port_set_invert(p_bclk)` rather than `port_set_no_invert(p_bclk)`. -/
  bclkInverted : Bool
  /-- The trigger time of `p_bclk`. -/
  triggerTime : PortTimestamp
  /-- `triggerable_enable_trigger(p_bclk)` rather than `triggerable_disable_trigger(p_bclk)`. -/
  triggerEnabled : Bool
  /-- `interrupt_mask_all()` rather than `interrupt_unmask_all()`. -/
  interruptsMasked : Bool

/-- The state at the first statement of `tdm_main_loop`, as `tdm_slave` calls it: the locals after
their `memset`s, the pointers of lines 245 to 249, `num_bclk_cycles_offset` zero from the
initializer of `args`, and the bit-clock port after `port_reset` in `tdm_slave_init_ports`, with no
trigger enabled. `masked` is the interrupt mask the thread had before the call. -/
def TdmState.entry (masked : Bool) : TdmState where
  pc := .outerLoop
  restart := .noRestart
  tdmConfig := .zero
  numBclkCyclesOffset := 0
  inS := fun _ => .zero
  outS := fun _ => .zero
  workingInBuffer := 1
  workingOutBuffer := 1
  safeInBuffer := 0
  safeOutBuffer := 0
  fsyncTime := 0
  bclkInverted := false
  triggerTime := 0
  triggerEnabled := false
  interruptsMasked := masked

/-- What the application and the hardware supply to the statement that runs: only the field that
the statement reads matters. -/
structure TdmInput where
  /-- The effect of `init(app_data, &tdm_config)` on `tdm_config`. -/
  init : TdmConfig → TdmConfig
  /-- The answer of `restart_check(app_data)`. -/
  restartCheck : TdmRestart
  /-- The timestamp that `hold_for_frame_sync` returns. -/
  fsync : PortTimestamp
  /-- The effect of `process` on the contents of its receive and send buffers. -/
  process : TdmSampleBuffer → TdmSampleBuffer → TdmSampleBuffer × TdmSampleBuffer

/-- What the engine does towards the application and the ports. -/
inductive TdmEvent
  /-- `init` was called and left this configuration. -/
  | init (cfg : TdmConfig)
  /-- `restart_check` was called and answered `r`. -/
  | restartCheck (r : TdmRestart)
  /-- `process` was called on a receive buffer with these contents, and left these send contents. -/
  | process (receive send : TdmSampleBuffer)
  /-- `commit_buffers` was called. -/
  | commitBuffers
  /-- `hold_for_frame_sync` returned this timestamp. -/
  | holdForFrameSync (t : PortTimestamp)
  /-- `port_out_at_time(p_dout[line], t, w)`. -/
  | portOutAtTime (line : Fin tdmMaxPorts) (t : PortTimestamp) (w : BitVec 32)
  /-- `tdm_isr` ran, triggered at `now`. -/
  | isr (now : PortTimestamp)
  /-- `tdm_main_loop` returned. -/
  | ret
  deriving DecidableEq

/-- Whether `tdm_isr` can run: interrupts unmasked and the bit-clock trigger enabled. -/
def TdmState.isrEnabled (s : TdmState) : Bool := !s.interruptsMasked && s.triggerEnabled

/-- A `size_t` sum passed as a `port_timestamp_t`: its low sixteen bits. -/
def toTimestamp (x : BitVec 32) : PortTimestamp := x.setWidth 16

/-- Truncation to a port time commutes with the `size_t` sum. -/
theorem toTimestamp_add (x y : BitVec 32) :
    toTimestamp (x + y) = toTimestamp x + toTimestamp y := by
  apply BitVec.eq_of_toNat_eq
  simp only [toTimestamp, BitVec.toNat_setWidth, BitVec.toNat_add]
  rw [Nat.mod_mod_of_dvd _ (by decide), Nat.add_mod]

/-- A port time promoted to `size_t` and truncated back is itself. -/
@[simp] theorem toTimestamp_setWidth (t : PortTimestamp) : toTimestamp (t.setWidth 32) = t := by
  apply BitVec.eq_of_toNat_eq
  simp only [toTimestamp, BitVec.toNat_setWidth]
  rw [Nat.mod_mod_of_dvd _ (by decide), Nat.mod_eq_of_lt t.isLt]

end TdmSlave
