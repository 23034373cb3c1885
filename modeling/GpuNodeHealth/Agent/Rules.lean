import GpuNodeHealth.Text.Pattern

/-! The kernel-log rules: which lines tell of a GPU fault, and under which
label they are counted. A line counts under the first rule that matches. -/

namespace GpuNodeHealth.Agent

open Text

inductive Rule where
  | mesUnrecoverable | gpuResetBegin | vramLost | gpuWorkqueueBlocked | schedKilledEntity
  | sdmaQueueExhausted | ringTimeout | jobTimedout | gpuResetSucceeded | vmFault | otherTaskBlocked
  | d4Watchdog | d4MapEvicted | d1Remediate | d9RingState | d7Reap | ttmGivingUp | ttmDeleteBlocked
  | d3Failover
  deriving DecidableEq, Repr

def Rule.label : Rule → String
  | .mesUnrecoverable => "mes_unrecoverable"
  | .gpuResetBegin => "gpu_reset_begin"
  | .vramLost => "vram_lost"
  | .gpuWorkqueueBlocked => "gpu_workqueue_blocked"
  | .schedKilledEntity => "sched_killed_entity"
  | .sdmaQueueExhausted => "sdma_queue_exhausted"
  | .ringTimeout => "ring_timeout"
  | .jobTimedout => "job_timedout"
  | .gpuResetSucceeded => "gpu_reset_succeeded"
  | .vmFault => "vm_fault"
  | .otherTaskBlocked => "other_task_blocked"
  | .d4Watchdog => "d4_watchdog"
  | .d4MapEvicted => "d4_map_evicted"
  | .d1Remediate => "d1_remediate"
  | .d9RingState => "d9_ring_state"
  | .d7Reap => "d7_reap"
  | .ttmGivingUp => "ttm_giving_up"
  | .ttmDeleteBlocked => "ttm_delete_blocked"
  | .d3Failover => "d3_failover"

open Pattern in
def Rule.pattern : Rule → Pattern
  | .mesUnrecoverable => "MES might be in unrecoverable state"
  | .gpuResetBegin => "GPU reset begin"
  | .vramLost => "VRAM is lost due to GPU reset"
  | .gpuWorkqueueBlocked =>
    "kworker/u" ++ digits ++ ":" ++ digits ++ anything ++ "blocked for more than " ++ digits ++ " seconds"
  | .schedKilledEntity => "Trying to push to a killed entity"
  | .sdmaQueueExhausted => "No more " ++ nonSpaces ++ " queue to allocate"
  | .ringTimeout => "ring " ++ nonSpaces ++ " timeout"
  | .jobTimedout => "job timedout"
  | .gpuResetSucceeded => .alt ("GPU reset(" ++ digits ++ ") succeeded") "GPU reset succeeded"
  | .vmFault => .alt ("amdgpu:" ++ anything ++ "VM_L2_PROTECTION_FAULT") ("amdgpu" ++ anything ++ "page fault")
  | .otherTaskBlocked => "blocked for more than " ++ digits ++ " seconds"
  | .d4Watchdog => "D4 watchdog: fence context " ++ anything ++ " stalled"
  | .d4MapEvicted => "D4 watchdog: map evicted pending-stalled context"
  | .d1Remediate => "D1 remediate: force-signal"
  | .d9RingState =>
    "amdgpu: ring " ++ nonSpaces ++ " state: wptr=" ++ anything ++ "fence emitted=" ++ digits ++ " signaled=" ++
      digits
  | .d7Reap => "D7 reaped " ++ digits ++ " stranded fence(s)"
  | .ttmGivingUp => "ttm: BO " ++ anything ++ " GIVING UP"
  | .ttmDeleteBlocked => "ttm: BO " ++ anything ++ " delete blocked on unsignaled fences"
  | .d3Failover => "D3: " ++ anything ++ "failover"

/-- In the order in which they are tried. -/
def rules : List Rule :=
  [.mesUnrecoverable, .gpuResetBegin, .vramLost, .gpuWorkqueueBlocked, .schedKilledEntity,
    .sdmaQueueExhausted, .ringTimeout, .jobTimedout, .gpuResetSucceeded, .vmFault, .otherTaskBlocked,
    .d4Watchdog, .d4MapEvicted, .d1Remediate, .d9RingState, .d7Reap, .ttmGivingUp, .ttmDeleteBlocked,
    .d3Failover]

/-- The rule a line counts under. -/
def ruleOf (line : List Char) : Option Rule := rules.find? fun rule => rule.pattern.search line

example : ruleOf "INFO: task kworker/u266:10:1234 blocked for more than 122 seconds.".toList =
    some .gpuWorkqueueBlocked := by decide +kernel

end GpuNodeHealth.Agent
