import GpuNodeHealth.Guard.LoopRequests
import GpuNodeHealth.Replicas.LeaseContract

/-! Any number of guards in front of one API server, each iterating its loop. A
guard that changes a node or a pod does so in a pass that wrote the Lease; on a
shared clock the Lease is still its own exactly as long as the pass is not older
than the time of the Lease. -/

namespace GpuNodeHealth.Replicas

open Cluster Guard Interaction

variable {ι : Type} {cfg : Config} {identity : ι → String} {duration : ℤ}

/-- The replicas of a Deployment, all with the same settings. -/
def guards (cfg : Config) (identity : ι → String) :
    System Req Exc Ans ι Clock GuardObject Unit (Server ι) Arrival :=
  replicas (fun p now => iterate cfg (identity p) now.1) cfg.start

abbrev guardsContract (cfg : Config) (identity : ι → String) : (guards cfg identity).Contract :=
  leaseContract _ _ cfg.leaseDurationSeconds identity
    (fun env => WithinBudget cfg env.caller.base env.caller.arg.1 env.events env.req)
    (fun _ => False) fun _ _ => True

theorem iterate_sound (caller : Caller ι Clock GuardObject) :
    (guardsContract cfg identity).Sound caller
      ((iterate cfg (identity caller.proc) caller.arg.1).call caller.base) [] := by
  refine .of_method (Method.wp_post (iterate_requests ?_ ?_ ?_ ?_) fun _ _ _ _ _ => ⟨fun _ _ _ h => h.elim,
    fun _ _ => trivial⟩)
  · exact fun _ _ _ => rfl
  · exact fun _ _ _ _ => ⟨rfl, rfl⟩
  · exact fun lease hmay s _ hknown => ReadBy.renewal (hknown.1 _ _ lease (by simp)) hmay
  · rintro fs r ⟨write, a, hwrite, he⟩ hr hbudget s - hknown
    have hwritten := hknown.2 write a hwrite he
    cases r with
    | cordon node => exact ⟨hwritten, hbudget⟩
    | deletePod ns name => exact hwritten
    | getLease | createLease | updateLease => cases hr
    | _ => trivial

theorem guardsContract_kept (hid : Function.Injective identity) : (guardsContract cfg identity).Kept :=
  leaseContract_kept hid trivial iterate_sound

/-- The clock all guards and the server share. -/
def sharedClock : Timing Req Clock Arrival ℚ where
  arg := Subtype.val
  arrival := Arrival.time
  timeout r := r.timeout

/-- Guards on the shared clock, as they run. -/
abbrev clockedRun [DecidableEq ι] (cfg : Config) (identity : ι → String) (start : ℚ)
    (ticks : List (Tick Exc ι Clock Arrival ℚ)) : Option ((guards cfg identity).Clocked ℚ) :=
  runFrom (System.Clocked.step sharedClock) (.start (guards cfg identity) {} start) ticks

theorem clockedRun_good [DecidableEq ι] (hid : Function.Injective identity) {start : ℚ}
    {ticks : List (Tick Exc ι Clock Arrival ℚ)} {w : (guards cfg identity).Clocked ℚ}
    (hrun : clockedRun cfg identity start ticks = some w) : w.Good (guardsContract cfg identity) sharedClock :=
  (guardsContract_kept hid).clocked ⟨by simp, .nil, .nil⟩ rfl hrun

/-- No write is of a call that began later than now. -/
theorem write_now_le [DecidableEq ι] {w : (guards cfg identity).Clocked ℚ}
    (h : w.Good (guardsContract cfg identity) sharedClock) {u : Write ι} (hu : u ∈ w.world.server.writes) :
    u.now.1 ≤ w.clock := by
  have hbefore := h.world.before u.proc _ (List.mem_map_of_mem hu) rfl
  obtain ⟨b, hb, hle⟩ := WithBot.coe_le_iff.mp hbefore.2
  exact (show u.now.1 ≤ b.1 from hle).trans (h.last u.proc b hb)

end GpuNodeHealth.Replicas
