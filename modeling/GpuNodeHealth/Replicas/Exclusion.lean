import GpuNodeHealth.Replicas.LeaseContract

/-! Leader election by any number of replicas. In every world they reach, two
guards that both came to lead did so more than the time of the Lease apart, the
later one counted from the second of the earlier one; and a guard leads only by
a write of its own that the server accepted. -/

namespace GpuNodeHealth.Replicas

open Cluster Guard Interaction

variable {ι : Type} {cfg : Config} {identity : ι → String} {duration : ℤ}

/-- The replicas of a Deployment, each holding its own elections. -/
def election (cfg : Config) (identity : ι → String) :
    System Req Exc Ans ι Clock Leader Bool (Server ι) Arrival :=
  replicas (fun p now => acquireOrRenew cfg (identity p) now.1) {}

/-- A guard leads if its last election said so. -/
abbrev electionContract (cfg : Config) (identity : ι → String) : (election cfg identity).Contract :=
  leaseContract _ _ cfg.leaseDurationSeconds identity (fun _ => True) (· = .ok true)
    fun leader returned => leader.isLeader = returned.getD false

theorem acquireOrRenew_sound (caller : Caller ι Clock Leader) :
    (electionContract cfg identity).Sound caller
      ((acquireOrRenew cfg (identity caller.proc) caller.arg.1).call caller.base) [] := by
  refine .of_method (Method.wp_post (acquireOrRenew_wp ?_ ?_ ?_) ?_)
  · exact fun _ _ _ => rfl
  · exact fun _ _ _ _ => ⟨rfl, rfl⟩
  · exact fun lease hmay s _ hknown => ReadBy.renewal (hknown.1 _ _ lease (by simp)) hmay
  · rintro fs v leader - ⟨hleader, hevents⟩
    refine ⟨fun s _ hknown hleads => ?_, fun returned hbase => ?_⟩
    · obtain ⟨r, a, hr, he⟩ := hevents.written hleads
      exact hknown.2 r a hr he
    · change leader.isLeader = (v.toOption <|> returned).getD false
      rw [hleader, hbase]
      cases v <;> rfl

theorem electionContract_kept (hid : Function.Injective identity) : (electionContract cfg identity).Kept :=
  leaseContract_kept hid rfl acquireOrRenew_sound

/-! ### The order of the leaders -/

/-- Along the writes of the Lease seconds never go back, and another guard comes
only after its time. -/
theorem later_write (hduration : 0 ≤ duration) {n : Write ι} {older : List (Write ι)}
    (hchain : (n :: older).IsChain (Write.TakesOver duration)) (horder : (n :: older).Pairwise Write.InOrder) :
    ∀ w ∈ older, ⌊w.now.1⌋ ≤ ⌊n.now.1⌋ ∧ (n.proc ≠ w.proc → (⌊w.now.1⌋ + duration : ℚ) < n.now) := by
  induction older generalizing n with
  | nil => simp
  | cons m older ih =>
    obtain ⟨htakes, hrest⟩ := List.isChain_cons_cons.mp hchain
    obtain ⟨hn, horder⟩ := List.pairwise_cons.mp horder
    have hnm : n.proc = m.proc → m.now.1 ≤ n.now.1 := fun h => (hn m List.mem_cons_self h).2
    have hfloor : ⌊m.now.1⌋ ≤ ⌊n.now.1⌋ := by
      by_cases h : n.proc = m.proc
      · exact Int.floor_mono (hnm h)
      · have hlt : (⌊m.now.1⌋ : ℚ) ≤ n.now := by
          have hpos : (0 : ℚ) ≤ duration := by exact_mod_cast hduration
          linarith [htakes h]
        exact Int.le_floor.mpr hlt
    intro w hw
    rcases List.mem_cons.mp hw with rfl | hw
    · exact ⟨hfloor, htakes⟩
    · obtain ⟨hle, hlater⟩ := ih hrest horder w hw
      refine ⟨hle.trans hfloor, fun hne => ?_⟩
      by_cases h : n.proc = m.proc
      · exact (hlater (h ▸ hne)).trans_le (hnm h)
      · have hle' : (⌊w.now.1⌋ : ℚ) ≤ ⌊m.now.1⌋ := by exact_mod_cast hle
        linarith [htakes h]

/-- Any two writes of different guards. -/
theorem LeaseKept.exclusive {s : Server ι} (h : LeaseKept identity duration s) (hduration : 0 ≤ duration)
    {newer older : Write ι} (hsub : [newer, older].Sublist s.writes) (hne : newer.proc ≠ older.proc) :
    (⌊older.now.1⌋ + duration : ℚ) < newer.now := by
  obtain ⟨hchain, horder⟩ := And.intro h.takesOver h.inOrder
  generalize s.writes = writes at hsub hchain horder
  induction writes with
  | nil => simp at hsub
  | cons w ws ih =>
    cases hsub with
    | cons _ hrest => exact ih hrest hchain.tail (List.pairwise_cons.mp horder).2
    | cons_cons _ hrest =>
      exact (later_write hduration hchain horder older (List.singleton_sublist.mp hrest)).2 hne

/-- The write that a call made. -/
def Write.By {σ : Type} (w : Write ι) (caller : Caller ι Clock σ) : Prop :=
  w.proc = caller.proc ∧ w.call = caller.call ∧ w.now = caller.arg

instance {σ : Type} [DecidableEq ι] (w : Write ι) (caller : Caller ι Clock σ) : Decidable (w.By caller) :=
  inferInstanceAs (Decidable (_ ∧ _))

/-- What a world of elections promises: leaders are the time of the Lease apart,
each by an accepted write of its own, and every guard remembers its last result. -/
structure Elected (w : (election cfg identity).World) : Prop where
  exclusion : ∀ a ∈ w.returns, ∀ b ∈ w.returns, a.result = .ok true → b.result = .ok true →
    a.caller.proc ≠ b.caller.proc → ∀ wa ∈ w.server.writes, ∀ wb ∈ w.server.writes, wa.By a.caller →
      wb.By b.caller → [wb, wa].Sublist w.server.writes →
        (⌊a.caller.arg.1⌋ + cfg.leaseDurationSeconds : ℚ) < b.caller.arg
  written : ∀ r ∈ w.returns, r.result = .ok true → ∃ write ∈ w.server.writes, write.By r.caller ∧
    write.spec.holderIdentity = some (identity r.caller.proc)
  remembered : ∀ p, (w.procs p).object.isLeader = (w.procs p).returned.getD false

/-- Elections of any number of replicas, in any order of their requests, whatever
gets lost and whoever restarts. -/
theorem lease_exclusion [DecidableEq ι] (hid : Function.Injective identity)
    (hduration : 0 ≤ cfg.leaseDurationSeconds) {labels : List (Label Exc ι Clock Arrival)}
    {w : (election cfg identity).World}
    (hrun : runFrom System.World.step ((election cfg identity).start {}) labels = some w) : Elected w := by
  have hgood := (electionContract_kept hid).run (s := {}) ⟨by simp, .nil, .nil⟩ rfl hrun
  have hkept : LeaseKept identity cfg.leaseDurationSeconds w.server := hgood.inv
  refine ⟨fun a _ b _ _ _ hne wa _ wb _ hwa hwb hsub => ?_, fun r hr hleads => ?_, hgood.object⟩
  · have hlater := hkept.exclusive hduration hsub (by rw [hwa.1, hwb.1]; exact hne.symm)
    rwa [hwa.2.2, hwb.2.2] at hlater
  · obtain ⟨write, hwrite, hproc, hcall, hnow⟩ := hgood.returns r hr hleads
    exact ⟨write, hwrite, ⟨hproc, hcall, hnow⟩, hproc ▸ (hkept.own write hwrite).1⟩

/-! ### Elections as they go -/

/-- A call whose every request arrives and is answered; the server needs nothing
from the environment for it. -/
def promptly {ι : Type} (p : ι) (now : Clock) (requests : ℕ) : List (Label Exc ι Clock Arrival) :=
  .begin p now :: (List.replicate requests
    [.send p, .serve p ⟨now, fun _ => .error notFound⟩, .receive p]).flatten ++ [.finish p]

def threeGuards : Fin 3 → String := fun p => Config.identity {} s!"node-{p.val}"

theorem threeGuards_injective : Function.Injective threeGuards := by
  unfold Function.Injective
  decide +kernel

/-- The world three guards reach, if the labels fit. -/
def elected (cfg : Config) (labels : List (Label Exc (Fin 3) Clock Arrival)) :
    Option (election cfg threeGuards).World :=
  runFrom System.World.step ((election cfg threeGuards).start {}) labels

/-- One guard takes over from another a second after the time of its Lease. -/
def takeover : List (Label Exc (Fin 3) Clock Arrival) :=
  promptly 0 ⟨100, by decide +kernel⟩ 2 ++ promptly 1 ⟨131, by decide +kernel⟩ 2

theorem lease_exclusion_takeover : Elected ((elected {} takeover).get (by decide +kernel)) :=
  lease_exclusion threeGuards_injective (by decide) (Option.some_get _).symm

/-- Each guard takes over by a clock behind that of the one before. -/
def backwards : List (Label Exc (Fin 3) Clock Arrival) :=
  promptly 0 ⟨100, by decide +kernel⟩ 2 ++ promptly 1 ⟨95, by decide +kernel⟩ 2 ++
    promptly 2 ⟨88, by decide +kernel⟩ 2

def tenBack : Config := { leaseDurationSeconds := -10 }

def backwardsWorld : (election tenBack threeGuards).World := (elected tenBack backwards).get (by decide +kernel)

/-- With a negative time of the Lease the third guard is further behind the first
than that. -/
theorem not_elected_backwards : ¬∀ (cfg : Config) (identity : Fin 3 → String)
    (labels : List (Label Exc (Fin 3) Clock Arrival)) (w : (election cfg identity).World),
    Function.Injective identity →
      runFrom System.World.step ((election cfg identity).start {}) labels = some w → Elected w := by
  intro h
  have helected := h tenBack threeGuards backwards backwardsWorld threeGuards_injective (Option.some_get _).symm
  exact absurd helected.exclusion (by decide +kernel)

end GpuNodeHealth.Replicas
