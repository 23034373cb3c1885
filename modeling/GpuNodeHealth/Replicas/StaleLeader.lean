import GpuNodeHealth.Guard.Capacity
import GpuNodeHealth.Replicas.Guards

/-! Who still holds the Lease when a guard acts. The election comes first in a
pass, and what the pass changes comes after requests that each take their time;
the guard does not look at the clock again. So it acts on a Lease of its own
exactly as long as its pass is not older than the Lease may be. -/

namespace GpuNodeHealth.Replicas

open Cluster Guard Interaction

variable {ι σ : Type} {cfg : Config} {identity : ι → String} {duration : ℤ}

/-- The requests that change a node or a pod. -/
def mutates : Req → Bool
  | .cordon _ | .deletePod .. => true
  | _ => false

/-- The stored Lease names the guard and has not expired. -/
def Holds (identity : ι → String) (duration : ℤ) (s : Server ι) (p : ι) (now : ℚ) : Prop :=
  ∃ lease ∈ s.lease, lease.spec.holderIdentity = some (identity p) ∧ leaseExpired lease.spec now duration = false

instance (identity : ι → String) (duration : ℤ) (s : Server ι) (p : ι) (now : ℚ) :
    Decidable (Holds identity duration s p now) :=
  inferInstanceAs (Decidable (∃ lease ∈ s.lease, _))

theorem Write.Own.expired_iff {w : Write ι} (hw : w.Own identity) (now : ℚ) :
    leaseExpired w.spec now duration = false ↔ now ≤ ⌊w.now.1⌋ + duration := by
  have hread : parseTime w.spec.renewTime = some ⌊w.now.1⌋ := by
    rw [hw.2]
    exact w.now.2
  rw [leaseExpired, hread]
  simp only [decide_eq_false_iff_not, not_lt]
  constructor <;> intro h <;> linarith

/-- The write of the latest call of a guard is the last one until another guard
takes over, and that is after its time. -/
theorem LeaseKept.holds_iff (hid : Function.Injective identity) {s : Server ι} (h : LeaseKept identity duration s)
    {caller : Caller ι Clock σ} (hwritten : WrittenBy caller s)
    (hlatest : ∀ w ∈ s.writes, w.proc = caller.proc → w.call ≤ caller.call) {now : ℚ}
    (hnow : ∀ w ∈ s.writes, w.now.1 ≤ now) :
    Holds identity duration s caller.proc now ↔ now ≤ ⌊caller.arg.1⌋ + duration := by
  obtain ⟨w, hw, hproc, hcall, harg⟩ := hwritten
  obtain ⟨newer, older, hwrites⟩ := List.append_of_mem hw
  -- none of the newer writes is by the guard itself
  have hforeign : ∀ u ∈ newer, u.proc ≠ w.proc := by
    intro u hu heq
    have horder := h.inOrder
    rw [hwrites, List.pairwise_append] at horder
    have hlt := (horder.2.2 u hu w List.mem_cons_self heq).1
    have hle := hlatest u (by simp [hwrites, hu]) (heq.trans hproc)
    omega
  rcases List.eq_nil_or_concat newer with rfl | ⟨init, next, rfl⟩
  · have hlease : s.lease = some ⟨older.length + 1, w.spec⟩ := lease_eq_some.mpr ⟨w, older, hwrites, rfl⟩
    rw [← harg, ← (h.own w hw).expired_iff now]
    constructor
    · rintro ⟨lease, hl, -, hexpired⟩
      cases hlease.symm.trans hl
      exact hexpired
    · intro hexpired
      exact ⟨_, hlease, hproc ▸ (h.own w hw).1, hexpired⟩
  · rw [List.concat_eq_append] at hwrites hforeign
    have hchain := h.takesOver
    rw [hwrites, List.append_assoc, List.singleton_append] at hchain
    have htakes := (List.isChain_cons_cons.mp (List.isChain_append.mp hchain).2.1).1
      (hforeign next (by simp))
    have hlate := hnow next (by simp [hwrites])
    rw [harg] at htakes
    refine iff_of_false ?_ (not_le.mpr (htakes.trans_le hlate))
    rintro ⟨lease, hl, hholder, -⟩
    obtain ⟨u, rest, hu, rfl⟩ := lease_eq_some.mp hl
    have hnewer : u ∈ init ++ [next] := by
      cases init with
      | nil =>
        simp only [hwrites, List.nil_append, List.cons_append, List.cons.injEq] at hu
        simp [← hu.1]
      | cons v init =>
        simp only [hwrites, List.cons_append, List.cons.injEq] at hu
        simp [← hu.1]
    have howner := (h.own u (by simp [hu])).1.symm.trans hholder
    exact hforeign u hnewer ((hid (Option.some.inj howner)).trans hproc.symm)

/-- In every run, whenever a guard sends a cordon or a delete: the Lease stored at
that moment is its own and unexpired exactly if its pass began no longer ago than
the time of the Lease, counted from the second it began in. -/
theorem holds_when_acting_iff [DecidableEq ι] (hid : Function.Injective identity) {start : ℚ}
    {ticks : List (Tick Exc ι Clock Arrival ℚ)} {w : (guards cfg identity).Clocked ℚ}
    (hrun : clockedRun cfg identity start ticks = some w) {l : Label Exc ι Clock Arrival}
    {env : Envelope Api ι Clock GuardObject} (hsent : w.world.sent l = some env)
    (hmutates : mutates env.req = true) :
    Holds identity cfg.leaseDurationSeconds w.world.server env.caller.proc w.clock ↔
      w.clock ≤ ⌊env.caller.arg.1⌋ + cfg.leaseDurationSeconds := by
  have hgood := clockedRun_good hid hrun
  obtain ⟨hjust, hcalls, -⟩ := hgood.world.sent hsent
  have hwritten : WrittenBy env.caller w.world.server := by
    obtain ⟨caller, es, r⟩ := env
    cases r with
    | cordon node => exact hjust.1
    | deletePod ns name => exact hjust
    | _ => cases hmutates
  refine LeaseKept.holds_iff hid hgood.world.inv hwritten (fun u hu hproc => ?_) fun u hu => write_now_le hgood hu
  have hlt : u.call < (w.world.procs u.proc).calls := (hgood.world.before u.proc _ (List.mem_map_of_mem hu) rfl).1
  rw [hproc] at hlt
  omega

/-! ### A pass that takes too long -/

/-- A request that is answered at the given time. -/
def answeredAt {ι : Type} (p : ι) (answer : (r : Req) → Except Exc (Ans r)) (t : ℚ) :
    List (Tick Exc ι Clock Arrival ℚ) :=
  [.act (.send p), .advance t, .act (.serve p ⟨t, answer⟩), .act (.receive p)]

/-- The two nodes, and before them one whose agent distrusts its own data. -/
def threeNodes : List Node :=
  readyNode "gpu-2" [(gpuUnrecoverable, "1970-01-01T00:00:00Z"), (gpuHealthDataStale, "1970-01-01T00:00:00Z")] ::
    twoNodes

def threeNodesApi : (r : Req) → Except Exc (Ans r)
  | .listNodes _ => .ok threeNodes
  | .createEvent .. => .ok ()
  | .cordon _ => .ok ()
  | _ => .error notFound

/-- Two guards of a rolling update. -/
inductive Peer where
  | first | second
  deriving DecidableEq, Repr

def twoGuards : Peer → String
  | .first => enforcing.identity "node-0"
  | .second => enforcing.identity "node-1"

theorem twoGuards_injective : Function.Injective twoGuards := by
  rintro (_ | _) (_ | _) h <;> first | rfl | exact absurd h (by decide +kernel)

def clock600 : Clock := ⟨600, by decide +kernel⟩

def clock631 : Clock := ⟨631, by decide +kernel⟩

/-- A pass up to its cordon, every request answered in a second. -/
def swiftPass : List (Tick Exc Peer Clock Arrival ℚ) :=
  .act (.begin .first clock600) :: [601, 602, 603, 604].flatMap (answeredAt .first threeNodesApi)

/-- The same pass with every request answered after ten seconds; the other guard
takes over in between. -/
def slowPass : List (Tick Exc Peer Clock Arrival ℚ) :=
  .act (.begin .first clock600) :: [610, 620, 630].flatMap (answeredAt .first threeNodesApi) ++
    [.act (.send .first), .advance 631, .act (.begin .second clock631)] ++
    [631, 631].flatMap (answeredAt .second threeNodesApi) ++
    [.advance 640, .act (.serve .first ⟨640, threeNodesApi⟩), .act (.receive .first)]

/-- Where the guards are, and the cordon the first of them is about to send. -/
def swiftWorld : (guards enforcing twoGuards).Clocked ℚ :=
  (clockedRun enforcing twoGuards 600 swiftPass).get (by decide +kernel)

def slowWorld : (guards enforcing twoGuards).Clocked ℚ :=
  (clockedRun enforcing twoGuards 600 slowPass).get (by decide +kernel)

def swiftCordon : Envelope Api Peer Clock GuardObject :=
  (swiftWorld.world.sent (.send .first)).get (by decide +kernel)

def slowCordon : Envelope Api Peer Clock GuardObject :=
  (slowWorld.world.sent (.send .first)).get (by decide +kernel)

theorem holds_when_acting_swift :
    Holds twoGuards 30 swiftWorld.world.server swiftCordon.caller.proc swiftWorld.clock ↔
      swiftWorld.clock ≤ ⌊swiftCordon.caller.arg.1⌋ + (30 : ℤ) :=
  holds_when_acting_iff twoGuards_injective (Option.some_get _).symm (Option.some_get _).symm (by decide +kernel)

/-- The slow guard cordons a node nine seconds after the other one took over. -/
theorem not_holds_when_acting : ¬∀ (cfg : Config) (identity : Peer → String) (start : ℚ)
    (ticks : List (Tick Exc Peer Clock Arrival ℚ)) (w : (guards cfg identity).Clocked ℚ)
    (l : Label Exc Peer Clock Arrival) (env : Envelope Api Peer Clock GuardObject),
    Function.Injective identity → clockedRun cfg identity start ticks = some w → w.world.sent l = some env →
      mutates env.req = true → Holds identity cfg.leaseDurationSeconds w.world.server env.caller.proc w.clock := by
  intro h
  have hholds := h enforcing twoGuards 600 slowPass slowWorld (.send .first) slowCordon twoGuards_injective
    (Option.some_get _).symm (Option.some_get _).symm (by decide +kernel)
  exact absurd hholds (by decide +kernel)

end GpuNodeHealth.Replicas
