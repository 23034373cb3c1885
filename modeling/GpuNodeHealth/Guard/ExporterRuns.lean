import GpuNodeHealth.Debounce.Streak
import GpuNodeHealth.Guard.Supervision
import GpuNodeHealth.Interaction.Calls

/-! Runs of the supervisor. The clock of a pod starts where its unbroken streak of
failed scrapes did; so what is deleted has failed for long enough in every call.
A pod that is not running, has no address or has gone loses its clock, and with
another name the streak of a node starts anew. -/

namespace GpuNodeHealth.Guard

open Cluster Interaction RateLimit Debounce

/-- What one call of `evaluate` is given. -/
structure Listing where
  pods : List Pod
  now : ℚ

def supervise (cfg : Config) (listing : Listing) : Method Api Exc ExporterSupervisor (List PodDecision) :=
  evaluate cfg listing.pods listing.now

/-- A call of `evaluate`. -/
abbrev PodCall := Call Api Exc ExporterSupervisor Listing (List PodDecision)

namespace PodCall

def outcomes (call : PodCall) : List (Pod × Option Bool) := probes call.arg.pods call.events

def decisions (call : PodCall) : List PodDecision :=
  match call.result with
  | .ok decisions => decisions
  | .error _ => []

/-- Every scrape told whether the exporter answered, and none raised. -/
def Boolean (call : PodCall) : Prop := ∃ decisions, call.result = .ok decisions

def DistinctNames (call : PodCall) : Prop := (call.arg.pods.map podName).Nodup

/-- A pod of this name was listed, ran, had an address, and its scrape failed. -/
def Failed (call : PodCall) (name : String) : Prop :=
  ∃ pod ∈ call.arg.pods, podName pod = name ∧ scrapable pod = true ∧ (pod, some false) ∈ call.outcomes

end PodCall

/-- Every call of a run of the supervisor: the clock does not go back, the names are
distinct and the scrapes have results. -/
structure Supervises (cfg : Config) (calls : List PodCall) (s : ExporterSupervisor) : Prop where
  run : Calls (supervise cfg) {} calls s
  clock : (calls.map (·.arg.now)).Pairwise (· ≤ ·)
  names : ∀ call ∈ calls, call.DistinctNames
  boolean : ∀ call ∈ calls, call.Boolean

/-- What was observed of a pod, call by call. -/
def observed (name : String) (calls : List PodCall) : List (Bool × ℚ) :=
  calls.map fun call => (failing call.outcomes name, call.arg.now)

/-- The deletions of a run, with their times and nodes. -/
def deletions (calls : List PodCall) : List (ℚ × String) :=
  calls.flatMap fun call => deleted call.arg.now call.decisions

variable {cfg : Config} {calls : List PodCall} {call : PodCall} {s : ExporterSupervisor} {name node : String}
  {dec : PodDecision}

/-! ### The two memories -/

theorem failed_of_failing (h : failing call.outcomes name = true) : call.Failed name := by
  obtain ⟨p, hp, hfailing⟩ := List.any_eq_true.mp h
  obtain ⟨hname, hout⟩ := Bool.and_eq_true_iff.mp hfailing
  obtain ⟨pod, outcome⟩ := p
  obtain rfl : outcome = some false := by simpa using hout
  obtain ⟨hlisted, hscrapable⟩ := probes_scrapable hp
  exact ⟨pod, hlisted, by simpa using hname, hscrapable, hp⟩

theorem failing_of_failed (h : call.Failed name) : failing call.outcomes name = true := by
  obtain ⟨pod, -, rfl, -, hp⟩ := h
  exact List.any_eq_true.mpr ⟨_, hp, by simp⟩

theorem PodCall.DistinctNames.outcomes (h : call.DistinctNames) : (namesOf call.outcomes).Nodup := by
  rw [PodCall.outcomes, namesOf_probes]
  exact h

theorem observed_append (calls calls' : List PodCall) :
    observed name (calls ++ calls') = observed name calls ++ observed name calls' :=
  List.map_append

theorem observed_snoc (calls : List PodCall) (call : PodCall) :
    observed name (calls ++ [call]) = observed name calls ++ [(failing call.outcomes name, call.arg.now)] :=
  observed_append calls [call]

/-- The clock a streak of observations amounts to: it runs while they fail. -/
def clockOf : Option (Bool × ℚ) → Option ℚ
  | some (true, since) => some since
  | _ => none

theorem clockOf_hold (held : Option (Bool × ℚ)) (failed : Bool) (now : ℚ) :
    clockOf (hold held (failed, now)) = if failed then some ((clockOf held).getD now) else none := by
  rcases held with _ | ⟨_ | _, since⟩ <;> cases failed <;> rfl

/-- A call that got its results, as far as the memories go. -/
theorem supervise_visited (listing : Listing) (s : ExporterSupervisor) :
    (supervise cfg listing).wp (fun _ _ => True) (fun es v t => ∀ decisions, v = .ok decisions →
      ∃ u, Visited cfg listing.now s (probes listing.pods es) decisions u ∧
        t = u.forget (listing.pods.map podName)) s [] := by
  refine Method.wp_post (evaluate_visited listing.pods s) fun es v t _ hreturned decisions hok => ?_
  obtain ⟨new, rfl, hreturned⟩ := hreturned
  obtain ⟨u, hvisited, rfl⟩ := hreturned decisions hok
  exact ⟨u, List.append_nil es ▸ hvisited [], rfl⟩

/-- The clock of a pod starts where its streak of failures did. -/
theorem Supervises.clock_eq (h : Supervises cfg calls s) (name : String) :
    s.unreachableSince name = clockOf (held (observed name calls)) := by
  obtain ⟨hrun, -, hnames, hboolean⟩ := h
  revert hnames hboolean
  refine hrun.invariant (P := fun (calls : List PodCall) s => (∀ call ∈ calls, call.DistinctNames) →
    (∀ call ∈ calls, call.Boolean) → s.unreachableSince name = clockOf (held (observed name calls)))
    (fun _ _ => rfl) fun calls s listing ih => ?_
  refine Method.wp_post (supervise_visited listing s) fun es v t _ hreturned hnames hboolean => ?_
  obtain ⟨hnames, hlast⟩ := List.forall_mem_append.mp hnames
  obtain ⟨hearlier, hresult⟩ := List.forall_mem_append.mp hboolean
  obtain ⟨decisions, hok⟩ := hresult _ (List.mem_singleton_self _)
  obtain ⟨u, hvisited, rfl⟩ := hreturned decisions hok
  have hdistinct := hlast _ (List.mem_singleton_self _)
  rw [forget_clock hvisited hdistinct, ih hnames hearlier, observed_snoc, held_snoc, clockOf_hold]
  rfl

/-- Two deletions on one node are a cooldown apart. -/
theorem Supervises.apart (h : Supervises cfg calls s) :
    Apart (cfg.exporterDeleteCooldownSeconds : ℚ) (deletions calls) ∧ Covers s.lastDelete (deletions calls) := by
  obtain ⟨hrun, hclock, -, hboolean⟩ := h
  revert hclock hboolean
  refine hrun.invariant (P := fun (calls : List PodCall) s => (calls.map (·.arg.now)).Pairwise (· ≤ ·) →
    (∀ call ∈ calls, call.Boolean) → Apart (cfg.exporterDeleteCooldownSeconds : ℚ) (deletions calls) ∧
      Covers s.lastDelete (deletions calls)) (fun _ _ => ⟨.nil, nofun⟩) fun calls s listing ih => ?_
  refine Method.wp_post (supervise_visited listing s) fun es v t _ hreturned hclock hboolean => ?_
  obtain ⟨hearlier, hresult⟩ := List.forall_mem_append.mp hboolean
  obtain ⟨decisions, hok⟩ := hresult _ (List.mem_singleton_self _)
  obtain rfl : v = .ok decisions := hok
  obtain ⟨u, hvisited, rfl⟩ := hreturned decisions rfl
  rw [List.map_append, List.map_singleton] at hclock
  obtain ⟨hclock, -, hlate⟩ := List.pairwise_append.mp hclock
  obtain ⟨hapart, hlast⟩ := ih hclock hearlier
  have hpast : ∀ a ∈ deletions calls, a.1 ≤ listing.now := by
    intro a ha
    obtain ⟨call, hcall, ha⟩ := List.mem_flatMap.mp ha
    obtain ⟨_, -, rfl⟩ := List.mem_map.mp ha
    exact hlate _ (List.mem_map_of_mem hcall) _ (List.mem_singleton_self _)
  have hgrown : deletions (calls ++ [⟨listing, s, es, .ok decisions⟩]) =
      deletions calls ++ deleted listing.now decisions := by
    simp [deletions, PodCall.decisions]
  rw [hgrown]
  exact hvisited.apart hpast hapart hlast

theorem Supervises.nil : Supervises cfg [] {} := ⟨.nil, .nil, nofun, nofun⟩

/-- A run goes on with a call against fixed answers. -/
theorem Supervises.play (h : Supervises cfg calls s) (answer : List (Event Api) → (r : Req) → Except Exc (Ans r))
    (listing : Listing) (hclock : ∀ call ∈ calls, call.arg.now ≤ listing.now)
    (hnames : (listing.pods.map podName).Nodup)
    (hboolean : PodCall.Boolean (Call.play (supervise cfg) answer listing s)) :
    Supervises cfg (calls ++ [Call.play (supervise cfg) answer listing s])
      (((supervise cfg listing).call s).play answer []).1.2 where
  run := h.run.play answer listing
  clock := by
    rw [List.map_append, List.map_singleton, List.pairwise_append]
    refine ⟨h.clock, List.pairwise_singleton _ _, fun a ha b hb => ?_⟩
    obtain ⟨call, hcall, rfl⟩ := List.mem_map.mp ha
    obtain rfl := List.mem_singleton.mp hb
    exact hclock call hcall
  names := List.forall_mem_append.mpr ⟨h.names, List.forall_mem_singleton.mpr hnames⟩
  boolean := List.forall_mem_append.mpr ⟨h.boolean, List.forall_mem_singleton.mpr hboolean⟩

/-! ### Deletions -/

/-- The run up to one of its calls. -/
theorem Supervises.upTo {earlier later : List PodCall} (h : Supervises cfg (earlier ++ call :: later) s) :
    Supervises cfg earlier call.object ∧ call.DistinctNames ∧
      ∃ decisions u, call.result = .ok decisions ∧
        Visited cfg call.arg.now call.object call.outcomes decisions u := by
  obtain ⟨hrun, hclock, hnames, hboolean⟩ := h
  obtain ⟨hbefore, t, hreturns⟩ := hrun.before
  rw [List.map_append] at hclock
  obtain ⟨hnames, hlast⟩ := List.forall_mem_append.mp hnames
  obtain ⟨hboolean, hresult⟩ := List.forall_mem_append.mp hboolean
  obtain ⟨decisions, hok⟩ := hresult call List.mem_cons_self
  obtain ⟨u, hvisited, -⟩ :=
    Program.wp_returns (supervise_visited call.arg call.object) hreturns decisions hok
  exact ⟨⟨hbefore, (List.pairwise_append.mp hclock).1, hnames, hboolean⟩, hlast call List.mem_cons_self,
    decisions, u, hok, hvisited⟩

/-- Whatever is decided of a pod, it is decided in its turn, with the clock that
its streak of failures gives. -/
theorem Supervises.decided {earlier later : List PodCall} (h : Supervises cfg (earlier ++ call :: later) s)
    (hdec : dec ∈ call.decisions) : ∃ pod outcome s₁ t₁, (pod, outcome) ∈ call.outcomes ∧
      s₁.since pod call.arg.now = (clockOf (held (observed (podName pod) earlier))).getD call.arg.now ∧
        Turned cfg call.arg.now s₁ pod outcome dec t₁ := by
  obtain ⟨hearlier, hnames, decisions, u, hok, hvisited⟩ := h.upTo
  rw [PodCall.decisions, hok] at hdec
  obtain ⟨pod, outcome, s₁, t₁, hmem, hsince, hturned⟩ :=
    hvisited.decision hnames.outcomes hdec
  refine ⟨pod, outcome, s₁, t₁, hmem, ?_, hturned⟩
  rw [hsince, ExporterSupervisor.since, hearlier.clock_eq]

/-- Every deletion is of a pod that failed in every call for long enough, with
supervision on and enforced; and any two deletions on one node are a cooldown
apart. -/
theorem deletions_sound (h : Supervises cfg calls s) :
    (∀ earlier call later dec, calls = earlier ++ call :: later → dec ∈ call.decisions → dec.action = .delete →
      cfg.exporterSupervisionEnabled = true ∧ cfg.mode = "enforce" ∧
        ∃ before first rest, earlier ++ [call] = before ++ first :: rest ∧
          first.arg.now ≤ call.arg.now - (cfg.exporterUnreachableSeconds : ℚ) ∧
            ∀ c ∈ first :: rest, c.Failed dec.pod) ∧
      (deletions calls).Pairwise fun a b => a.2 = b.2 → a.1 + (cfg.exporterDeleteCooldownSeconds : ℚ) ≤ b.1 := by
  refine ⟨?_, h.apart.1⟩
  rintro earlier call later dec rfl hdec hact
  obtain ⟨pod, outcome, s₁, t₁, hmem, hsince, hturned⟩ := h.decided hdec
  cases hturned with
  | cleared => cases hact
  | failed =>
    obtain ⟨henabled, hmode, hgrace, -⟩ := unreachableDecision_delete hact
    refine ⟨henabled, hmode, ?_⟩
    rw [(unreachableDecision_fields _).1]
    have hfailing : failing call.outcomes (podName pod) = true := List.any_eq_true.mpr ⟨_, hmem, by simp⟩
    have hclock := clockOf_hold (held (observed (podName pod) earlier)) true call.arg.now
    rw [if_pos rfl, ← hsince, ← hfailing, ← held_snoc, ← observed_snoc] at hclock
    rcases hheld : held (observed (podName pod) (earlier ++ [call])) with _ | ⟨_ | _, since⟩
    · simp [hheld, clockOf] at hclock
    · simp [hheld, clockOf] at hclock
    · obtain rfl : since = s₁.since pod call.arg.now := by simpa [hheld, clockOf] using hclock
      obtain ⟨before, streak, hsplit, hstreak, -⟩ := held_streak hheld
      obtain ⟨before, tail, hcalls, -, htail⟩ := List.map_eq_append_iff.mp hsplit
      obtain ⟨first, rest, rfl, hfirst, rfl⟩ := List.map_eq_cons_iff.mp htail
      obtain ⟨hfirst, htime⟩ := Prod.mk.inj hfirst
      refine ⟨before, first, rest, hcalls, ?_, fun c hc => failed_of_failing ?_⟩
      · rw [htime]
        linarith
      · rcases List.mem_cons.mp hc with rfl | hc
        · exact hfirst
        · exact hstreak _ (List.mem_map_of_mem hc)

/-- Nothing answers. -/
def silentApi (_ : List (Event Api)) : (r : Req) → Except Exc (Ans r) := fun _ => .error (.transport "timed out")

/-- An exporter that runs on the one node. -/
def exporterPod (name : String) : Pod :=
  { name := name, nodeName := "gpu-0", phase := "Running", podIP := "10.0.0.1" }

def supervising : Config := { enforcing with exporterSupervisionEnabled := true }

/-- The first call of a supervisor, and one by what that left. -/
def failsAt (now : ℚ) : PodCall := Call.play (supervise supervising) silentApi ⟨[exporterPod "exporter-0"], now⟩ {}

def afterFailure (pods : List Pod) (now : ℚ) : PodCall := Call.play (supervise supervising) silentApi ⟨pods, now⟩
  (((supervise supervising ⟨[exporterPod "exporter-0"], 0⟩).call {}).play silentApi []).1.2

theorem supervises_afterFailure (name : String) (now : ℚ) (hnow : 0 ≤ now)
    (hok : (afterFailure [exporterPod name] now).Boolean) :
    ∃ s, Supervises supervising [failsAt 0, afterFailure [exporterPod name] now] s := by
  have hfirst := (@Supervises.nil supervising).play silentApi ⟨[exporterPod "exporter-0"], 0⟩ nofun
    (List.nodup_singleton _) ⟨_, rfl⟩
  refine ⟨_, hfirst.play silentApi ⟨[exporterPod name], now⟩ ?_ (List.nodup_singleton _) hok⟩
  intro call hcall
  obtain rfl := List.mem_singleton.mp hcall
  exact hnow

theorem deletions_sound_grace : ∃ dec ∈ (afterFailure [exporterPod "exporter-0"] 900).decisions,
    dec.action = .delete ∧
      ∃ before first rest, [failsAt 0] ++ [afterFailure [exporterPod "exporter-0"] 900] = before ++ first :: rest ∧
        first.arg.now ≤ 900 - 900 ∧ ∀ c ∈ first :: rest, c.Failed dec.pod := by
  have hdeleted : ∃ dec ∈ (afterFailure [exporterPod "exporter-0"] 900).decisions, dec.action = .delete := by
    decide +kernel
  obtain ⟨dec, hdec, hact⟩ := hdeleted
  refine ⟨dec, hdec, hact, ?_⟩
  obtain ⟨s, hrun⟩ := supervises_afterFailure "exporter-0" 900 (by norm_num) ⟨_, rfl⟩
  exact ((deletions_sound hrun).1 [failsAt 0] _ [] dec rfl hdec hact).2.2

example : deletions [failsAt 0, afterFailure [exporterPod "exporter-0"] 900] = [(900, "gpu-0")] := by decide +kernel

/-! ### The unreachable clock -/

theorem roundHalfEven_mono {x y : ℚ} (h : x ≤ y) : roundHalfEven x ≤ roundHalfEven y := by
  have hfloor := Int.floor_le_floor h
  have hx : ⌊x⌋ ≤ roundHalfEven x ∧ roundHalfEven x ≤ ⌊x⌋ + 1 := by
    unfold roundHalfEven
    split_ifs <;> omega
  have hy : ⌊y⌋ ≤ roundHalfEven y := by
    unfold roundHalfEven
    split_ifs <;> omega
  rcases hfloor.lt_or_eq with hlt | heq
  · omega
  · -- with one integer part it is for the fractions to decide
    unfold roundHalfEven
    rw [heq]
    split_ifs <;> first | omega | linarith

theorem roundTenth_mono {x y : ℚ} (h : x ≤ y) : roundTenth x ≤ roundTenth y := by
  have hten := roundHalfEven_mono (mul_le_mul_of_nonneg_right h (by norm_num : (0 : ℚ) ≤ 10))
  exact div_le_div_of_nonneg_right (by exact_mod_cast hten) (by norm_num)

/-- No exporter on the node answered. -/
def PodCall.Silent (call : PodCall) (node : String) : Prop :=
  ∀ pod, pod.nodeName.getD "" = node → (pod, some true) ∉ call.outcomes

/-- The pod of this name was listed on the node, running and with an address. -/
def PodCall.Keeps (call : PodCall) (name node : String) : Prop :=
  ∃ pod ∈ call.arg.pods, podName pod = name ∧ pod.nodeName.getD "" = node ∧ scrapable pod = true

/-- A pod that is there and that nothing answers for has failed. -/
theorem Supervises.failing (h : Supervises cfg calls s) (hcall : call ∈ calls) (hkeeps : call.Keeps name node)
    (hsilent : call.Silent node) : Guard.failing call.outcomes name = true := by
  obtain ⟨earlier, later, rfl⟩ := List.append_of_mem hcall
  obtain ⟨-, -, decisions, u, -, hvisited⟩ := h.upTo
  obtain ⟨pod, hlisted, rfl, hnode, hscrapable⟩ := hkeeps
  obtain ⟨outcome, hmem⟩ := probes_mem hlisted call.events
  have hscraped := hvisited.scraped hmem hscrapable
  rcases outcome with _ | _ | _
  · exact absurd rfl hscraped
  · exact List.any_eq_true.mpr ⟨_, hmem, by simp⟩
  · exact absurd hmem (hsilent pod hnode)

/-- While a pod that failed is kept and nothing on its node answers, its decision
reports at least the time since, up to rounding. -/
theorem unreachable_since_failure {before rest : List PodCall} {first last : PodCall}
    (h : Supervises cfg (before ++ first :: (rest ++ [last])) s) (hfailed : first.Failed name)
    (hsilent : ∀ c ∈ rest ++ [last], c.Silent node) (hkeeps : ∀ c ∈ rest ++ [last], c.Keeps name node)
    (hdec : dec ∈ last.decisions) (hname : dec.pod = name) :
    roundTenth (last.arg.now - first.arg.now) ≤ dec.unreachableSeconds := by
  have hfailing : ∀ c ∈ rest ++ [last], failing c.outcomes name = true := fun c hc =>
    h.failing (List.mem_append_right _ (List.mem_cons_of_mem _ hc)) (hkeeps c hc) (hsilent c hc)
  have hsorted := h.clock
  rw [← List.cons_append, ← List.append_assoc] at h
  obtain ⟨pod, outcome, s₁, t₁, hmem, hsince, hturned⟩ := h.decided hdec
  obtain rfl : podName pod = name := by
    rw [← hname]
    cases hturned with
    | cleared => rfl
    | failed => exact (unreachableDecision_fields _).1.symm
  obtain rfl := outcome_of_failing h.upTo.2.1.outcomes hmem (hfailing last (by simp))
  -- the streak was under way by the first of the calls
  have hstreak : ∀ o ∈ observed (podName pod) rest, o.1 = (failing first.outcomes (podName pod), first.arg.now).1 := by
    intro o ho
    obtain ⟨c, hc, rfl⟩ := List.mem_map.mp ho
    exact (hfailing c (List.mem_append_left _ hc)).trans (failing_of_failed hfailed).symm
  have hobserved : observed (podName pod) (before ++ first :: rest) = observed (podName pod) before ++
      (failing first.outcomes (podName pod), first.arg.now) :: observed (podName pod) rest := observed_append _ _
  rw [hobserved, held_append _ hstreak, held_snoc, clockOf_hold, failing_of_failed hfailed, if_pos rfl,
    Option.getD_some] at hsince
  have hstart : s₁.since pod last.arg.now ≤ first.arg.now := by
    rw [hsince]
    rcases hheld : held (observed (podName pod) before) with _ | ⟨_ | _, since⟩
    · exact le_rfl
    · exact le_rfl
    · obtain ⟨c, hc, heq⟩ := List.mem_map.mp (held_mem hheld)
      obtain ⟨-, rfl⟩ := Prod.mk.inj heq
      rw [List.map_append] at hsorted
      exact (List.pairwise_append.mp hsorted).2.2 _ (List.mem_map_of_mem hc) _ List.mem_cons_self
  cases hturned with
  | cleared houtcome => exact absurd rfl houtcome
  | failed =>
    rw [(unreachableDecision_fields _).2.2]
    exact roundTenth_mono (sub_le_sub_left hstart _)

theorem unreachable_since_failure_grace : ∃ dec ∈ (afterFailure [exporterPod "exporter-0"] 600).decisions,
    dec.pod = "exporter-0" ∧
      roundTenth ((afterFailure [exporterPod "exporter-0"] 600).arg.now - (failsAt 0).arg.now) ≤
        dec.unreachableSeconds := by
  have hdecided : ∃ dec ∈ (afterFailure [exporterPod "exporter-0"] 600).decisions, dec.pod = "exporter-0" := by
    decide +kernel
  obtain ⟨dec, hdec, hname⟩ := hdecided
  refine ⟨dec, hdec, hname, ?_⟩
  obtain ⟨s, hrun⟩ := supervises_afterFailure "exporter-0" 600 (by norm_num) ⟨_, rfl⟩
  have houtcomes :
      (afterFailure [exporterPod "exporter-0"] 600).outcomes = [(exporterPod "exporter-0", some false)] := by
    decide +kernel
  have hsilent : (afterFailure [exporterPod "exporter-0"] 600).Silent "gpu-0" := by
    intro pod _
    simp [houtcomes]
  have hkeeps : (afterFailure [exporterPod "exporter-0"] 600).Keeps "exporter-0" "gpu-0" :=
    ⟨_, List.mem_cons_self, rfl, rfl, by decide⟩
  have hfailed : (failsAt 0).Failed "exporter-0" := ⟨_, List.mem_cons_self, rfl, by decide, by decide +kernel⟩
  exact @unreachable_since_failure _ _ _ _ _ [] [] _ _ hrun hfailed (List.forall_mem_singleton.mpr hsilent)
    (List.forall_mem_singleton.mpr hkeeps) hdec hname

/-- A pod with another name takes the place of the one that failed, and fails too. -/
theorem unreachable_reset : ¬∀ (cfg : Config) (before rest : List PodCall) (first last : PodCall)
    (s : ExporterSupervisor) (node : String), Supervises cfg (before ++ first :: (rest ++ [last])) s →
      (∃ pod, pod.nodeName.getD "" = node ∧ (pod, some false) ∈ first.outcomes) →
        (∀ c ∈ rest ++ [last], c.Silent node) → ∀ dec ∈ last.decisions, dec.node = node →
          roundTenth (last.arg.now - first.arg.now) ≤ dec.unreachableSeconds := by
  intro h
  obtain ⟨s, hrun⟩ := supervises_afterFailure "exporter-1" 600 (by norm_num) ⟨_, rfl⟩
  have houtcomes :
      (afterFailure [exporterPod "exporter-1"] 600).outcomes = [(exporterPod "exporter-1", some false)] := by
    decide +kernel
  have hsilent : (afterFailure [exporterPod "exporter-1"] 600).Silent "gpu-0" := by
    intro pod _
    simp [houtcomes]
  have hreset : ∃ dec ∈ (afterFailure [exporterPod "exporter-1"] 600).decisions,
      dec.node = "gpu-0" ∧
        ¬roundTenth ((afterFailure [exporterPod "exporter-1"] 600).arg.now - (failsAt 0).arg.now) ≤
          dec.unreachableSeconds := by decide +kernel
  obtain ⟨dec, hdec, hnode, hshort⟩ := hreset
  exact hshort (h supervising [] [] (failsAt 0) _ s "gpu-0" hrun ⟨exporterPod "exporter-0", rfl, by decide +kernel⟩
    (List.forall_mem_singleton.mpr hsilent) dec hdec hnode)

end GpuNodeHealth.Guard
