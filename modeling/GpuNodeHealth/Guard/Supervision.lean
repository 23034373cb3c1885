import GpuNodeHealth.Guard.Supervisor
import GpuNodeHealth.RateLimit.Cooldown
import Mathlib.Data.List.Nodup

/-! One call of the supervisor, pod by pod. What a turn does depends on the pod
and on whether its exporter answered; the events of a call tell which pods were
scraped, and with what outcome. -/

namespace GpuNodeHealth.Guard

open Cluster Interaction RateLimit

/-- A running pod with an address is scraped. -/
def scrapable (pod : Pod) : Bool := pod.phase = some "Running" && pod.podIP.any (· ≠ "")

/-- Whether the exporter answered a scrape. -/
def answered : Event Api → Bool
  | ⟨.httpGet .., .ok resp⟩ => resp.answers
  | _ => false

/-- The pods of a call, each with the outcome of its scrape if there was one. -/
def probes : List Pod → List (Event Api) → List (Pod × Option Bool)
  | [], _ => []
  | pod :: rest, es =>
    if scrapable pod then (pod, es.head?.map answered) :: probes rest es.tail
    else (pod, none) :: probes rest es

/-- Since when the clock of a pod runs that has just failed. -/
def ExporterSupervisor.since (s : ExporterSupervisor) (pod : Pod) (now : ℚ) : ℚ :=
  (s.unreachableSince (podName pod)).getD now

/-- A turn of the loop: the outcome of the scrape, the decision and what is left. -/
inductive Turned (cfg : Config) (now : ℚ) (s : ExporterSupervisor) (pod : Pod) :
    Option Bool → PodDecision → ExporterSupervisor → Prop where
  | cleared {outcome : Option Bool} {reason : PodReason} {message : String} (houtcome : outcome ≠ some false)
      (hscrape : scrapable pod = true → outcome ≠ none) :
      Turned cfg now s pod outcome ⟨podName pod, pod.nodeName.getD "", .noop, reason, 0, message⟩
        { s with unreachableSince := Function.update s.unreachableSince (podName pod) none }
  | failed : Turned cfg now s pod (some false) (unreachableDecision cfg s pod (s.since pod now) now)
      { unreachableSince := Function.update s.unreachableSince (podName pod) (some (s.since pod now))
        lastDelete := if (unreachableDecision cfg s pod (s.since pod now) now).action = .delete then
            Function.update s.lastDelete (pod.nodeName.getD "") (some now)
          else s.lastDelete }

/-- The turns of a call, one after the other. -/
inductive Visited (cfg : Config) (now : ℚ) :
    ExporterSupervisor → List (Pod × Option Bool) → List PodDecision → ExporterSupervisor → Prop where
  | nil (s : ExporterSupervisor) : Visited cfg now s [] [] s
  | cons {s t u : ExporterSupervisor} {pod : Pod} {outcome : Option Bool} {rest : List (Pod × Option Bool)}
      {dec : PodDecision} {decisions : List PodDecision} (turn : Turned cfg now s pod outcome dec t)
      (later : Visited cfg now t rest decisions u) :
      Visited cfg now s ((pod, outcome) :: rest) (dec :: decisions) u

variable {cfg : Config} {now : ℚ} {s t u : ExporterSupervisor} {pod : Pod} {outcome : Option Bool} {dec : PodDecision}
  {pods : List Pod} {es : List (Event Api)} {outcomes : List (Pod × Option Bool)} {decisions : List PodDecision}

theorem scrapeOk_answered {σ : Type} {s : σ} {url : String} {timeout : ℤ} :
    (scrapeOk url timeout).wp (fun _ _ => True) (fun fs v t => t = s ∧ ∃ e, fs = es ++ [e] ∧
      ∀ up, v = .ok up → up = answered e) s es := by
  rw [scrapeOk, Method.wp_tryCatch, Method.wp_bind]
  refine ⟨trivial, fun v => ?_⟩
  rcases v with (text | _ | _ | text) | resp
  all_goals
    refine ⟨rfl, _, rfl, fun up hup => ?_⟩
    cases hup
    try rfl

theorem probes_passed (hpod : scrapable pod = false) (rest : List Pod) (es : List (Event Api)) :
    probes (pod :: rest) es = (pod, none) :: probes rest es := by
  rw [probes, if_neg (by simp [hpod])]

theorem probes_scraped (hpod : scrapable pod = true) (e : Event Api) (rest : List Pod) (more : List (Event Api)) :
    probes (pod :: rest) ([e] ++ more) = (pod, some (answered e)) :: probes rest more := by
  rw [probes, if_pos hpod]
  rfl

theorem evaluatePod_turned (pod : Pod) :
    (evaluatePod cfg now pod).wp (fun _ _ => True) (fun fs v t => ∃ new, fs = es ++ new ∧ ∀ dec, v = .ok dec →
      ∃ outcome, (∀ rest more, probes (pod :: rest) (new ++ more) = (pod, outcome) :: probes rest more) ∧
        Turned cfg now s pod outcome dec t) s es := by
  have hcleared : ∀ {reason : PodReason} {message : String}, scrapable pod = false →
      ∃ new, es = es ++ new ∧ ∀ dec,
        Except.ok ⟨podName pod, pod.nodeName.getD "", .noop, reason, 0, message⟩ = (.ok dec : Except Exc PodDecision) →
        ∃ outcome, (∀ rest more, probes (pod :: rest) (new ++ more) = (pod, outcome) :: probes rest more) ∧
          Turned cfg now s pod outcome dec
            { s with unreachableSince := Function.update s.unreachableSince (podName pod) none } := by
    intro reason message hpod
    refine ⟨[], (List.append_nil es).symm, fun dec hdec => ⟨none, fun rest more => probes_passed hpod rest more, ?_⟩⟩
    cases hdec
    exact .cleared (by simp) (by simp [hpod])
  unfold evaluatePod
  split
  · rename_i hphase
    exact hcleared (by simp [scrapable, hphase])
  · rename_i hphase
    split
    · rename_i hip
      exact hcleared (by simp [scrapable, hip])
    · rename_i hip
      exact hcleared (by simp [scrapable, hip])
    · rename_i ip hne hip
      have hpod : scrapable pod = true := by
        have hempty : ip ≠ "" := hne
        simp [scrapable, not_not.mp hphase, hip, hempty]
      refine Method.wp_bind_of scrapeOk_answered ?_ ?_
      · rintro fs up t - ⟨rfl, e, rfl, hup⟩
        have hprobes := probes_scraped hpod e
        obtain rfl := hup up rfl
        cases hanswered : answered e with
        | true =>
          refine ⟨[e], rfl, fun dec hdec => ⟨_, hprobes, ?_⟩⟩
          cases hdec
          rw [hanswered]
          exact .cleared (by simp) (by simp)
        | false =>
          refine ⟨[e], rfl, fun dec hdec => ⟨_, hprobes, ?_⟩⟩
          cases hdec
          rw [hanswered]
          exact .failed
      · rintro fs e t - ⟨-, e', rfl, -⟩
        exact ⟨[e'], rfl, fun dec hdec => by cases hdec⟩

theorem evaluateLoop_visited (pods : List Pod) :
    (evaluateLoop cfg now pods).wp (fun _ _ => True) (fun fs v u => ∃ new, fs = es ++ new ∧ ∀ decisions,
      v = .ok decisions → ∀ more, Visited cfg now s (probes pods (new ++ more)) decisions u) s es := by
  induction pods generalizing s es with
  | nil =>
    refine ⟨[], (List.append_nil es).symm, fun decisions h more => ?_⟩
    cases h
    exact .nil s
  | cons pod rest ih =>
    rw [evaluateLoop]
    refine Method.wp_bind_of (evaluatePod_turned pod) ?_ ?_
    · rintro fs dec t - ⟨new, rfl, hturn⟩
      obtain ⟨outcome, hprobes, hturn⟩ := hturn dec rfl
      refine Method.wp_bind_of ih ?_ ?_
      · rintro gs decisions u - ⟨new', rfl, hlater⟩
        refine ⟨new ++ new', List.append_assoc _ _ _, fun decisions' h more => ?_⟩
        cases h
        rw [List.append_assoc, hprobes]
        exact .cons hturn (hlater decisions rfl more)
      · rintro gs e u - ⟨new', rfl, -⟩
        exact ⟨new ++ new', List.append_assoc _ _ _, fun decisions h => by cases h⟩
    · rintro fs e t - ⟨new, rfl, -⟩
      exact ⟨new, rfl, fun decisions h => by cases h⟩

/-- Forget the pods that are not listed. -/
def ExporterSupervisor.forget (s : ExporterSupervisor) (live : List String) : ExporterSupervisor :=
  { s with unreachableSince := fun name => if name ∈ live then s.unreachableSince name else none }

/-- What a call that returns has done; the events after it do not matter. -/
theorem evaluate_visited (pods : List Pod) (s : ExporterSupervisor) :
    (evaluate cfg pods now).wp (fun _ _ => True) (fun fs v t => ∃ new, fs = es ++ new ∧ ∀ decisions,
      v = .ok decisions → ∃ u, (∀ more, Visited cfg now s (probes pods (new ++ more)) decisions u) ∧
        t = u.forget (pods.map podName)) s es := by
  refine Method.wp_bind_of (evaluateLoop_visited pods) ?_ ?_
  · rintro fs decisions u - ⟨new, rfl, hvisited⟩
    refine ⟨new, rfl, fun decisions' h => ?_⟩
    cases h
    exact ⟨u, hvisited decisions rfl, rfl⟩
  · rintro fs e t - ⟨new, rfl, -⟩
    exact ⟨new, rfl, fun decisions h => by cases h⟩

/-! ### What the turns of a call add up to -/

/-- The pod of this name was scraped, and its exporter did not answer. -/
def failing (outcomes : List (Pod × Option Bool)) (name : String) : Bool :=
  outcomes.any fun p => podName p.1 = name && p.2 = some false

def namesOf (outcomes : List (Pod × Option Bool)) : List String := outcomes.map fun p => podName p.1

theorem namesOf_probes (pods : List Pod) (es : List (Event Api)) : namesOf (probes pods es) = pods.map podName := by
  induction pods generalizing es with
  | nil => rfl
  | cons pod rest ih =>
    rw [probes]
    split_ifs <;> exact congrArg (podName pod :: ·) (ih _)

theorem namesOf_cons (pod : Pod) (outcome : Option Bool) (rest : List (Pod × Option Bool)) :
    namesOf ((pod, outcome) :: rest) = podName pod :: namesOf rest := rfl

theorem failing_cons (pod : Pod) (outcome : Option Bool) (rest : List (Pod × Option Bool)) (name : String) :
    failing ((pod, outcome) :: rest) name = ((podName pod = name && outcome = some false) || failing rest name) := rfl

theorem failing_eq_false {name : String} (h : name ∉ namesOf outcomes) : failing outcomes name = false := by
  rw [failing, List.any_eq_false]
  intro p hp hfailing
  obtain ⟨hname, -⟩ := Bool.and_eq_true_iff.mp hfailing
  exact h (List.mem_map.mpr ⟨p, hp, by simpa using hname⟩)

theorem probes_scrapable {up : Bool} (h : (pod, some up) ∈ probes pods es) : pod ∈ pods ∧ scrapable pod = true := by
  induction pods generalizing es with
  | nil => cases h
  | cons p rest ih =>
    rw [probes] at h
    split_ifs at h with hp
    · rcases List.mem_cons.mp h with heq | h
      · obtain ⟨rfl, -⟩ := Prod.mk.inj heq
        exact ⟨List.mem_cons_self, hp⟩
      · exact ⟨List.mem_cons_of_mem _ (ih h).1, (ih h).2⟩
    · rcases List.mem_cons.mp h with heq | h
      · cases (Prod.mk.inj heq).2
      · exact ⟨List.mem_cons_of_mem _ (ih h).1, (ih h).2⟩

theorem probes_mem (h : pod ∈ pods) (es : List (Event Api)) : ∃ outcome, (pod, outcome) ∈ probes pods es := by
  induction pods generalizing es with
  | nil => cases h
  | cons p rest ih =>
    rw [probes]
    split_ifs
    · rcases List.mem_cons.mp h with rfl | h
      · exact ⟨_, List.mem_cons_self⟩
      · obtain ⟨outcome, hmem⟩ := ih h es.tail
        exact ⟨outcome, List.mem_cons_of_mem _ hmem⟩
    · rcases List.mem_cons.mp h with rfl | h
      · exact ⟨_, List.mem_cons_self⟩
      · obtain ⟨outcome, hmem⟩ := ih h es
        exact ⟨outcome, List.mem_cons_of_mem _ hmem⟩

theorem outcome_of_failing (hnames : (namesOf outcomes).Nodup) (hmem : (pod, outcome) ∈ outcomes)
    (h : failing outcomes (podName pod) = true) : outcome = some false := by
  obtain ⟨p, hp, hfailing⟩ := List.any_eq_true.mp h
  obtain ⟨hname, hout⟩ := Bool.and_eq_true_iff.mp hfailing
  have heq := List.inj_on_of_nodup_map hnames hp hmem (by simpa using hname)
  rw [heq] at hout
  simpa using hout

/-- A call that returned has scraped every pod that can be. -/
theorem Visited.scraped (h : Visited cfg now s outcomes decisions u) (hmem : (pod, outcome) ∈ outcomes)
    (hpod : scrapable pod = true) : outcome ≠ none := by
  induction h with
  | nil s => cases hmem
  | cons turn later ih =>
    rcases List.mem_cons.mp hmem with heq | hmem
    · obtain ⟨rfl, rfl⟩ := Prod.mk.inj heq
      cases turn with
      | cleared _ hscrape => exact hscrape hpod
      | failed => simp
    · exact ih hmem

theorem Turned.clock (h : Turned cfg now s pod outcome dec t) (name : String) : t.unreachableSince name =
    if name = podName pod then (if outcome = some false then some (s.since pod now) else none)
    else s.unreachableSince name := by
  by_cases hname : name = podName pod
  · cases h with
    | cleared houtcome => simp [hname, houtcome]
    | failed => simp [hname]
  · cases h <;> simp [hname]

theorem Visited.clock (h : Visited cfg now s outcomes decisions u) (hnames : (namesOf outcomes).Nodup)
    (name : String) : u.unreachableSince name =
      if failing outcomes name then some ((s.unreachableSince name).getD now)
      else if name ∈ namesOf outcomes then none else s.unreachableSince name := by
  induction h with
  | nil s => rfl
  | @cons s t u pod outcome rest dec decisions turn later ih =>
    obtain ⟨hnew, hrest⟩ := List.nodup_cons.mp (namesOf_cons pod outcome rest ▸ hnames)
    rw [ih hrest, turn.clock name, failing_cons, namesOf_cons]
    by_cases hname : name = podName pod
    · -- the other turns have nothing to do with the pod
      obtain rfl := hname
      rw [failing_eq_false hnew, if_neg hnew]
      by_cases hout : outcome = some false
      · simp [hout, ExporterSupervisor.since]
      · simp [hout]
    · simp [hname, Ne.symm hname]

theorem forget_clock (h : Visited cfg now s (probes pods es) decisions u) (hnames : (pods.map podName).Nodup)
    (name : String) : (u.forget (pods.map podName)).unreachableSince name =
      if failing (probes pods es) name then some ((s.unreachableSince name).getD now) else none := by
  have hclock := h.clock ((namesOf_probes pods es).symm ▸ hnames) name
  rw [namesOf_probes] at hclock
  simp only [ExporterSupervisor.forget, hclock]
  by_cases hlive : name ∈ pods.map podName
  · simp only [hlive, if_true]
  · have hnot := failing_eq_false (namesOf_probes pods es ▸ hlive)
    simp only [hlive, if_false, hnot, Bool.false_eq_true]

/-- Every decision is made in a turn that finds the clock of its pod as the call did. -/
theorem Visited.decision (h : Visited cfg now s outcomes decisions u)
    (hnames : (namesOf outcomes).Nodup) (hdec : dec ∈ decisions) :
    ∃ pod outcome s₁ t₁, (pod, outcome) ∈ outcomes ∧ s₁.since pod now = s.since pod now ∧
      Turned cfg now s₁ pod outcome dec t₁ := by
  induction h with
  | nil s => cases hdec
  | @cons s t u pod outcome rest dec' decisions turn later ih =>
    obtain ⟨hnew, hrest⟩ := List.nodup_cons.mp (namesOf_cons pod outcome rest ▸ hnames)
    rcases List.mem_cons.mp hdec with rfl | hdec
    · exact ⟨pod, outcome, s, t, List.mem_cons_self, rfl, turn⟩
    · obtain ⟨pod', outcome', s₁, t₁, hmem, hsince, hturn⟩ := ih hrest hdec
      refine ⟨pod', outcome', s₁, t₁, List.mem_cons_of_mem _ hmem, ?_, hturn⟩
      have hne : podName pod' ≠ podName pod := fun heq => hnew (List.mem_map.mpr ⟨_, hmem, heq⟩)
      rw [hsince, ExporterSupervisor.since, ExporterSupervisor.since, turn.clock, if_neg hne]

theorem unreachableDecision_fields (since : ℚ) :
    (unreachableDecision cfg s pod since now).pod = podName pod ∧
      (unreachableDecision cfg s pod since now).node = pod.nodeName.getD "" ∧
        (unreachableDecision cfg s pod since now).unreachableSeconds = roundTenth (now - since) := by
  unfold unreachableDecision
  dsimp only
  split
  · exact ⟨rfl, rfl, rfl⟩
  · split
    · exact ⟨rfl, rfl, rfl⟩
    · split
      · exact ⟨rfl, rfl, rfl⟩
      · split <;> exact ⟨rfl, rfl, rfl⟩

/-- What it takes to delete a pod. -/
theorem unreachableDecision_delete {since : ℚ} (h : (unreachableDecision cfg s pod since now).action = .delete) :
    cfg.exporterSupervisionEnabled = true ∧ cfg.mode = "enforce" ∧ cfg.exporterUnreachableSeconds ≤ now - since ∧
      ∀ last ∈ s.lastDelete (pod.nodeName.getD ""), cfg.exporterDeleteCooldownSeconds ≤ now - last := by
  unfold unreachableDecision at h
  dsimp only at h
  split at h
  · cases h
  rename_i hgrace
  split at h
  · cases h
  · rename_i hlast
    split_ifs at h with henabled hmode
    refine ⟨by simpa using henabled, not_not.mp hmode, not_lt.mp hgrace, fun last hmem => ?_⟩
    rw [Option.mem_def.mp hmem] at hlast
    simpa [Option.filter] using hlast

/-- The deletions among some decisions, with their time and node. -/
def deleted (now : ℚ) (decisions : List PodDecision) : List (ℚ × String) :=
  (decisions.filter (·.action = .delete)).map fun dec => (now, dec.node)

/-- Each turn keeps the deletions on one node a cooldown apart. -/
theorem Turned.apart (h : Turned cfg now s pod outcome dec t) {log : List (ℚ × String)}
    (hpast : ∀ a ∈ log, a.1 ≤ now) (hapart : Apart (cfg.exporterDeleteCooldownSeconds : ℚ) log)
    (hlast : Covers s.lastDelete log) :
    Apart (cfg.exporterDeleteCooldownSeconds : ℚ) (log ++ deleted now [dec]) ∧
      Covers t.lastDelete (log ++ deleted now [dec]) := by
  cases h with
  | cleared =>
    simp only [deleted, List.filter_cons, List.filter_nil, reduceCtorEq, decide_false, Bool.false_eq_true, if_false,
      List.map_nil, List.append_nil]
    exact ⟨hapart, hlast⟩
  | failed =>
    by_cases hact : (unreachableDecision cfg s pod (s.since pod now) now).action = .delete
    · have hnode : (unreachableDecision cfg s pod (s.since pod now) now).node = pod.nodeName.getD "" :=
        (unreachableDecision_fields _).2.1
      simp only [deleted, List.filter_cons, List.filter_nil, hact, decide_true, if_true, List.map_cons, List.map_nil,
        hnode]
      exact ⟨hapart.snoc hlast (unreachableDecision_delete hact).2.2.2, hlast.snoc hpast⟩
    · simp only [deleted, List.filter_cons, List.filter_nil, hact, decide_false, Bool.false_eq_true, if_false,
        List.map_nil, List.append_nil]
      exact ⟨hapart, hlast⟩

theorem Visited.apart (h : Visited cfg now s outcomes decisions u) {log : List (ℚ × String)}
    (hpast : ∀ a ∈ log, a.1 ≤ now) (hapart : Apart (cfg.exporterDeleteCooldownSeconds : ℚ) log)
    (hlast : Covers s.lastDelete log) :
    Apart (cfg.exporterDeleteCooldownSeconds : ℚ) (log ++ deleted now decisions) ∧
      Covers u.lastDelete (log ++ deleted now decisions) := by
  induction h generalizing log with
  | nil s => exact ⟨by simpa [deleted] using hapart, by simpa [deleted] using hlast⟩
  | @cons s t u pod outcome rest dec decisions turn later ih =>
    obtain ⟨hapart', hlast'⟩ := turn.apart hpast hapart hlast
    have hpast' : ∀ a ∈ log ++ deleted now [dec], a.1 ≤ now := by
      intro a ha
      rcases List.mem_append.mp ha with ha | ha
      · exact hpast a ha
      · obtain ⟨_, -, rfl⟩ := List.mem_map.mp ha
        exact le_rfl
    have hsplit : log ++ deleted now (dec :: decisions) = log ++ deleted now [dec] ++ deleted now decisions := by
      rw [List.append_assoc, deleted, deleted, deleted, ← List.map_append, ← List.filter_append]
      rfl
    rw [hsplit]
    exact ih hpast' hapart' hlast'

end GpuNodeHealth.Guard
