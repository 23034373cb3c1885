import GpuNodeHealth.Guard.Capacity
import GpuNodeHealth.Guard.NodeRuns
import GpuNodeHealth.Guard.Publishing
import Mathlib.Data.List.Chain
import Mathlib.Data.List.Dedup

/-! Cordons whose answer is lost. A PATCH may take effect on its Node though the
guard is told that it failed, and then it never goes on record; the next fleet
that is listed shows the node as cordoned already, and the budget is as before.
Where the guard is told of every PATCH that takes effect, the rate limit holds of
the nodes. -/

namespace GpuNodeHealth.Guard

open Cluster Interaction

/-! ### The record of the loop -/

variable {cfg : Config} {identity : String} {now : ℚ} {g : GuardObject}

theorem RecordKept.supervised {es fs : List (Event Api)} {g' : GuardObject} (h : RecordKept cfg now g es g')
    (hnone : cordonsDone fs = cordonsDone es) (supervisor : ExporterSupervisor) (failed : ℕ) :
    RecordKept cfg now g fs (g'.supervised supervisor failed) := by
  rw [RecordKept, hnone]
  exact h

/-- Only the node stage touches the record, whichever way the pass ends. -/
theorem LoopDone.record {fs : List (Event Api)} {v : Except Exc Unit} {g' : GuardObject}
    (h : LoopDone cfg now g fs v g') : RecordKept cfg now g fs g' := by
  cases h with
  | unelected election | stoodDown election =>
    have hnone : cordonsDone fs = 0 := election.cordonsDone
    exact ⟨.inl (by simp [hnone]), by simp [hnone]⟩
  | nodesRaised election nodes => exact nodes.record election.cordonsDone
  | exportersRaised election nodes exporters =>
    obtain ⟨⟨⟨hquiet, -⟩, supervisor, failed, rfl⟩, -⟩ := exporters
    exact (nodes.record election.cordonsDone).supervised hquiet supervisor failed
  | evaluated election nodes exporters =>
    obtain ⟨⟨⟨hquiet, -⟩, supervisor, failed, rfl⟩, -⟩ := exporters
    exact (nodes.record election.cordonsDone).supervised hquiet supervisor failed

theorem iterate_record (now : ℚ) (g : GuardObject) :
    (iterate cfg identity now).wp (fun _ _ => True) (fun es _ g' => RecordKept cfg now g es g') g [] :=
  Method.wp_tryCatch_of loopOnce_done (fun _ _ _ _ h => h.record) fun _ _ _ _ h => h.record

/-! ### What becomes of the nodes -/

/-- The cordon PATCHes of a pass, each with whether the guard was told that it
succeeded. -/
def patches (es : List (Event Api)) : List (String × Bool) :=
  es.filterMap fun
    | ⟨.cordon name, answer⟩ => some (name, answer.isOk)
    | _ => none

/-- A pass, with the nodes that are cordoned as it begins, and whether each of its
PATCHes took effect. -/
structure Episode where
  pass : LoopPass
  cordoned : String → Bool
  applied : List Bool

/-- The PATCHes of a pass, with whether the guard was told and whether they took effect. -/
def Episode.fates (e : Episode) : List ((String × Bool) × Bool) := (patches e.pass.events).zip e.applied

/-- The nodes that PATCHes make unschedulable, and which are cordoned then. -/
def arrive : (String → Bool) → List ((String × Bool) × Bool) → List String × (String → Bool)
  | cordoned, [] => ([], cordoned)
  | cordoned, ((name, _), took) :: rest =>
    if took && !cordoned name then
      let (names, left) := arrive (Function.update cordoned name true) rest
      (name :: names, left)
    else arrive cordoned rest

namespace Episode

/-- A PATCH that was answered with success took effect; any other may have. -/
def Fits (e : Episode) : Prop :=
  e.applied.length = (patches e.pass.events).length ∧ ∀ f ∈ e.fates, f.1.2 = true → f.2 = true

/-- The guard was told of every PATCH that took effect. -/
def Told (e : Episode) : Prop := ∀ f ∈ e.fates, f.2 = true → f.1.2 = true

/-- The fleet was listed as it was. -/
def Seen (e : Episode) : Prop :=
  ∀ nodes ∈ fleet e.pass.events, ∀ node ∈ nodes, node.unschedulable.getD false = e.cordoned (nodeName node)

instance (e : Episode) : Decidable e.Fits := inferInstanceAs (Decidable (_ ∧ ∀ f ∈ e.fates, _))

instance (e : Episode) : Decidable e.Told := inferInstanceAs (Decidable (∀ f ∈ e.fates, _))

instance (e : Episode) : Decidable e.Seen := inferInstanceAs (Decidable (∀ nodes ∈ _, ∀ node ∈ nodes, _))

end Episode

/-- Each node that went from schedulable to unschedulable, with the clock of the pass. -/
def transitions (episodes : List Episode) : List (ℚ × String) :=
  episodes.flatMap fun e => (arrive e.cordoned e.fates).1.map fun name => (e.pass.arg, name)

/-- The nodes that did so at the given times. -/
def madeUnschedulable (episodes : List Episode) (during : ℚ → Bool) : List String :=
  (((transitions episodes).filter fun x => during x.1).map Prod.snd).dedup

theorem patches_told (es : List (Event Api)) : (patches es).countP Prod.snd = cordonsDone es := by
  induction es with
  | nil => rfl
  | cons e rest ih =>
    obtain ⟨r, v⟩ := e
    rw [patches, cordonsDone, List.filterMap_cons, List.countP_cons, ← cordonsDone, ← ih]
    cases r with
    | cordon name => cases v <;> simp [patches, Except.isOk, Except.toBool]
    | _ => rfl

theorem arrive_length (cordoned : String → Bool) (fates : List ((String × Bool) × Bool)) :
    (arrive cordoned fates).1.length ≤ fates.countP Prod.snd := by
  induction fates generalizing cordoned with
  | nil => exact le_rfl
  | cons f rest ih =>
    obtain ⟨⟨name, ok⟩, took⟩ := f
    rw [arrive, List.countP_cons]
    split_ifs with hflip htook htook
    · exact Nat.succ_le_succ (ih _)
    · exact absurd (Bool.and_eq_true_iff.mp hflip).1 htook
    · exact (ih _).trans (Nat.le_succ _)
    · exact ih _

theorem countP_zip_le {α β : Type*} (p : α → Bool) (l : List α) (l' : List β) :
    (l.zip l').countP (fun x => p x.1) ≤ l.countP p := by
  induction l generalizing l' with
  | nil => exact le_rfl
  | cons a l ih =>
    cases l' with
    | nil => exact Nat.zero_le _
    | cons b l' =>
      rw [List.zip_cons_cons, List.countP_cons, List.countP_cons]
      exact Nat.add_le_add_right (ih l') _

/-- A pass makes no more nodes unschedulable than the guard was told of. -/
theorem Episode.Told.length_le {e : Episode} (h : e.Told) :
    (arrive e.cordoned e.fates).1.length ≤ cordonsDone e.pass.events := by
  calc (arrive e.cordoned e.fates).1.length ≤ e.fates.countP Prod.snd := arrive_length _ _
    _ ≤ e.fates.countP (fun f => f.1.2) := List.countP_mono_left h
    _ ≤ (patches e.pass.events).countP Prod.snd := countP_zip_le Prod.snd _ _
    _ = cordonsDone e.pass.events := patches_told _

theorem madeUnschedulable_le {episodes : List Episode} (htold : ∀ e ∈ episodes, e.Told) (during : ℚ → Bool) :
    (madeUnschedulable episodes during).length ≤ (cordonClocks (episodes.map (·.pass))).countP during := by
  have hcount : (transitions episodes).countP (fun x => during x.1) ≤
      (cordonClocks (episodes.map (·.pass))).countP during := by
    induction episodes with
    | nil => exact le_rfl
    | cons e rest ih =>
      obtain ⟨he, hrest⟩ := List.forall_mem_cons.mp htold
      have hlength := he.length_le
      rw [transitions, cordonClocks, List.map_cons, List.flatMap_cons, List.flatMap_cons, List.countP_append,
        List.countP_append, ← transitions, ← cordonClocks]
      refine Nat.add_le_add ?_ (ih hrest)
      rw [List.countP_map, List.countP_replicate]
      by_cases hduring : during e.pass.arg = true
      · simpa [Function.comp_def, hduring] using hlength
      · simp [Function.comp_def, hduring]
  refine (List.dedup_sublist _).length_le.trans ?_
  rwa [List.length_map, ← List.countP_eq_length_filter]

/-- When the guard is told of every PATCH that takes effect, no half-open window of
the length of the rate limit sees more nodes made unschedulable than the limit. -/
theorem flips_limited {episodes : List Episode}
    (hrun : Calls (iterate cfg identity) cfg.start (episodes.map (·.pass)) g)
    (hclock : (episodes.map (·.pass.arg)).Pairwise (· ≤ ·)) (htold : ∀ e ∈ episodes, e.Told) (x : ℚ) :
    ((madeUnschedulable episodes fun t => x ≤ t ∧ t < x + cfg.rateLimitWindowSeconds).length : ℤ) ≤
        max 0 cfg.maxCordonsPerWindow ∧
      ((madeUnschedulable episodes fun t => x < t ∧ t ≤ x + cfg.rateLimitWindowSeconds).length : ℤ) ≤
        max 0 cfg.maxCordonsPerWindow := by
  have hbound : ∀ during : ℚ → Bool,
      ((cordonClocks (episodes.map (·.pass))).countP during : ℤ) ≤ max 0 cfg.maxCordonsPerWindow →
      ((madeUnschedulable episodes during).length : ℤ) ≤ max 0 cfg.maxCordonsPerWindow :=
    fun during h => (Int.ofNat_le.mpr (madeUnschedulable_le htold during)).trans h
  rcases lt_or_ge 0 cfg.rateLimitWindowSeconds with hwindow | hwindow
  · have hclock' : ((episodes.map (·.pass)).map (·.arg)).Pairwise (· ≤ ·) := by rwa [List.map_map]
    obtain ⟨-, hlimited⟩ := cordonClocks_limited iterate_record hwindow hrun hclock'
    exact ⟨hbound _ (hlimited.window_le x).1, hbound _ (hlimited.window_le x).2⟩
  · -- nothing is within a window that is empty
    have hempty : (cfg.rateLimitWindowSeconds : ℚ) ≤ 0 := by exact_mod_cast hwindow
    constructor
    all_goals
      refine hbound _ ?_
      rw [List.countP_eq_zero.mpr]
      · exact le_max_left _ _
      · intro t _ ht
        obtain ⟨hfrom, hto⟩ := of_decide_eq_true ht
        linarith

/-! ### A response that is lost -/

/-- Two nodes unrecoverable since the epoch, one healthy. -/
def threeNodes : List Node :=
  [readyNode "gpu-0" [(gpuUnrecoverable, "1970-01-01T00:00:00Z")],
    readyNode "gpu-1" [(gpuUnrecoverable, "1970-01-01T00:00:00Z")], readyNode "gpu-2" []]

/-- A cluster with three nodes, some of them cordoned. The Lease was last renewed at
the given time, and a cordon is answered as given. -/
def threeNodesApi (renewed : Option ℚ) (cordoned : List String) (answer : Except Exc Unit) (_ : List (Event Api)) :
    (r : Req) → Except Exc (Ans r)
  | .getLease .. => match renewed with
    | none => .error (.httpError 404 "not found")
    | some t => .ok ⟨1, { holderIdentity := some "guard", renewTime := some (rfc3339Micro t) }⟩
  | .createLease .. => .ok ()
  | .updateLease .. => .ok ()
  | .listNodes _ => .ok (applyCordons cordoned threeNodes)
  | .cordon _ => answer
  | .createEvent .. => .ok ()
  | .listPods .. => .ok []
  | _ => .error (.transport "timed out")

/-- The pass whose cordon takes effect, however it is answered. -/
def firstCordon (answer : Except Exc Unit) : Episode where
  pass := Call.play (iterate enforcing "guard") (threeNodesApi none [] answer) 600 enforcing.start
  cordoned _ := false
  applied := [true]

theorem flips_limited_once :
    ((madeUnschedulable [firstCordon (.ok ())] fun t => 600 ≤ t ∧ t < 600 + enforcing.rateLimitWindowSeconds).length :
        ℤ) ≤ max 0 enforcing.maxCordonsPerWindow ∧
      ((madeUnschedulable [firstCordon (.ok ())] fun t => 600 < t ∧ t ≤ 600 + enforcing.rateLimitWindowSeconds).length :
        ℤ) ≤ max 0 enforcing.maxCordonsPerWindow :=
  flips_limited (Calls.nil.play (threeNodesApi none [] (.ok ())) 600) (by decide +kernel) (by decide +kernel) 600

/-- The PATCH of the first pass times out after it has taken effect. -/
def lostCordon : Episode := firstCordon (.error (.transport "timed out"))

def afterLoss : GuardObject :=
  (((iterate enforcing "guard" 600).call enforcing.start).play
    (threeNodesApi none [] (.error (.transport "timed out"))) []).1.2

/-- Half a minute later the guard has nothing on record. -/
def secondCordon : Episode where
  pass := Call.play (iterate enforcing "guard") (threeNodesApi (some 600) ["gpu-0"] (.ok ())) 630 afterLoss
  cordoned := (arrive lostCordon.cordoned lostCordon.fates).2
  applied := [true]

/-- Two nodes are cordoned at a limit of one, though only the guard's PATCHes changed
the nodes and each fleet was listed as it was. -/
theorem not_flips_limited : ¬∀ (cfg : Config) (identity : String) (episodes : List Episode) (g : GuardObject),
    Calls (iterate cfg identity) cfg.start (episodes.map (·.pass)) g →
    (episodes.map (·.pass.arg)).Pairwise (· ≤ ·) →
    (∀ e ∈ episodes, e.Fits ∧ e.Seen) →
    episodes.IsChain (fun e e' => e'.cordoned = (arrive e.cordoned e.fates).2) →
    ∀ x : ℚ, ((madeUnschedulable episodes fun t => x ≤ t ∧ t < x + cfg.rateLimitWindowSeconds).length : ℤ) ≤
      max 0 cfg.maxCordonsPerWindow := by
  intro h
  have hrun := ((@Calls.nil _ _ _ _ _ (iterate enforcing "guard") enforcing.start).play
    (threeNodesApi none [] (.error (.transport "timed out"))) 600).play
    (threeNodesApi (some 600) ["gpu-0"] (.ok ())) 630
  have hchain :
      [lostCordon, secondCordon].IsChain (fun e e' => e'.cordoned = (arrive e.cordoned e.fates).2) :=
    List.isChain_pair.2 (by rw [secondCordon])
  have hlimited := h enforcing "guard" [lostCordon, secondCordon] _ hrun (by decide +kernel) (by decide +kernel)
    hchain 600
  exact absurd hlimited (by decide +kernel)

end GpuNodeHealth.Guard
