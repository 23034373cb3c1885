import GpuNodeHealth.Guard.NodePass

/-! What an exporter pass does to the rest of the guard. It cordons nothing and
touches nothing but the supervisor and the count of failed Events; and it raises
only on a failure that none of its handlers expects. -/

namespace GpuNodeHealth.Guard

open Cluster Interaction

/-- No cordon since `es`, and no exception but from an aborting failure. -/
def Quiet {α : Type} (es fs : List (Event Api)) (v : Except Exc α) : Prop :=
  cordonsDone fs = cordonsDone es ∧ ∀ e, v = .error e → Aborted fs

/-- The requests an exporter pass makes. -/
def Req.forExporters : Req → Bool
  | .listPods .. | .httpGet .. | .deletePod .. | .createEvent .. => true
  | _ => false

section

variable {σ α β : Type} {cfg : Config} {now : ℚ} {es : List (Event Api)} {G : List (Event Api) → Req → Prop}

theorem Quiet.ok (a : α) : Quiet es es (.ok a : Except Exc α) := ⟨rfl, fun _ h => by cases h⟩

theorem Quiet.trans {fs gs : List (Event Api)} {a : α} {v : Except Exc β}
    (h : Quiet es fs (.ok a : Except Exc α)) (h' : Quiet fs gs v) : Quiet es gs v :=
  ⟨h'.1.trans h.1, h'.2⟩

theorem Quiet.error {fs : List (Event Api)} {e : Exc} (h : Quiet es fs (.error e : Except Exc α)) :
    Quiet es fs (.error e : Except Exc β) :=
  ⟨h.1, fun _ _ => h.2 e rfl⟩

theorem Quiet.snoc {r : Req} {v : Except Exc (Ans r)} (h : ∀ name, r ≠ .cordon name)
    {w : Except Exc α} (hw : ∀ e, w = .error e → aborts ⟨r, v⟩ = true) : Quiet es (es ++ [⟨r, v⟩]) w :=
  ⟨cordonsDone_snoc h v, fun e he => .last (hw e he)⟩

/-- Quiet methods one after the other are quiet. -/
theorem Quiet.bind_wp {m : Method Api Exc σ α} {f : α → Method Api Exc σ β} {s : σ}
    (hm : m.wp G (fun fs v _ => Quiet es fs v) s es)
    (hf : ∀ fs a t, es <+: fs → (f a).wp G (fun gs v _ => Quiet fs gs v) t fs) :
    (m >>= f).wp G (fun fs v _ => Quiet es fs v) s es := by
  refine Method.wp_bind_of hm ?_ ?_
  · intro fs a t hfs hquiet
    exact Method.wp_post (hf fs a t hfs) fun gs v t' _ h => hquiet.trans h
  · exact fun fs e t _ hquiet => hquiet.error

theorem scrapeOk_wp {url : String} {timeout : ℤ} {s : σ} (hget : G es (.httpGet url timeout)) :
    (scrapeOk url timeout).wp G (fun fs v t => Quiet es fs v ∧ t = s) s es := by
  rw [scrapeOk, Method.wp_tryCatch, Method.wp_bind]
  refine (Method.wp_request _).mpr ⟨hget, fun v => ?_⟩
  rcases v with (text | _ | _ | text) | resp
  · exact ⟨.snoc (by simp) fun _ _ => rfl, rfl⟩
  · exact ⟨.snoc (by simp) fun _ h => (by cases h), rfl⟩
  · exact ⟨.snoc (by simp) fun _ h => (by cases h), rfl⟩
  · exact ⟨.snoc (by simp) fun _ _ => rfl, rfl⟩
  · exact ⟨.snoc (by simp) fun _ h => (by cases h), rfl⟩

theorem evaluatePod_wp (pod : Pod) {s : ExporterSupervisor} 
    (hget : ∀ ip, pod.podIP = some ip → G es (.httpGet (exporterUrl cfg ip) cfg.exporterTimeoutSeconds)) :
    (evaluatePod cfg now pod).wp G (fun fs v _ => Quiet es fs v) s es := by
  unfold evaluatePod
  split
  · exact Quiet.ok _
  · split
    · exact Quiet.ok _
    · exact Quiet.ok _
    · next hip =>
      refine Quiet.bind_wp (Method.wp_post (scrapeOk_wp (hget _ hip)) fun _ _ _ _ h => h.1) ?_
      intro fs up t _
      cases up <;> exact Quiet.ok _

theorem evaluateLoop_wp (pods : List Pod) {s : ExporterSupervisor}
    (hget : ∀ fs, ∀ pod ∈ pods, ∀ ip, es <+: fs → pod.podIP = some ip →
      G fs (.httpGet (exporterUrl cfg ip) cfg.exporterTimeoutSeconds)) :
    (evaluateLoop cfg now pods).wp G (fun fs v _ => Quiet es fs v) s es := by
  induction pods generalizing s es with
  | nil => exact Quiet.ok _
  | cons pod rest ih =>
    refine Quiet.bind_wp (evaluatePod_wp pod fun ip => hget es pod List.mem_cons_self ip (List.prefix_refl _)) ?_
    intro fs dec t hfs
    refine Quiet.bind_wp (ih fun gs p hp ip hgs => hget gs p (List.mem_cons_of_mem _ hp) ip (hfs.trans hgs)) ?_
    exact fun gs decisions t' _ => Quiet.ok _

theorem evaluate_wp (pods : List Pod) {s : ExporterSupervisor}
    (hget : ∀ fs, ∀ pod ∈ pods, ∀ ip, es <+: fs → pod.podIP = some ip →
      G fs (.httpGet (exporterUrl cfg ip) cfg.exporterTimeoutSeconds)) :
    (evaluate cfg pods now).wp G (fun fs v _ => Quiet es fs v) s es :=
  Quiet.bind_wp (evaluateLoop_wp pods hget) fun _ _ _ _ => Quiet.ok _

end

/-! ### The pass -/

/-- The guard with another supervisor and so many more failed Events. -/
def GuardObject.supervised (g : GuardObject) (supervisor : ExporterSupervisor) (failed : ℕ) : GuardObject :=
  { g with supervisor, state := { g.state with eventErrors := g.state.eventErrors + failed } }

variable {cfg : Config} {now : ℚ} {g : GuardObject} {es : List (Event Api)}
  {G : List (Event Api) → Req → Prop}

/-- What acting on exporter decisions leaves behind. -/
def Supervised {α : Type} (g : GuardObject) (es fs : List (Event Api)) (v : Except Exc α)
    (g' : GuardObject) : Prop :=
  Quiet es fs v ∧ ∃ supervisor failed, g' = g.supervised supervisor failed

theorem Supervised.refl {α : Type} (a : α) : Supervised g es es (.ok a : Except Exc α) g :=
  ⟨.ok a, g.supervisor, 0, rfl⟩

theorem Supervised.bind_wp {α β : Type} {m : Method Api Exc GuardObject α}
    {f : α → Method Api Exc GuardObject β} (hm : m.wp G (Supervised g es) g es)
    (hf : ∀ fs a g', es <+: fs → (f a).wp G (Supervised g' fs) g' fs) :
    (m >>= f).wp G (Supervised g es) g es := by
  refine Method.wp_bind_of hm ?_ ?_
  · rintro fs a g' hfs ⟨hquiet, s, n, rfl⟩
    refine Method.wp_post (hf fs a _ hfs) ?_
    rintro gs v g'' - ⟨hquiet', s', n', rfl⟩
    exact ⟨hquiet.trans hquiet', s', n + n', by simp [GuardObject.supervised, Nat.add_assoc]⟩
  · exact fun fs e g' _ h => ⟨h.1.error, h.2⟩

theorem runPodDecision_wp (dec : PodDecision)
    (hG : ∀ fs r, es <+: fs → r.forExporters = true → G fs r) :
    (runPodDecision cfg dec).wp G (Supervised g es) g es := by
  unfold runPodDecision
  split_ifs with hact
  · refine Supervised.bind_wp ?_ ?_
    · rw [wp_tryK8s]
      refine (wp_send _).mpr ⟨hG _ _ (List.prefix_refl _) rfl, fun v => ?_⟩
      rcases v with (_ | _ | _ | _) | _
      · exact ⟨.snoc (by simp) fun _ h => (by cases h), g.supervisor, 0, rfl⟩
      · exact ⟨.snoc (by simp) fun _ h => (by cases h), g.supervisor, 0, rfl⟩
      · exact ⟨.snoc (by simp) fun _ h => (by cases h), g.supervisor, 0, rfl⟩
      · exact ⟨.snoc (by simp) fun _ _ => rfl, g.supervisor, 0, rfl⟩
      · exact ⟨.snoc (by simp) fun _ h => (by cases h), g.supervisor, 0, rfl⟩
    · intro fs a g' hfs
      cases a with
      | error text => exact .refl _
      | ok u =>
        refine Method.wp_post (event_wp 0 "Pod" dec.pod "ExporterPodDeleted" dec.message "Warning"
          fun ev _ => hG _ _ hfs rfl) ?_
        rintro gs v g'' - ⟨hdone, ⟨n, rfl⟩, haborted⟩
        exact ⟨⟨hdone, haborted⟩, g'.supervisor, n, by simp [GuardObject.noted, GuardObject.supervised]⟩
  · exact .refl _

theorem runPodDecisions_wp (decisions : List PodDecision)
    (hG : ∀ fs r, es <+: fs → r.forExporters = true → G fs r) :
    (runPodDecisions cfg decisions).wp G (Supervised g es) g es := by
  induction decisions generalizing g es with
  | nil => exact .refl _
  | cons dec rest ih =>
    exact Supervised.bind_wp (runPodDecision_wp dec hG) fun fs _ g' hfs =>
      ih fun gs r hgs hr => hG gs r (hfs.trans hgs) hr

theorem runExporters_wp (hG : ∀ fs r, es <+: fs → r.forExporters = true → G fs r) :
    (runExporters cfg now).wp G (Supervised g es) g es := by
  unfold runExporters
  refine Supervised.bind_wp ?_ fun fs pods g' hfs => Supervised.bind_wp ?_ fun gs decisions g'' hgs =>
    Supervised.bind_wp (runPodDecisions_wp decisions fun hs r hhs hr => hG hs r ((hfs.trans hgs).trans hhs) hr)
      fun _ _ _ _ => .refl _
  · refine (wp_send _).mpr ⟨hG _ _ (List.prefix_refl _) rfl, fun v => ?_⟩
    cases v with
    | ok => exact ⟨.snoc (by simp) fun _ h => (by cases h), g.supervisor, 0, rfl⟩
    | error => exact ⟨.snoc (by simp) fun _ _ => rfl, g.supervisor, 0, rfl⟩
  · rw [Method.wp_on]
    refine Method.wp_post (evaluate_wp pods fun hs pod _ ip hhs _ => hG hs _ (hfs.trans hhs) rfl) ?_
    exact fun gs v s _ hquiet => ⟨hquiet, s, 0, rfl⟩

end GpuNodeHealth.Guard
