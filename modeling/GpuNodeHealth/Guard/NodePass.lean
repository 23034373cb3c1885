import GpuNodeHealth.Guard.Decisions
import GpuNodeHealth.Guard.Main

/-! What a node pass does. It asks for the fleet once, sends a cordon only for a
node that `decide` cordons on that answer, and adds its clock to the record for
every cordon that succeeded. Whether it ends well or raises on the way, that is
all it does to the guard. -/

namespace GpuNodeHealth.Guard

open Cluster Interaction

/-- The cordon PATCHes of a history that succeeded. -/
def cordonsDone (es : List (Event Api)) : ℕ :=
  es.countP fun
    | ⟨.cordon _, .ok _⟩ => true
    | _ => false

/-- The failures that abort a pass which has listed the fleet. -/
def aborts : Event Api → Bool
  | ⟨.cordon _, .error (.other _)⟩ => true
  | ⟨.createEvent .., .error (.other _)⟩ => true
  | ⟨.listPods .., .error _⟩ => true
  | ⟨.deletePod .., .error (.other _)⟩ => true
  | ⟨.httpGet .., .error (.other _)⟩ => true
  | ⟨.httpGet .., .error (.k8sError _)⟩ => true
  | _ => false

def Aborted (es : List (Event Api)) : Prop := ∃ e ∈ es, aborts e = true

instance (es : List (Event Api)) : Decidable (Aborted es) := inferInstanceAs (Decidable (∃ e ∈ es, _))

/-- The guard after so many more cordons, all at one clock, and failed Events. -/
def GuardObject.noted (g : GuardObject) (now : ℚ) (cordoned failed : ℕ) : GuardObject :=
  { g with
    recentCordons := g.recentCordons ++ List.replicate cordoned now
    state := { g.state with eventErrors := g.state.eventErrors + failed } }

/-- The guard without the record that has aged out. -/
def GuardObject.pruned (g : GuardObject) (cfg : Config) (now : ℚ) : GuardObject :=
  { g with recentCordons := g.recentCordons.filter (now - cfg.rateLimitWindowSeconds ≤ ·) }

variable {cfg : Config} {now : ℚ} {g : GuardObject} {es : List (Event Api)}
  {G : List (Event Api) → Req → Prop}

theorem GuardObject.noted_zero : g.noted now 0 0 = g := by simp [GuardObject.noted]

theorem GuardObject.noted_noted (k n k' n' : ℕ) :
    (g.noted now k n).noted now k' n' = g.noted now (k + k') (n + n') := by
  simp [GuardObject.noted, Nat.add_assoc]

theorem cordonsDone_append (es fs : List (Event Api)) :
    cordonsDone (es ++ fs) = cordonsDone es + cordonsDone fs :=
  List.countP_append

theorem cordonsDone_mono {fs : List (Event Api)} (h : es <+: fs) : cordonsDone es ≤ cordonsDone fs :=
  h.sublist.countP_le

theorem cordonsDone_other {r : Req} (h : ∀ name, r ≠ .cordon name) (v : Except Exc (Ans r)) :
    cordonsDone [⟨r, v⟩] = 0 := by
  cases r <;> first | rfl | exact absurd rfl (h _)

/-- What the passes exchange with the cluster short of a cordon. -/
theorem cordonsDone_snoc {r : Req} (h : ∀ name, r ≠ .cordon name) (v : Except Exc (Ans r)) :
    cordonsDone (es ++ [⟨r, v⟩]) = cordonsDone es := by
  rw [cordonsDone_append, cordonsDone_other h, Nat.add_zero]

theorem Aborted.last {e : Event Api} (h : aborts e = true) : Aborted (es ++ [e]) := ⟨e, by simp, h⟩

/-- An Event changes nothing but the count of failed Events. -/
theorem event_wp (now : ℚ) (kind name reason message etype : String)
    (hevent : ∀ ev, ev.involvedObject = involvedObject cfg kind name →
      G es (.createEvent (eventNamespace ev.involvedObject) ev)) :
    (event cfg kind name reason message etype).wp G (fun fs v g' =>
      cordonsDone fs = cordonsDone es ∧ (∃ n, g' = g.noted now 0 n) ∧
        ∀ e, v = .error e → Aborted fs) g es := by
  simp only [event, emitEvent, Method.wp_bind, wp_tryK8s]
  refine (wp_send _).mpr ⟨hevent ⟨involvedObject cfg kind name, reason, clip 1024 message, etype⟩ rfl, fun v => ?_⟩
  have hdone := @cordonsDone_snoc es _ (by simp) v
  have hsame : ∃ n, g = g.noted now 0 n := ⟨0, GuardObject.noted_zero.symm⟩
  have hfailed : ∃ n, { g with state := { g.state with eventErrors := g.state.eventErrors + 1 } } =
      g.noted now 0 n := ⟨1, by simp [GuardObject.noted]⟩
  rcases v with (_ | _ | _ | _) | _
  · exact ⟨hdone, hfailed, fun _ h => by cases h⟩
  · exact ⟨hdone, hfailed, fun _ h => by cases h⟩
  · exact ⟨hdone, hfailed, fun _ h => by cases h⟩
  · exact ⟨hdone, hsame, fun _ _ => .last rfl⟩
  · exact ⟨hdone, hsame, fun _ h => by cases h⟩

/-- What acting on decisions leaves behind: the record grew by the cordons that
succeeded, at most `limit` of them, and a result counts exactly those; without a
result an aborting failure stands in the history. -/
def Acted (now : ℚ) (g : GuardObject) (es : List (Event Api)) (limit : ℕ) (fs : List (Event Api))
    (v : Except Exc ℕ) (g' : GuardObject) : Prop :=
  ∃ k n, k ≤ limit ∧ cordonsDone fs = cordonsDone es + k ∧ g' = g.noted now k n ∧ match v with
    | .ok c => c = k
    | .error _ => Aborted fs

theorem Acted.refl : Acted now g es 0 es (.ok 0) g :=
  ⟨0, 0, le_rfl, rfl, GuardObject.noted_zero.symm, rfl⟩

theorem Acted.mono {fs : List (Event Api)} {limit limit' : ℕ} {v : Except Exc ℕ} {g' : GuardObject}
    (h : Acted now g es limit fs v g') (hle : limit ≤ limit') : Acted now g es limit' fs v g' := by
  obtain ⟨k, n, hk, hrest⟩ := h
  exact ⟨k, n, hk.trans hle, hrest⟩

/-- An Event on top of what was done leaves the tally as it is. -/
theorem Acted.event_wp {g₀ : GuardObject} {es₀ : List (Event Api)} {limit c : ℕ}
    (h : Acted now g₀ es₀ limit es (.ok c) g) (kind name reason message etype : String)
    (hevent : ∀ ev, ev.involvedObject = involvedObject cfg kind name →
      G es (.createEvent (eventNamespace ev.involvedObject) ev)) :
    (do event cfg kind name reason message etype; return c).wp G (Acted now g₀ es₀ limit) g es := by
  obtain ⟨k, n, hk, hdone, rfl, hc⟩ := h
  refine Method.wp_bind_of (Guard.event_wp now kind name reason message etype hevent) ?_ ?_
  · rintro fs - g' - ⟨hsame, ⟨n', rfl⟩, -⟩
    exact ⟨k, n + n', hk, hsame.trans hdone, GuardObject.noted_noted .., hc⟩
  · rintro fs e g' - ⟨hsame, ⟨n', rfl⟩, haborted⟩
    exact ⟨k, n + n', hk, hsame.trans hdone, GuardObject.noted_noted .., haborted e rfl⟩

theorem runDecision_wp (dec : Decision)
    (hcordon : dec.action = .cordon → G es (.cordon dec.node))
    (hevent : ∀ fs ev, es <+: fs → ev.involvedObject = involvedObject cfg "Node" dec.node →
      G fs (.createEvent (eventNamespace ev.involvedObject) ev)) :
    (runDecision cfg now dec).wp G (Acted now g es (if dec.action = .cordon then 1 else 0)) g es := by
  unfold runDecision
  split_ifs with hact
  · rw [Method.wp_bind, wp_tryK8s]
    refine (wp_send _).mpr ⟨hcordon hact, fun v => ?_⟩
    have hevent' := fun ev => hevent (es ++ [⟨.cordon dec.node, v⟩]) ev (List.prefix_append _ _)
    cases v with
    | ok =>
      have hdone : Acted now g es 1 (es ++ [⟨.cordon dec.node, .ok ()⟩]) (.ok 1)
          { g with recentCordons := g.recentCordons ++ [now] } :=
        ⟨1, 0, le_rfl, cordonsDone_append .., by simp [GuardObject.noted], rfl⟩
      exact hdone.event_wp "Node" dec.node "GPUNodeCordoned" dec.message "Warning" hevent'
    | error exc =>
      have hzero : Acted now g es 1 (es ++ [⟨.cordon dec.node, .error exc⟩]) (.ok 0) g :=
        ⟨0, 0, Nat.zero_le _, cordonsDone_append .., GuardObject.noted_zero.symm, rfl⟩
      cases exc with
      | other text =>
        exact ⟨0, 0, Nat.zero_le _, cordonsDone_append .., GuardObject.noted_zero.symm, .last rfl⟩
      | _ => exact hzero.event_wp "Node" dec.node "GPUCordonFailed" _ "Warning" hevent'
  · have hrefl : Acted now g es 0 es (.ok 0) g := .refl
    cases eventReason dec.reason with
    | none => exact hrefl
    | some reason => exact hrefl.event_wp _ _ _ _ _ fun ev => hevent _ ev (List.prefix_refl _)

theorem Acted.trans {g' g'' : GuardObject} {fs gs : List (Event Api)} {limit limit' c : ℕ}
    {v : Except Exc ℕ} (h : Acted now g es limit fs (.ok c) g') (h' : Acted now g' fs limit' gs v g'') :
    Acted now g es (limit + limit') gs (v.map (c + ·)) g'' := by
  obtain ⟨k, n, hk, hdone, rfl, hc⟩ := h
  obtain ⟨k', n', hk', hdone', rfl, hc'⟩ := h'
  refine ⟨k + k', n + n', by omega, by omega, GuardObject.noted_noted .., ?_⟩
  cases v with
  | error e => exact hc'
  | ok a => exact congrArg₂ (· + ·) hc hc'

/-- A cordon is only sent while fewer were done than decided. -/
theorem runDecisions_wp (decisions : List Decision)
    (hcordon : ∀ dec ∈ decisions, dec.action = .cordon → ∀ fs, es <+: fs →
      cordonsDone fs < cordonsDone es + cordons decisions → G fs (.cordon dec.node))
    (hevent : ∀ dec ∈ decisions, ∀ fs ev, es <+: fs → ev.involvedObject = involvedObject cfg "Node" dec.node →
      G fs (.createEvent (eventNamespace ev.involvedObject) ev)) :
    (runDecisions cfg now decisions).wp G (Acted now g es (cordons decisions)) g es := by
  induction decisions generalizing g es with
  | nil => exact .refl
  | cons dec rest ih =>
    have hlimit : cordons (dec :: rest) = (if dec.action = .cordon then 1 else 0) + cordons rest := by
      simp [cordons, List.countP_cons, Nat.add_comm]
    rw [runDecisions, hlimit]
    refine Method.wp_bind_of (runDecision_wp dec (fun hact => ?_) (hevent dec List.mem_cons_self)) ?_ ?_
    · refine hcordon dec List.mem_cons_self hact es (List.prefix_refl _) ?_
      rw [hlimit, if_pos hact]
      omega
    · intro fs c g' hfs hacted
      have hcordonLater : ∀ d ∈ rest, d.action = .cordon → ∀ gs, fs <+: gs →
          cordonsDone gs < cordonsDone fs + cordons rest → G gs (.cordon d.node) := by
        intro d hd hact gs hgs hlt
        refine hcordon d (List.mem_cons_of_mem _ hd) hact gs (hfs.trans hgs) ?_
        obtain ⟨k, n, hk, hdone, -⟩ := hacted
        omega
      refine Method.wp_bind_of (ih hcordonLater fun d hd gs ev hgs =>
        hevent d (List.mem_cons_of_mem _ hd) gs ev (hfs.trans hgs)) ?_ ?_
      · exact fun gs c' g'' _ hacted' => hacted.trans hacted'
      · exact fun gs e g'' _ hacted' => hacted.trans hacted'
    · intro fs e g' _ hacted
      exact hacted.mono (Nat.le_add_right _ _)

/-! ### The pass -/

/-- What a node pass leaves behind. Its decisions are those of `decide` on the
fleet it listed, and it cordons no more nodes than the budget had left; it fails
to list the fleet, or by an aborting failure. -/
def NodesDone (cfg : Config) (now : ℚ) (g : GuardObject) (es fs : List (Event Api))
    (v : Except Exc NodesOutcome) (g' : GuardObject) : Prop :=
  ∃ k n, cordonsDone fs = cordonsDone es + k ∧
    (k : ℤ) ≤ max 0 (cfg.maxCordonsPerWindow - inWindow g.recentCordons now cfg.rateLimitWindowSeconds) ∧
    match v with
    | .error _ => g' = g.noted now k n ∧
        (Aborted fs ∨ k = 0 ∧ ∃ exc, fs = es ++ [⟨.listNodes cfg.nodeLabelSelector, .error exc⟩])
    | .ok outcome => g' = (g.noted now k n).pruned cfg now ∧
        es ++ [⟨.listNodes cfg.nodeLabelSelector, .ok outcome.nodes⟩] <+: fs ∧
        outcome.decisions = decide outcome.nodes now cfg.policy parseTime g.recentCordons ∧
        outcome.capacity = healthyCapacity outcome.nodes now cfg.conditionMinAgeSeconds parseTime [] ∧
        outcome.cordoned = k

theorem runNodes_wp (hlist : G es (.listNodes cfg.nodeLabelSelector))
    (hcordon : ∀ nodes, ∀ dec ∈ decide nodes now cfg.policy parseTime g.recentCordons,
      dec.action = .cordon → ∀ fs, es ++ [⟨.listNodes cfg.nodeLabelSelector, .ok nodes⟩] <+: fs →
        (cordonsDone fs : ℤ) < cordonsDone es +
          (cfg.maxCordonsPerWindow - inWindow g.recentCordons now cfg.rateLimitWindowSeconds) →
        G fs (.cordon dec.node))
    (hevent : ∀ nodes, ∀ dec ∈ decide nodes now cfg.policy parseTime g.recentCordons, ∀ fs ev,
      es ++ [⟨.listNodes cfg.nodeLabelSelector, .ok nodes⟩] <+: fs →
        ev.involvedObject = involvedObject cfg "Node" dec.node →
          G fs (.createEvent (eventNamespace ev.involvedObject) ev)) :
    (runNodes cfg now).wp G (NodesDone cfg now g es) g es := by
  rw [runNodes, Method.wp_bind]
  refine (wp_send _).mpr ⟨hlist, fun v => ?_⟩
  have hlisted := @cordonsDone_snoc es _ (by simp) v
  cases v with
  | error exc => exact ⟨0, 0, hlisted, le_max_left _ _, GuardObject.noted_zero.symm,
      .inr ⟨rfl, exc, rfl⟩⟩
  | ok nodes =>
    have hbudget := @cordons_decideLoop_le nodes now cfg.policy parseTime
      (cfg.maxCordonsPerWindow - inWindow g.recentCordons now cfg.rateLimitWindowSeconds) nodes
    change Method.wp G _ (runDecisions cfg now
      (decide nodes now cfg.policy parseTime g.recentCordons) >>= _) g _
    refine Method.wp_bind_of (runDecisions_wp _
      (fun dec hdec hact fs hfs hlt => hcordon nodes dec hdec hact fs hfs ?_)
      (hevent nodes)) ?_ ?_
    · have hle := cordonsDone_mono hfs
      simp only [decide, Config.policy] at hlt hbudget
      omega
    · rintro fs c g' hfs ⟨k, n, hk, hdone, rfl, hc⟩
      obtain rfl : c = k := hc
      exact ⟨c, n, hdone.trans (by rw [hlisted]), (Int.ofNat_le.mpr hk).trans hbudget, rfl, hfs, rfl, rfl, rfl⟩
    · rintro fs e g' - ⟨k, n, hk, hdone, rfl, haborted⟩
      exact ⟨k, n, hdone.trans (by rw [hlisted]), (Int.ofNat_le.mpr hk).trans hbudget, rfl, .inl haborted⟩

end GpuNodeHealth.Guard
