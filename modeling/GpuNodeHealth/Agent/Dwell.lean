import GpuNodeHealth.Agent.Transitions

/-! The dwell time, end to end. The agent's publisher and the guard's
`trigger_level` share nothing but the Node and its stamps; still, a condition
that the guard finds old enough has been active at every publish since a moment
at least the minimum age ago, up to the second the stamp drops. -/

namespace GpuNodeHealth.Agent

open Cluster Interaction Debounce
open Guard (conditionIndex)

/-- The observations of a condition, with the publishes they were made at. -/
def observed (name : ConditionName) (publications : List Publication) : List (String × Publication) :=
  publications.filterMap fun p => (p.detail name).map fun info => (info.status, p)

/-- The PATCH of the publish changed what the Node shows of the condition. -/
def Shows (name : ConditionName) (p : Publication) : Prop := p.applied = true ∧ (p.detail name).isSome

/-- The run of one process that only publishes. -/
def World.publishAll (w : World) (publications : List Publication) : World := publications.foldl World.publish w

variable {w : World} {name : ConditionName} {publications : List Publication}

theorem publishAll_snoc (p : Publication) :
    w.publishAll (publications ++ [p]) = (w.publishAll publications).publish p := by
  simp [World.publishAll]

theorem observed_snoc (p : Publication) : observed name (publications ++ [p]) =
    observed name publications ++ ((p.detail name).map fun info => (info.status, p)).toList := by
  cases h : p.detail name <;> simp [observed, h]

theorem held_observed_snoc {p : Publication} {info : ConditionInfo} (hd : p.detail name = some info) :
    held (observed name (publications ++ [p])) = hold (held (observed name publications)) (info.status, p) := by
  rw [observed_snoc, hd]
  exact held_snoc _ _

/-- A fresh publisher holds, of each condition, the streak it is in. -/
theorem publishAll_view (node : Node) (publications : List Publication) :
    (World.publishAll { node } publications).publisher.view name =
      (held (observed name publications)).map (Prod.map id fun p => rfc3339 p.now) := by
  induction publications using List.reverseRecOn with
  | nil => rfl
  | append_singleton publications p ih =>
    rw [publishAll_snoc, publish_view, ih]
    cases hd : p.detail name with
    | none => simp [remember, observed_snoc, hd]
    | some info => rw [held_observed_snoc hd, ← hold_map]; rfl

/-- What one publish changes of what the guard finds on the Node. -/
theorem publish_index (w : World) (p : Publication) (name : ConditionName) :
    conditionIndex (w.publish p).node name.type = if p.applied then
        ((p.detail name).map ((w.publish p).publisher.entry (rfc3339 p.now) name)).or
          (conditionIndex w.node name.type)
      else conditionIndex w.node name.type := by
  rw [publish_node, apply_ite fun node => conditionIndex node name.type]
  congr 1
  rw [observeAll_patch allConditions_nodup, ← publish_publisher, conditionIndex_applyPatch _ allConditions_nodup,
    if_pos (mem_allConditions name)]
  intro n _ hn
  obtain ⟨info, hd⟩ := Option.isSome_iff_exists.mp hn
  obtain ⟨since, -, hsince⟩ := publish_view_some (w := w) hd
  simp [hsince]

/-- What the Node shows of a condition once some PATCH with it took effect: the
streak the publisher was in at the last of them. -/
theorem publishAll_shows (node : Node) (h : ∃ p ∈ publications, Shows name p) :
    ∃ upto last after cond status first, publications = upto ++ last :: after ∧ Shows name last ∧
      (∀ p ∈ after, ¬Shows name p) ∧
      conditionIndex (World.publishAll { node } publications).node name.type = some cond ∧
      held (observed name (upto ++ [last])) = some (status, first) ∧
      cond.status = some status ∧ cond.lastTransitionTime = some (rfc3339 first.now) := by
  induction publications using List.reverseRecOn with
  | nil => simp at h
  | append_singleton publications p ih =>
    have hindex := publish_index (World.publishAll { node } publications) p name
    rw [← publishAll_snoc] at hindex
    by_cases hp : Shows name p
    · obtain ⟨happlied, hsome⟩ := hp
      obtain ⟨info, hd⟩ := Option.isSome_iff_exists.mp hsome
      obtain ⟨since, hview, hsince⟩ := publish_view_some (w := World.publishAll { node } publications) hd
      rw [← publishAll_snoc] at hview hsince
      rw [happlied, if_pos rfl, hd, Option.map_some, Option.some_or] at hindex
      rw [publishAll_view, Option.map_eq_some_iff] at hview
      obtain ⟨⟨status, first⟩, hheld, heq⟩ := hview
      obtain ⟨rfl, rfl⟩ := Prod.mk.inj heq
      exact ⟨publications, p, [], _, _, first, rfl, ⟨happlied, hsome⟩, by simp, hindex, hheld, rfl, hsince⟩
    · have hsame : conditionIndex (World.publishAll { node } (publications ++ [p])).node name.type =
          conditionIndex (World.publishAll { node } publications).node name.type := by
        rw [hindex]
        split_ifs with happlied
        · have hnone : p.detail name = none := by simpa [Shows, happlied] using hp
          rw [hnone]
          rfl
        · rfl
      have hbefore : ∃ q ∈ publications, Shows name q := by
        obtain ⟨q, hq, hshows⟩ := h
        rcases List.mem_append.mp hq with hq | hq
        · exact ⟨q, hq, hshows⟩
        · exact absurd (List.mem_singleton.mp hq ▸ hshows) hp
      obtain ⟨upto, last, after, cond, status, first, rfl, hlast, hafter, hcond, hrest⟩ := ih hbefore
      refine ⟨upto, last, after ++ [p], cond, status, first, by simp, hlast, ?_, hsame.trans hcond, hrest⟩
      intro q hq
      rcases List.mem_append.mp hq with hq | hq
      · exact hafter q hq
      · exact List.mem_singleton.mp hq ▸ hp

/-- The streak an observed condition is in, among the publishes. -/
theorem observed_streak {status : String} {first : Publication}
    (h : held (observed name publications) = some (status, first)) :
    ∃ before streak, publications = before ++ first :: streak ∧
      (first.detail name).map (·.status) = some status ∧
      (∀ p ∈ streak, ∀ info, p.detail name = some info → info.status = status) ∧
      ∀ o ∈ (observed name before).getLast?, o.1 ≠ status := by
  obtain ⟨ob, os, hobs, hstreak, hbefore⟩ := held_streak h
  obtain ⟨l₁, l₂, rfl, rfl, hl₂⟩ := List.filterMap_eq_append_iff.mp hobs
  obtain ⟨m₁, a, m₂, rfl, hm₁, ha, rfl⟩ := List.filterMap_eq_cons_iff.mp hl₂
  obtain ⟨info, hd, heq⟩ := Option.map_eq_some_iff.mp ha
  obtain ⟨rfl, rfl⟩ := Prod.mk.inj heq
  refine ⟨l₁ ++ m₁, m₂, by simp, by simp [hd], fun p hp info' hd' => ?_, ?_⟩
  · exact hstreak (info'.status, p) (List.mem_filterMap.mpr ⟨p, hp, by simp [hd']⟩)
  · have hnone : observed name (l₁ ++ m₁) = observed name l₁ := by
      simp only [observed, List.filterMap_append, List.filterMap_eq_nil_iff.mpr hm₁, List.append_nil]
    rw [hnone]
    exact hbefore

/-! ### The guard's reading -/

open Guard in
/-- A trigger that is not too young is a True condition of the Node with a
stamp of at least the minimum age. -/
theorem triggerLevel_aged {node : Node} {now : ℚ} {minAgeSeconds : ℤ} {parse : TimeParser} {t : Trigger}
    (ht : triggerLevel node now minAgeSeconds parse = some t) (hold : t.tooYoung = false) :
    ∃ ctype ∈ levelRules.flatMap (·.2), conditionIndex node ctype = some t.cond ∧
      t.cond.status = some "True" ∧
        ∃ since, parse t.cond.lastTransitionTime = some since ∧ (minAgeSeconds : ℚ) ≤ now - since := by
  obtain ⟨⟨level, types⟩, hrule, htypes⟩ := List.exists_of_findSome?_eq_some ht
  obtain ⟨ctype, hctype, htrigger⟩ := List.exists_of_findSome?_eq_some htypes
  refine ⟨ctype, List.mem_flatMap.mpr ⟨_, hrule, hctype⟩, ?_⟩
  unfold triggerOf at htrigger
  cases hindex : conditionIndex node ctype with
  | none => simp [hindex] at htrigger
  | some cond =>
    simp only [hindex] at htrigger
    split_ifs at htrigger with htrue
    have hstatus : cond.status = some "True" := by simpa [Guard.isTrue] using htrue
    cases hparse : parse cond.lastTransitionTime with
    | none =>
      rw [hparse] at htrigger
      obtain rfl := Option.some.inj htrigger
      cases hold
    | some since =>
      rw [hparse] at htrigger
      obtain rfl := Option.some.inj htrigger
      exact ⟨rfl, hstatus, since, hparse, not_lt.mp (of_decide_eq_false hold)⟩

/-- The guard's rules are about the conditions the agent publishes. -/
theorem levelRules_published {ctype : String} (h : ctype ∈ Guard.levelRules.flatMap (·.2)) :
    ∃ name : ConditionName, ctype = name.type := by
  have hall : ∀ ctype ∈ Guard.levelRules.flatMap (·.2), ∃ name ∈ allConditions, ctype = name.type := by decide
  obtain ⟨name, -, heq⟩ := hall ctype h
  exact ⟨name, heq⟩

/-- A condition that triggers and is not too young has been active at every
publish of a streak that ends with what the Node shows and began before
`g - minAgeSeconds + 1`. -/
theorem trigger_dwelt (node : Node) (publications : List Publication)
    (hshown : ∀ name, ∃ p ∈ publications, Shows name p)
    (hstamps : ∀ p ∈ publications, ReadsBack rfc3339 p.now) {g : ℚ} {minAgeSeconds : ℤ} {t : Guard.Trigger}
    (ht : Guard.triggerLevel (World.publishAll { node } publications).node g minAgeSeconds parseTime = some t)
    (hold : t.tooYoung = false) :
    ∃ name : ConditionName, t.cond.type = some name.type ∧ ∃ before first streak after,
      publications = before ++ first :: streak ++ after ∧
      (∃ last ∈ (first :: streak).getLast?, Shows name last) ∧ (∀ p ∈ after, ¬Shows name p) ∧
      (∃ info, first.detail name = some info ∧ info.active = true) ∧
      (∀ p ∈ streak, ∀ info, p.detail name = some info → info.active = true) ∧
      (∀ o ∈ (observed name before).getLast?, o.1 ≠ "True") ∧
      first.now < g - minAgeSeconds + 1 := by
  have hactive : ∀ info : ConditionInfo, info.status = "True" → info.active = true := by
    rintro ⟨_ | _, reason, message⟩ h
    · simp [ConditionInfo.status] at h
    · rfl
  obtain ⟨ctype, hrule, hindex, hstatus, since, hparse, hage⟩ := triggerLevel_aged ht hold
  obtain ⟨name, rfl⟩ := levelRules_published hrule
  obtain ⟨upto, last, after, cond, status, first, hsplit, hlast, hafter, hcond, hheld, hcs, hct⟩ :=
    publishAll_shows node (hshown name)
  obtain rfl : t.cond = cond := Option.some.inj (hindex.symm.trans hcond)
  obtain rfl : status = "True" := Option.some.inj (hcs.symm.trans hstatus)
  obtain ⟨before, streak, hstreak, hfirst, hsame, hbefore⟩ := observed_streak hheld
  refine ⟨name, (Guard.conditionIndex_mem hindex).2, before, first, streak, after, ?_, ⟨last, ?_, hlast⟩,
    hafter, ?_, fun p hp info hd => hactive info (hsame p hp info hd), hbefore, ?_⟩
  · rw [hsplit, List.append_cons, hstreak]
  · have hgl := congrArg List.getLast? hstreak
    simpa [List.getLast?_append] using hgl.symm
  · obtain ⟨info, hd, hs⟩ := Option.map_eq_some_iff.mp hfirst
    exact ⟨info, hd, hactive info hs⟩
  · have hmem : first ∈ publications := by
      rw [hsplit, List.append_cons, hstreak]
      simp
    rw [hct, hstamps first hmem] at hparse
    obtain rfl := Option.some.inj hparse
    have hfloor := Int.lt_floor_add_one first.now
    linarith

/-- What the guard finds after five minutes of publishing a True condition. -/
def fiveMinuteTrigger : Guard.Trigger where
  level := .l3
  cond :=
    { type := some "gpu-health.amd.io/GPUUnrecoverable", status := some "True", reason := some ""
      message := some "", lastHeartbeatTime := some "1970-01-01T00:05:00Z"
      lastTransitionTime := some "1970-01-01T00:00:00Z" }
  tooYoung := false

theorem trigger_dwelt_five_minutes :
    ∃ name : ConditionName, fiveMinuteTrigger.cond.type = some name.type ∧ ∃ before first streak after,
      [allActive 0, allActive 300] = before ++ first :: streak ++ after ∧
      (∃ last ∈ (first :: streak).getLast?, Shows name last) ∧ (∀ p ∈ after, ¬Shows name p) ∧
      (∃ info, first.detail name = some info ∧ info.active = true) ∧
      (∀ p ∈ streak, ∀ info, p.detail name = some info → info.active = true) ∧
      (∀ o ∈ (observed name before).getLast?, o.1 ≠ "True") ∧
      first.now < 300 - (120 : ℤ) + 1 :=
  @trigger_dwelt {} [allActive 0, allActive 300] (fun name => ⟨allActive 300, by simp, rfl, rfl⟩)
    (by decide +kernel) 300 120 fiveMinuteTrigger (by decide +kernel) rfl

end GpuNodeHealth.Agent
