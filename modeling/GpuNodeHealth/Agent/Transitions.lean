import GpuNodeHealth.Agent.Publisher
import GpuNodeHealth.Debounce.Streak
import GpuNodeHealth.Guard.Conditions

/-! What `lastTransitionTime` means. Within one process the publisher holds, for
every condition, where the streak of its present status began, and each PATCH
carries that; a restart forgets it, and the next PATCH starts the streak anew. -/

namespace GpuNodeHealth.Agent

open Cluster Interaction Debounce
open Guard (conditionIndex conditionIndex_append)

/-! ### What the publisher holds -/

/-- The status of a condition with the stamp of its transition. -/
def ConditionPublisher.view (publisher : ConditionPublisher) (name : ConditionName) : Option (String × String) :=
  (publisher.lastStatus name).bind fun status => (publisher.transitions name).map fun since => (status, since)

variable {publisher : ConditionPublisher} {now : String} {detail : Detail} {name other : ConditionName}

theorem view_transitions {status since : String} (h : publisher.view name = some (status, since)) :
    publisher.transitions name = some since := by
  simp only [ConditionPublisher.view, Option.bind_eq_some_iff, Option.map_eq_some_iff] at h
  obtain ⟨s, -, t, ht, heq⟩ := h
  rw [ht, (Prod.mk.inj heq).2]

theorem observe_view (info : ConditionInfo) :
    (publisher.observe now name info).view other =
      if other = name then hold (publisher.view name) (info.status, now) else publisher.view other := by
  have htracked := publisher.tracked name
  by_cases hother : other = name
  · subst hother
    simp only [ConditionPublisher.view, ConditionPublisher.observe, Function.update_self, if_true,
      Option.bind_some]
    rcases hs : publisher.lastStatus other with _ | status
    · simp [hold]
    · rw [hs, Option.isSome_some, Option.isSome_iff_exists] at htracked
      obtain ⟨since, ht⟩ := htracked
      by_cases hflip : status = info.status
      · simp [hold, hflip, ht]
      · simp [hold, hflip, ht]
  · simp only [ConditionPublisher.view, ConditionPublisher.observe, if_neg hother,
      Function.update_of_ne hother]
    split_ifs <;> simp [hother]

/-- What a publish does to the memory of one condition. -/
def remember (view : Option (String × String)) (now : String) : Option ConditionInfo → Option (String × String)
  | none => view
  | some info => hold view (info.status, now)

theorem observeAll_view {names : List ConditionName} (hnames : names.Nodup) :
    (publisher.observeAll now detail names).1.view name =
      if name ∈ names then remember (publisher.view name) now (detail name) else publisher.view name := by
  induction names generalizing publisher with
  | nil => rfl
  | cons n rest ih =>
    obtain ⟨hn, hrest⟩ := List.nodup_cons.mp hnames
    rw [ConditionPublisher.observeAll]
    cases hd : detail n with
    | none =>
      rw [ih hrest]
      by_cases heq : name = n
      · simp [heq, hn, remember, hd]
      · simp [heq]
    | some info =>
      simp only [ih hrest, observe_view]
      by_cases heq : name = n
      · simp [heq, hn, remember, hd]
      · simp [heq]

theorem observeAll_transitions {names : List ConditionName} (hname : name ∉ names) :
    (publisher.observeAll now detail names).1.transitions name = publisher.transitions name := by
  induction names generalizing publisher with
  | nil => rfl
  | cons n rest ih =>
    obtain ⟨hn, hrest⟩ := not_or.mp (mt List.mem_cons.mpr hname)
    rw [ConditionPublisher.observeAll]
    cases hd : detail n with
    | none => exact ih hrest
    | some info =>
      refine (ih hrest).trans ?_
      simp only [ConditionPublisher.observe]
      split_ifs <;> simp [hn]

/-- The PATCH has an entry for every evaluated condition, with what the
publisher holds of it in the end. -/
theorem observeAll_patch {names : List ConditionName} (hnames : names.Nodup) :
    (publisher.observeAll now detail names).2 = names.filterMap fun name =>
      (detail name).map ((publisher.observeAll now detail names).1.entry now name) := by
  induction names generalizing publisher with
  | nil => rfl
  | cons n rest ih =>
    obtain ⟨hn, hrest⟩ := List.nodup_cons.mp hnames
    rw [ConditionPublisher.observeAll]
    cases hd : detail n with
    | none =>
      rw [List.filterMap_cons, hd]
      exact ih hrest
    | some info =>
      rw [List.filterMap_cons, hd]
      refine congrArg₂ List.cons ?_ (ih hrest)
      simp only [ConditionPublisher.entry, observeAll_transitions hn]

theorem type_injective : Function.Injective ConditionName.type := by
  intro a b h
  cases a <;> cases b <;> first | rfl | exact absurd h (by decide)

theorem type_ne_empty : name.type ≠ "" := by cases name <;> decide

/-! ### What the Node shows -/

theorem mergeCondition_entry {old : NodeCondition} {info : ConditionInfo} (htype : old.type = some name.type)
    (hsince : (publisher.transitions name).isSome) :
    mergeCondition old (publisher.entry now name info) = publisher.entry now name info := by
  obtain ⟨since, hsince⟩ := Option.isSome_iff_exists.mp hsince
  simp [mergeCondition, ConditionPublisher.entry, hsince, htype]

/-- A merged entry is what the guard then finds under its type; the other types
are left alone. -/
theorem conditionIndex_mergeInto (node : Node) {conditions : List NodeCondition} {new : NodeCondition}
    {t t' : String} (ht : new.type = some t) (hne : t ≠ "")
    (hmerge : ∀ old : NodeCondition, old.type = some t → mergeCondition old new = new) :
    conditionIndex { node with conditions := mergeInto conditions new } t' =
      if t' = t then some new else conditionIndex { node with conditions := conditions } t' := by
  have hmap : conditionIndex { node with conditions := conditions.map fun old =>
      if old.type = new.type then mergeCondition old new else old } t' =
        if t' = t ∧ conditions.any (·.type = new.type) then some new
        else conditionIndex { node with conditions := conditions } t' := by
    induction conditions using List.reverseRecOn with
    | nil => simp
    | append_singleton conditions c ih =>
      rw [List.map_append, List.map_singleton, conditionIndex_append, conditionIndex_append, ih]
      by_cases hc : c.type = some t
      · by_cases htt : t' = t
        · simp [hc, ht, hmerge c hc, htt, hne]
        · simp [hc, ht, hmerge c hc, htt, Ne.symm htt]
      · by_cases htt : t' = t
        · simp [hc, ht, htt]
        · simp [hc, ht, htt]
  unfold mergeInto
  by_cases hany : conditions.any (·.type = new.type) = true
  · rw [if_pos hany, hmap]
    simp only [hany, and_true]
  · rw [if_neg hany, conditionIndex_append]
    by_cases htt : t' = t
    · simp [ht, htt, hne]
    · simp [ht, htt, Ne.symm htt]

/-- What the guard finds on the Node after a PATCH. -/
theorem conditionIndex_applyPatch (node : Node) {names : List ConditionName} (hnames : names.Nodup)
    (hsince : ∀ name ∈ names, (detail name).isSome → (publisher.transitions name).isSome) :
    conditionIndex (applyPatch node (names.filterMap fun name => (detail name).map (publisher.entry now name)))
        name.type =
      if name ∈ names then ((detail name).map (publisher.entry now name)).or (conditionIndex node name.type)
      else conditionIndex node name.type := by
  induction names generalizing node with
  | nil => rfl
  | cons n rest ih =>
    obtain ⟨hn, hrest⟩ := List.nodup_cons.mp hnames
    have hsince' := fun name hname => hsince name (List.mem_cons_of_mem n hname)
    cases hd : detail n with
    | none =>
      rw [List.filterMap_cons, hd]
      refine (ih node hrest hsince').trans ?_
      by_cases heq : name = n
      · simp [heq, hn, hd]
      · simp [heq]
    | some info =>
      rw [List.filterMap_cons, hd]
      have hentry := @conditionIndex_mergeInto node node.conditions (publisher.entry now n info) n.type
        name.type rfl type_ne_empty fun old hold =>
            mergeCondition_entry hold (hsince n List.mem_cons_self (by simp [hd]))
      refine (ih { node with conditions := mergeInto node.conditions (publisher.entry now n info) }
        hrest hsince').trans ?_
      rw [hentry]
      by_cases heq : name = n
      · simp [heq, hn, hd]
      · simp [heq, type_injective.ne heq]

/-! ### Runs of the agent -/

/-- One publish call: its clock, what was evaluated, whether the PATCH took
effect on the Node, and the answer the publisher saw. -/
structure Publication where
  now : ℚ
  detail : Detail
  applied : Bool
  answer : Except Exc Unit

/-- The publisher in its process, and the Node in the cluster. -/
structure World where
  publisher : ConditionPublisher := {}
  node : Node

inductive Step where
  | publish (publication : Publication)
  | restart

def World.runPublish (w : World) (p : Publication) : (Except Exc Unit × ConditionPublisher) × List (Event Api) :=
  ((publish (w.node.name.getD "") p.detail p.now).call w.publisher).play (fun _ _ => p.answer) []

/-- The conditions of the PATCH a publish sends. -/
def World.patch (w : World) (p : Publication) : Option (List NodeCondition) :=
  (w.runPublish p).2.head?.map (·.1.conditions)

def World.publish (w : World) (p : Publication) : World where
  publisher := (w.runPublish p).1.2
  node := if p.applied then ((w.patch p).map (applyPatch w.node)).getD w.node else w.node

/-- A restart creates a fresh publisher; the Node stays. -/
def World.step (w : World) : Step → World
  | .publish p => w.publish p
  | .restart => { w with publisher := {} }

def World.run (w : World) (steps : List Step) : World := steps.foldl World.step w

theorem allConditions_nodup : allConditions.Nodup := by decide

theorem mem_allConditions (name : ConditionName) : name ∈ allConditions := by cases name <;> decide

variable {w : World} {p : Publication}

theorem observeAll_none {names : List ConditionName} (h : ∀ name ∈ names, detail name = none) :
    publisher.observeAll now detail names = (publisher, []) := by
  induction names with
  | nil => rfl
  | cons n rest ih =>
    rw [ConditionPublisher.observeAll, h n List.mem_cons_self]
    exact ih fun name hname => h name (List.mem_cons_of_mem n hname)

/-- A publish sends what it observed, and keeps it whatever becomes of the PATCH. -/
theorem runPublish_eq (w : World) (p : Publication) :
    ((w.runPublish p).1.2, (w.patch p).getD []) =
      w.publisher.observeAll (rfc3339 p.now) p.detail allConditions := by
  unfold World.patch World.runPublish publish
  by_cases hnone : (allConditions.all fun name => (p.detail name).isNone) = true
  · rw [if_pos hnone]
    simp only [List.all_eq_true, Option.isNone_iff_eq_none] at hnone
    rw [observeAll_none hnone]
    rfl
  · rw [if_neg hnone]
    rcases p.answer with (_ | _) | _ <;> rfl

theorem publish_publisher (w : World) (p : Publication) : (w.publish p).publisher =
    (w.publisher.observeAll (rfc3339 p.now) p.detail allConditions).1 :=
  congrArg Prod.fst (runPublish_eq w p)

theorem publish_node (w : World) (p : Publication) : (w.publish p).node = if p.applied then
    applyPatch w.node (w.publisher.observeAll (rfc3339 p.now) p.detail allConditions).2 else w.node := by
  rw [← runPublish_eq w p]
  unfold World.publish
  cases w.patch p <;> rfl

theorem publish_view (w : World) (p : Publication) (name : ConditionName) :
    (w.publish p).publisher.view name =
      remember (w.publisher.view name) (rfc3339 p.now) (p.detail name) := by
  rw [publish_publisher, observeAll_view allConditions_nodup, if_pos (mem_allConditions name)]

/-- After a publish that evaluated the condition the publisher holds its status. -/
theorem publish_view_some {info : ConditionInfo} (hd : p.detail name = some info) :
    ∃ since, (w.publish p).publisher.view name = some (info.status, since) ∧
      (w.publish p).publisher.transitions name = some since := by
  have hview := publish_view w p name
  have hstatus := congrArg (Option.map Prod.fst) hview
  rw [hd, remember, fst_hold, Option.map_eq_some_iff] at hstatus
  obtain ⟨⟨status, since⟩, hsome, rfl⟩ := hstatus
  exact ⟨since, hsome, view_transitions hsome⟩

theorem find_patch {names : List ConditionName} (hname : name ∈ names)
    (entry : ConditionName → Option NodeCondition) (htype : ∀ n c, entry n = some c → c.type = some n.type)
    {c : NodeCondition} (hc : entry name = some c) :
    (names.filterMap entry).find? (·.type = some name.type) = some c := by
  induction names with
  | nil => simp at hname
  | cons n rest ih =>
    rw [List.filterMap_cons]
    by_cases heq : n = name
    · rw [heq, hc]
      simp [htype name c hc]
    · have hrest := ih ((List.mem_cons.mp hname).resolve_left (Ne.symm heq))
      cases hn : entry n with
      | none => exact hrest
      | some c' => simpa [htype n c' hn, type_injective.ne heq] using hrest

/-- The `lastTransitionTime` the PATCH of a publish carries for a condition. -/
def World.carried (w : World) (p : Publication) (name : ConditionName) : Option String :=
  (((w.patch p).getD []).find? (·.type = some name.type)).bind (·.lastTransitionTime)

/-- The PATCH carries the transition the publisher then holds. -/
theorem carried_eq {info : ConditionInfo} (hd : p.detail name = some info) :
    ∃ since, (w.publish p).publisher.view name = some (info.status, since) ∧
      w.carried p name = some since := by
  obtain ⟨since, hview, hsince⟩ := publish_view_some (w := w) hd
  refine ⟨since, hview, ?_⟩
  rw [publish_publisher] at hsince
  have hpatch := congrArg Prod.snd (runPublish_eq w p)
  simp only [observeAll_patch allConditions_nodup] at hpatch
  rw [World.carried, hpatch, find_patch (mem_allConditions name) _ ?_ (congrArg _ hd)]
  · exact hsince
  · intro n c hc
    obtain ⟨info', -, rfl⟩ := Option.map_eq_some_iff.mp hc
    rfl

/-- While the status stays and the process lives, so does the transition. -/
theorem run_view_same {steps : List Step} {status since : String} (hrestart : .restart ∉ steps)
    (hsame : ∀ p, .publish p ∈ steps → ∀ info, p.detail name = some info → info.status = status)
    (h : w.publisher.view name = some (status, since)) :
    (w.run steps).publisher.view name = some (status, since) := by
  induction steps generalizing w with
  | nil => exact h
  | cons step rest ih =>
    obtain ⟨hstep, hrest⟩ := not_or.mp (mt List.mem_cons.mpr hrestart)
    cases step with
    | restart => exact absurd rfl hstep
    | publish p =>
      refine ih hrest (fun q hq => hsame q (List.mem_cons_of_mem _ hq)) ?_
      rw [World.step, publish_view, h]
      cases hd : p.detail name with
      | none => rfl
      | some info => simp [remember, hold, hsame p List.mem_cons_self info hd]

/-- If every publish from the PATCH of `p` to that of `q` evaluates the
condition to one status, both PATCHes carry the same transition. -/
def KeepsTransition (w : World) (before : List Step) (p : Publication) (between : List Step)
    (q : Publication) (name : ConditionName) : Prop :=
  ∀ status, (∀ r, .publish r ∈ .publish p :: between ++ [.publish q] →
      (r.detail name).map (·.status) = some status) →
    (w.run before).carried p name = (w.run (before ++ .publish p :: between)).carried q name

/-- A run without a restart between two PATCHes keeps the transition. -/
theorem keepsTransition_of_no_restart (w : World) (before : List Step) (p : Publication) (between : List Step)
    (q : Publication) (name : ConditionName) (hrestart : .restart ∉ between) :
    KeepsTransition w before p between q name := by
  intro status hstatus
  have hinfo : ∀ r, .publish r ∈ .publish p :: between ++ [.publish q] → ∃ info, r.detail name = some info ∧
      info.status = status := fun r hr => by simpa [Option.map_eq_some_iff] using hstatus r hr
  obtain ⟨infop, hp, hps⟩ := hinfo p (by simp)
  obtain ⟨infoq, hq, hqs⟩ := hinfo q (by simp)
  obtain ⟨since, hview, hcarried⟩ := carried_eq (w := w.run before) hp
  rw [hps] at hview
  have hrun : w.run (before ++ .publish p :: between) = ((w.run before).publish p).run between := by
    simp [World.run, World.step]
  have hheld : (w.run (before ++ .publish p :: between)).publisher.view name = some (status, since) := by
    rw [hrun]
    refine run_view_same hrestart (fun r hr info hd => ?_) hview
    obtain ⟨info', hd', hs⟩ := hinfo r (by simp [hr])
    rw [hd] at hd'
    exact (Option.some.inj hd') ▸ hs
  obtain ⟨since', hview', hcarried'⟩ := carried_eq (w := w.run (before ++ .publish p :: between)) hq
  rw [publish_view, hheld, hq, remember, hold, if_pos hqs.symm] at hview'
  rw [hcarried, hcarried', (Prod.mk.inj (Option.some.inj hview')).2]

/-- A publish at which every condition is active, and its PATCH takes effect. -/
def allActive (now : ℚ) : Publication := ⟨now, fun _ => some ⟨true, "", ""⟩, true, .ok ()⟩

theorem keepsTransition_no_restart_ten_minutes :
    KeepsTransition { node := {} } [] (allActive 0) [.publish (allActive 300)] (allActive 600) .gpuUnrecoverable :=
  keepsTransition_of_no_restart _ _ _ _ _ _ (by simp)

/-- A restart between two PATCHes moves the transition though nothing flipped. -/
theorem restart_moves_transition : ¬∀ (w : World) (before : List Step) (p : Publication) (between : List Step)
    (q : Publication) (name : ConditionName),
    (∀ r, .publish r ∈ before ++ .publish p :: between ++ [.publish q] → r.applied = true) →
      KeepsTransition w before p between q name := by
  intro h
  have hmoved := h { node := {} } [] (allActive 0) [.restart] (allActive 600) .gpuUnrecoverable
    (by simp [allActive]) "True" (by simp [allActive, ConditionInfo.status])
  exact absurd hmoved (by decide +kernel)

end GpuNodeHealth.Agent
