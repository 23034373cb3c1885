import GpuNodeHealth.Guard.NodePass
import GpuNodeHealth.Guard.Publishing

/-! A node pass request by request. A turn on a decision is one cordon PATCH for
a cordon, then one Event if the decision is worth one; a pass is its turns one
after the other, and the first exception the guard does not catch cuts it
short. -/

namespace GpuNodeHealth.Guard

open Cluster Interaction

/-- The node a request to record an Event is about. -/
def aboutNode : Event Api → Option String
  | ⟨.createEvent _ ev, _⟩ => if ev.involvedObject.kind = "Node" then some ev.involvedObject.name else none
  | _ => none

/-- How many Events about a node the pass attempted. -/
def eventsAbout (name : String) (es : List (Event Api)) : ℕ := es.countP fun e => aboutNode e = some name

/-- The decision is acted on, or its reason is worth an Event. -/
def Told (dec : Decision) : Prop := dec.action = .cordon ∨ (eventReason dec.reason).isSome = true

instance (dec : Decision) : Decidable (Told dec) := inferInstanceAs (Decidable (_ ∨ _))

/-- What a turn exchanges with the cluster, and whether that cut the pass short. -/
inductive TurnEvents (dec : Decision) : List (Event Api) → Bool → Prop where
  | silent (told : ¬Told dec) : TurnEvents dec [] false
  | refused (act : dec.action ≠ .cordon) (told : Told dec) {e : Event Api} (about : aboutNode e = some dec.node) :
    TurnEvents dec [e] (aborts e)
  | raised (act : dec.action = .cordon) {text : String} :
    TurnEvents dec [⟨.cordon dec.node, .error (.other text)⟩] true
  | acted (act : dec.action = .cordon) {v : Except Exc Unit} (caught : aborts ⟨.cordon dec.node, v⟩ = false)
    {e : Event Api} (about : aboutNode e = some dec.node) :
    TurnEvents dec [⟨.cordon dec.node, v⟩, e] (aborts e)

/-- The turns of a pass, up to its end or to the one that cut it short. -/
inductive PassEvents : List Decision → List (Event Api) → Bool → Prop where
  | nil : PassEvents [] [] false
  | cons {dec : Decision} {rest : List Decision} {es fs : List (Event Api)} {cut : Bool}
    (turn : TurnEvents dec es false) (later : PassEvents rest fs cut) : PassEvents (dec :: rest) (es ++ fs) cut
  | cut {dec : Decision} {rest : List Decision} {es : List (Event Api)} (turn : TurnEvents dec es true) :
    PassEvents (dec :: rest) es true

variable {cfg : Config} {now : ℚ} {g : GuardObject} {es : List (Event Api)}

def raised {α : Type} : Except Exc α → Bool
  | .ok _ => false
  | .error _ => true

theorem event_events (name reason message etype : String) :
    (event cfg "Node" name reason message etype).wp (fun _ _ => True) (fun fs v _ =>
      ∃ e, fs = es ++ [e] ∧ aboutNode e = some name ∧ aborts e = raised v) g es := by
  simp only [event, emitEvent, Method.wp_bind, wp_tryK8s]
  refine (wp_send (Req.createEvent _ _)).mpr ⟨trivial, fun v => ?_⟩
  rcases v with (_ | _ | _ | _) | _ <;> exact ⟨_, rfl, rfl, rfl⟩

/-- An Event after what the turn already exchanged. -/
theorem event_return {c : ℕ} {fs : List (Event Api)} (name reason message etype : String) :
    (do event cfg "Node" name reason message etype; return c).wp (fun _ _ => True) (fun gs v _ =>
      ∃ e, gs = es ++ fs ++ [e] ∧ aboutNode e = some name ∧ aborts e = raised v) g (es ++ fs) := by
  refine Method.wp_bind_of (event_events name reason message etype) ?_ ?_
  · exact fun _ _ _ _ h => h
  · exact fun _ _ _ _ h => h

theorem runDecision_events (dec : Decision) :
    (runDecision cfg now dec).wp (fun _ _ => True) (fun fs v _ =>
      ∃ gs, fs = es ++ gs ∧ TurnEvents dec gs (raised v)) g es := by
  unfold runDecision
  split_ifs with hact
  · rw [Method.wp_bind, wp_tryK8s]
    refine (wp_send (Req.cordon _)).mpr ⟨trivial, fun v => ?_⟩
    have hsaid : ∀ (g' : GuardObject) (c : ℕ) reason message, aborts ⟨.cordon dec.node, v⟩ = false →
        (do event cfg "Node" dec.node reason message "Warning"; return c).wp (fun _ _ => True) (fun fs v _ =>
          ∃ gs, fs = es ++ gs ∧ TurnEvents dec gs (raised v)) g'
          (es ++ [(⟨.cordon dec.node, v⟩ : Event Api)]) := by
      intro g' c reason message hcaught
      refine Method.wp_post (event_return dec.node reason message "Warning") ?_
      rintro fs w t - ⟨e, rfl, habout, hraised⟩
      exact ⟨[⟨.cordon dec.node, v⟩, e], by simp, hraised ▸ .acted hact hcaught habout⟩
    cases v with
    | ok => exact hsaid _ 1 "GPUNodeCordoned" dec.message rfl
    | error exc =>
      cases exc with
      | other text => exact ⟨_, rfl, .raised hact⟩
      | _ => exact hsaid g 0 "GPUCordonFailed" _ rfl
  · cases hreason : eventReason dec.reason with
    | none => exact ⟨[], by simp, .silent (by simp [Told, hact, hreason])⟩
    | some reason =>
      have htold : Told dec := .inr (by simp [hreason])
      have hevent := @event_return cfg g es 0 [] dec.node reason dec.message "Warning"
      rw [List.append_nil] at hevent
      refine Method.wp_post hevent ?_
      rintro fs v t - ⟨e, rfl, habout, hraised⟩
      exact ⟨[e], rfl, hraised ▸ .refused hact htold habout⟩

theorem runDecisions_events (decisions : List Decision) :
    (runDecisions cfg now decisions).wp (fun _ _ => True) (fun fs v _ =>
      ∃ gs, fs = es ++ gs ∧ PassEvents decisions gs (raised v)) g es := by
  induction decisions generalizing g es with
  | nil => exact ⟨[], by simp, .nil⟩
  | cons dec rest ih =>
    refine Method.wp_bind_of (runDecision_events dec) ?_ ?_
    · rintro _ c g' - ⟨turn, rfl, hturn⟩
      refine Method.wp_bind_of ih ?_ ?_
      · rintro _ c' g'' - ⟨later, rfl, hlater⟩
        exact ⟨turn ++ later, by simp, .cons hturn hlater⟩
      · rintro _ e g'' - ⟨later, rfl, hlater⟩
        exact ⟨turn ++ later, by simp, .cons hturn hlater⟩
    · rintro _ e g' - ⟨turn, rfl, hturn⟩
      exact ⟨turn, rfl, .cut hturn⟩

/-- A pass that listed the fleet: the listing, then the turns on its decisions. -/
def NodesTurned (cfg : Config) (now : ℚ) (g : GuardObject) (fs : List (Event Api)) (v : Except Exc NodesOutcome)
    (_ : GuardObject) : Prop :=
  ∀ nodes, fleet fs = some nodes → ∃ gs, fs = ⟨.listNodes cfg.nodeLabelSelector, .ok nodes⟩ :: gs ∧
    PassEvents (decide nodes now cfg.policy parseTime g.recentCordons) gs (raised v)

theorem runNodes_events : (runNodes cfg now).wp (fun _ _ => True) (NodesTurned cfg now g) g [] := by
  rw [runNodes, Method.wp_bind]
  refine (wp_send (Req.listNodes _)).mpr ⟨trivial, fun v => ?_⟩
  cases v with
  | error exc => exact fun nodes h => by cases h
  | ok nodes =>
    change Method.wp (fun _ _ => True) _
      (runDecisions cfg now (decide nodes now cfg.policy parseTime g.recentCordons) >>= _) g _
    refine Method.wp_bind_of (runDecisions_events _) ?_ ?_
    · rintro _ c g' - ⟨gs, rfl, hgs⟩ nodes' hnodes'
      obtain rfl : nodes = nodes' := by simpa [fleet] using hnodes'
      exact ⟨gs, rfl, hgs⟩
    · rintro _ e g' - ⟨gs, rfl, hgs⟩ nodes' hnodes'
      obtain rfl : nodes = nodes' := by simpa [fleet] using hnodes'
      exact ⟨gs, rfl, hgs⟩

/-! ### Counting -/

/-- The cordon PATCHes of a history that failed. -/
def cordonsFailed (es : List (Event Api)) : ℕ :=
  es.countP fun
    | ⟨.cordon _, .error _⟩ => true
    | _ => false

variable {dec : Decision} {decisions : List Decision} {name : String}

theorem eventsAbout_append (es fs : List (Event Api)) :
    eventsAbout name (es ++ fs) = eventsAbout name es + eventsAbout name fs := List.countP_append

theorem eventsAbout_single (e : Event Api) : eventsAbout name [e] = if aboutNode e = some name then 1 else 0 := by
  simp [eventsAbout, List.countP_singleton]

theorem Aborted.append {es fs : List (Event Api)} : Aborted (es ++ fs) ↔ Aborted es ∨ Aborted fs := by
  simp only [Aborted, List.mem_append, or_and_right, exists_or]

theorem aborted_single {e : Event Api} : Aborted [e] ↔ aborts e = true := by simp [Aborted]

/-- A request about a node is no cordon. -/
theorem cordons_about {e : Event Api} (h : aboutNode e = some name) : cordonsDone [e] = 0 ∧ cordonsFailed [e] = 0 := by
  obtain ⟨r, v⟩ := e
  cases r <;> first | exact ⟨rfl, rfl⟩ | cases h

theorem TurnEvents.finished (h : TurnEvents dec es false) :
    ¬Aborted es ∧ ∀ name, eventsAbout name es = if dec.node = name ∧ Told dec then 1 else 0 := by
  generalize hcut : false = cut at h
  cases h with
  | silent told => exact ⟨by simp [Aborted], fun name => by simp [eventsAbout, told]⟩
  | refused _ told about =>
    refine ⟨by simp [aborted_single, ← hcut], fun name => ?_⟩
    simp [eventsAbout_single, about, told]
  | raised => cases hcut
  | @acted act v caught e about =>
    refine ⟨by simp [Aborted, caught, ← hcut], fun name => ?_⟩
    have hsplit : [(⟨.cordon dec.node, v⟩ : Event Api), e] = [⟨.cordon dec.node, v⟩] ++ [e] := rfl
    have hcordon : aboutNode ⟨.cordon dec.node, v⟩ = none := rfl
    have htold : Told dec := .inl act
    rw [hsplit, eventsAbout_append, eventsAbout_single, eventsAbout_single, hcordon, about]
    simp [htold]

/-- A turn is cut short by its last request: the cordon, or the Event. -/
theorem TurnEvents.cutShort (h : TurnEvents dec es true) : ∃ gs e, es = gs ++ [e] ∧ aborts e = true ∧ ¬Aborted gs ∧
    (aboutNode e = none ∧ dec.action = .cordon ∨ aboutNode e = some dec.node ∧ Told dec) ∧
    ∀ name, eventsAbout name es = if aboutNode e = some name then 1 else 0 := by
  obtain ⟨cut, hcut⟩ : ∃ cut, cut = true := ⟨_, rfl⟩
  rw [← hcut] at h
  cases h with
  | silent => cases hcut
  | @refused _ told e about =>
    exact ⟨[], e, rfl, hcut, by simp [Aborted], .inr ⟨about, told⟩, fun name => eventsAbout_single e⟩
  | raised act =>
    exact ⟨[], _, rfl, rfl, by simp [Aborted], .inl ⟨rfl, act⟩, fun name => eventsAbout_single _⟩
  | @acted act v caught e about =>
    refine ⟨[⟨.cordon dec.node, v⟩], e, rfl, hcut, by simp [aborted_single, caught],
      .inr ⟨about, .inl act⟩, fun name => ?_⟩
    have hsplit : [(⟨.cordon dec.node, v⟩ : Event Api), e] = [⟨.cordon dec.node, v⟩] ++ [e] := rfl
    have hcordon : aboutNode ⟨.cordon dec.node, v⟩ = none := rfl
    rw [hsplit, eventsAbout_append, eventsAbout_single, eventsAbout_single, hcordon]
    simp

theorem PassEvents.finished (h : PassEvents decisions es false) : ¬Aborted es ∧
    ∀ name, eventsAbout name es = decisions.countP fun d => d.node = name ∧ Told d := by
  generalize hcut : false = cut at h
  induction h with
  | nil => exact ⟨by simp [Aborted], fun _ => rfl⟩
  | @cons dec rest es fs cut turn later ih =>
    obtain ⟨hquiet, hcount⟩ := ih hcut
    obtain ⟨hquiet', hcount'⟩ := turn.finished
    refine ⟨by simp [Aborted.append, hquiet, hquiet'], fun name => ?_⟩
    rw [eventsAbout_append, hcount, hcount', List.countP_cons, Nat.add_comm]
    simp
  | cut => cases hcut

/-- A pass is cut short in some turn, by that turn's last request. -/
theorem PassEvents.cutShort (h : PassEvents decisions es true) :
    ∃ done dec rest gs e, decisions = done ++ dec :: rest ∧ es = gs ++ [e] ∧ aborts e = true ∧ ¬Aborted gs ∧
      (aboutNode e = none ∧ dec.action = .cordon ∨ aboutNode e = some dec.node ∧ Told dec) ∧
      ∀ name, eventsAbout name es = (done.countP fun d => d.node = name ∧ Told d) +
        if aboutNode e = some name then 1 else 0 := by
  obtain ⟨cut, hcut⟩ : ∃ cut, cut = true := ⟨_, rfl⟩
  rw [← hcut] at h
  induction h with
  | nil => cases hcut
  | @cons dec' rest' es fs cut turn later ih =>
    obtain ⟨done, dec, rest, gs, e, rfl, rfl, haborts, hquiet, hlast, hcount⟩ := ih hcut
    obtain ⟨hquiet', hcount'⟩ := turn.finished
    refine ⟨dec' :: done, dec, rest, es ++ gs, e, rfl, by simp, haborts, by simp [Aborted.append, hquiet, hquiet'],
      hlast, fun name => ?_⟩
    rw [eventsAbout_append, hcount, hcount', List.countP_cons]
    simp only [decide_eq_true_eq]
    omega
  | @cut dec rest es turn =>
    obtain ⟨gs, e, rfl, haborts, hquiet, hlast, hcount⟩ := turn.cutShort
    exact ⟨[], dec, rest, gs, e, rfl, rfl, haborts, hquiet, hlast, fun name => by simp [hcount]⟩

/-- A pass that came to its end sent one PATCH for each cordon it decided. -/
theorem PassEvents.cordons (h : PassEvents decisions es false) :
    cordonsDone es + cordonsFailed es = Guard.cordons decisions := by
  generalize hcut : false = cut at h
  have happend : ∀ es fs, cordonsDone (es ++ fs) + cordonsFailed (es ++ fs) =
      (cordonsDone es + cordonsFailed es) + (cordonsDone fs + cordonsFailed fs) := by
    intro es fs
    simp only [cordonsDone, cordonsFailed, List.countP_append]
    omega
  have hturn : ∀ {dec es cut}, TurnEvents dec es cut → cut = false →
      cordonsDone es + cordonsFailed es = if dec.action = .cordon then 1 else 0 := by
    intro dec es cut turn hcut
    cases turn with
    | silent told => simp [cordonsDone, cordonsFailed, not_or.mp told]
    | refused act _ about => simp [cordons_about about, act]
    | raised => cases hcut
    | @acted act v _ e about =>
      have hsplit : [(⟨.cordon dec.node, v⟩ : Event Api), e] = [⟨.cordon dec.node, v⟩] ++ [e] := rfl
      rw [hsplit, happend, (cordons_about about).1, (cordons_about about).2, if_pos act]
      cases v <;> rfl
  induction h with
  | nil => rfl
  | @cons dec rest es fs cut turn later ih =>
    rw [happend, ih hcut, hturn turn rfl, Guard.cordons, Guard.cordons, List.countP_cons, Nat.add_comm]
    simp
  | cut => cases hcut

end GpuNodeHealth.Guard
