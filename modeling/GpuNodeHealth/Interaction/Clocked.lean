import GpuNodeHealth.Interaction.Contract

/-! Processes that share a clock with their server. Time passes between steps; a
call begins at the clock, what arrives is dated by it, and a request is answered
or given up within its timeout. -/

namespace GpuNodeHealth.Interaction

/-- How arguments and arrivals are dated, and how long a request may take. -/
structure Timing (Req A C T : Type) where
  arg : A → T
  arrival : C → T
  timeout : Req → T

inductive Tick (ε ι A C T : Type) where
  | advance (t : T)
  | act (l : Label ε ι A C)

/-- The request a call is at, answered or not. -/
def Job.request {I : Interface} {ε ι A σ α : Type} (job : Job I ε ι A σ α) : Option I.Req :=
  match job.phase with
  | .running _ => none
  | .waiting r _ => some r
  | .answered r _ _ => some r

namespace System

variable {Req ε : Type} {Ans : Req → Type} {ι A σ α S C T : Type}

/-- `since` says when each process sent its latest request. -/
structure Clocked (sys : System Req ε Ans ι A σ α S C) (T : Type) where
  world : sys.World
  clock : T
  since : ι → T

variable {sys : System Req ε Ans ι A σ α S C} (timing : Timing Req A C T)

/-- The step is in time. -/
def Clocked.Timely [LE T] [Add T] (w : sys.Clocked T) : Label ε ι A C → Prop
  | .begin _ a => timing.arg a = w.clock
  | .serve _ c | .late _ c => timing.arrival c = w.clock
  | .receive p | .fail p _ =>
    ∀ r ∈ (w.world.procs p).job.bind Job.request, w.clock ≤ w.since p + timing.timeout r
  | _ => True

instance [LE T] [Add T] [DecidableEq T] [DecidableLE T] (w : sys.Clocked T) :
    (l : Label ε ι A C) → Decidable (w.Timely timing l)
  | .begin _ a => inferInstanceAs (Decidable (timing.arg a = w.clock))
  | .serve _ c | .late _ c => inferInstanceAs (Decidable (timing.arrival c = w.clock))
  | .receive p | .fail p _ => inferInstanceAs (Decidable
    (∀ r ∈ (w.world.procs p).job.bind Job.request, w.clock ≤ w.since p + timing.timeout r))
  | .send _ | .finish _ | .restart _ => inferInstanceAs (Decidable True)

def Clocked.step [LE A] [DecidableLE A] [DecidableEq ι] [LE T] [Add T] [DecidableEq T] [DecidableLE T]
    (w : sys.Clocked T) : Tick ε ι A C T → Option (sys.Clocked T)
  | .advance t => if w.clock ≤ t then some { w with clock := t } else none
  | .act l =>
    if w.Timely timing l then
      (w.world.step l).map fun world =>
        { world
          clock := w.clock
          since := match l with
            | .send p => Function.update w.since p w.clock
            | _ => w.since }
    else none

def Clocked.start (sys : System Req ε Ans ι A σ α S C) (server : S) (t : T) : sys.Clocked T where
  world := sys.start server
  clock := t
  since := fun _ => t

variable {timing}

/-- What arrives in time is dated by the clock. -/
theorem Clocked.Timely.arrival [LE T] [Add T] {w : sys.Clocked T} {l : Label ε ι A C} (h : w.Timely timing l)
    {env : Envelope (Fallible Req ε Ans) ι A σ} {c : C} (hserved : w.world.served l = some (env, c)) :
    timing.arrival c = w.clock := by
  cases l with
  | serve p c' | late i c' =>
    obtain ⟨env', -, heq⟩ := Option.map_eq_some_iff.mp hserved
    cases heq
    exact h
  | _ => cases hserved

/-! ### Runs on the clock -/

variable [Preorder A] [DecidableLE A] [DecidableEq ι] [Preorder T] [Add T] [DecidableEq T] [DecidableLE T]
  {K : sys.Contract}

/-- The contract holds of the world, and no call began later than now. -/
structure Clocked.Good (K : sys.Contract) (timing : Timing Req A C T) (w : sys.Clocked T) : Prop where
  world : K.Good w.world
  last : ∀ p (a : A), (w.world.procs p).last = a → timing.arg a ≤ w.clock

theorem Clocked.Good.step (hK : K.Kept) {w w' : sys.Clocked T} (h : w.Good K timing) {l : Tick ε ι A C T}
    (hstep : w.step timing l = some w') : w'.Good K timing := by
  cases l with
  | advance t =>
    simp only [Clocked.step] at hstep
    split_ifs at hstep with ht
    cases hstep
    exact ⟨h.world, fun p a ha => (h.last p a ha).trans ht⟩
  | act l =>
    simp only [Clocked.step] at hstep
    split_ifs at hstep with htimely
    obtain ⟨world, hworld, rfl⟩ := Option.map_eq_some_iff.mp hstep
    refine ⟨h.world.step hK hworld, fun p a ha => ?_⟩
    rcases World.step_last hworld p with hsame | ⟨b, rfl, hb⟩
    · exact h.last p a (hsame ▸ ha)
    · have hba : b = a := WithBot.coe_injective (hb.symm.trans ha)
      exact hba ▸ le_of_eq htimely

/-- The contract holds at every point of a run on the clock. -/
theorem Contract.Kept.clocked (hK : K.Kept) {s : S} (hinv : K.Inv s) (hmarks : K.marks s = []) {t : T}
    {ticks : List (Tick ε ι A C T)} {w : sys.Clocked T}
    (hrun : runFrom (Clocked.step timing) (Clocked.start sys s t) ticks = some w) : w.Good K timing :=
  runFrom_invariant (Q := fun _ _ => True) (fun _ _ _ h _ hstep => h.step hK hstep)
    ⟨hK.start hinv hmarks, fun _ _ h => by cases h⟩ hrun (along_of_forall (fun _ _ => trivial) _ _)

/-! ### A call with the server to itself -/

theorem Clocked.step_advance (timing : Timing Req A C T) {w : sys.Clocked T} {t : T} (h : w.clock ≤ t) :
    w.step timing (.advance t) = some { w with clock := t } := if_pos h

theorem Clocked.step_act (timing : Timing Req A C T) {w : sys.Clocked T} {l : Label ε ι A C} {world : sys.World}
    (hstep : w.world.step l = some world) (htimely : w.Timely timing l) :
    ∃ v, w.step timing (.act l) = some v ∧ v.world = world ∧ v.clock = w.clock ∧
      ∀ p, w.since p = w.clock ∨ l = .send p → v.since p = w.clock := by
  simp only [Clocked.step, if_pos htimely, hstep, Option.map_some]
  refine ⟨_, rfl, rfl, rfl, fun p hp => ?_⟩
  cases l with
  | send q =>
    rcases hp with hp | hp
    · by_cases hq : p = q
      · simp [hq]
      · simp [Function.update_of_ne hq, hp]
    · cases hp
      simp
  | _ => simpa using hp

/-- From one state to another while no time passes and the server goes no further
than it has gone in the end. -/
structure Clocked.Reaches (timing : Timing Req A C T) (R : S → S → Prop) (p : ι) (w : sys.Clocked T)
    (ticks : List (Tick ε ι A C T)) (w' : sys.Clocked T) : Prop where
  run : runFrom (Clocked.step timing) w ticks = some w'
  clock : w'.clock = w.clock
  jobs : ∀ q, q ≠ p → (w'.world.procs q).job = (w.world.procs q).job
  server : R w.world.server w'.world.server
  along : Along (Clocked.step timing) (fun v _ => v.clock = w.clock ∧ R v.world.server w'.world.server ∧
    R w.world.server v.world.server) w ticks

theorem Clocked.Reaches.trans {R : S → S → Prop} (htrans : ∀ s t u, R s t → R t u → R s u) {p : ι}
    {u v w : sys.Clocked T} {ticks more : List (Tick ε ι A C T)} (h : u.Reaches timing R p ticks v)
    (h' : v.Reaches timing R p more w) : u.Reaches timing R p (ticks ++ more) w where
  run := (runFrom_append h.run more).trans h'.run
  clock := h'.clock.trans h.clock
  jobs q hq := (h'.jobs q hq).trans (h.jobs q hq)
  server := htrans _ _ _ h.server h'.server
  along := by
    refine (h.along.mono fun x _ hx => ?_).append h.run (h'.along.mono fun x _ hx => ?_)
    · exact ⟨hx.1, htrans _ _ _ hx.2.1 h'.server, hx.2.2⟩
    · exact ⟨hx.1.trans h.clock, hx.2.1, htrans _ _ _ h.server hx.2.2⟩

/-- A request of a call, answered at once. -/
theorem Clocked.reaches_answer {R : S → S → Prop} (hrefl : ∀ s, R s s) {c : C} {caller : Caller ι A σ} {p : ι} {r : Req}
    {k : Except ε (Ans r) → Program (Fallible Req ε Ans) (Except ε α × σ)} {w : sys.Clocked T}
    {es : List (Event (Fallible Req ε Ans))} (hjob : (w.world.procs p).job = some ⟨caller, es, .running (.call r k)⟩)
    (hR : R w.world.server (sys.respond w.world.server ⟨caller, es, r⟩ c).1)
    (hc : timing.arrival c = w.clock) (htimeout : w.clock ≤ w.clock + timing.timeout r) :
    ∃ w', w.Reaches timing R p [.act (.send p), .act (.serve p c), .act (.receive p)] w' ∧
      w'.world.server = (sys.respond w.world.server ⟨caller, es, r⟩ c).1 ∧
      ∃ fs, (w'.world.procs p).job =
        some ⟨caller, fs, .running (k (sys.respond w.world.server ⟨caller, es, r⟩ c).2)⟩ := by
  generalize hv : sys.respond w.world.server ⟨caller, es, r⟩ c = v at hR
  have hsend : w.world.step (.send p) = some (w.world.putJob p ⟨caller, es, .waiting r k⟩) := by
    simp only [World.step, hjob]
  obtain ⟨w₁, hsend, hworld₁, hclock₁, hsince₁⟩ := Clocked.step_act timing hsend trivial
  have hserve : w₁.world.step (.serve p c) =
      some (({ w.world with server := v.1 } : sys.World).putJob p ⟨caller, es, .answered r k v.2⟩) := by
    simp [hworld₁, World.step, World.putJob, World.put, World.arrive, hv]
  obtain ⟨w₂, hserve, hworld₂, hclock₂, hsince₂⟩ := Clocked.step_act timing hserve (hc.trans hclock₁.symm)
  have hreceive : w₂.world.step (.receive p) =
      some (({ w.world with server := v.1 } : sys.World).putJob p ⟨caller, es ++ [⟨r, v.2⟩], .running (k v.2)⟩) := by
    simp [hworld₂, World.step, World.putJob, World.put]
  have hsince : w₂.since p = w.clock := by
    rw [hsince₂ p (.inl (by rw [hsince₁ p (.inr rfl), hclock₁])), hclock₁]
  obtain ⟨w₃, hreceive, hworld₃, hclock₃, -⟩ := Clocked.step_act timing hreceive
    (by simpa [Clocked.Timely, hworld₂, World.putJob, Job.request, hclock₂, hclock₁, hsince] using htimeout)
  have hclock : w₃.clock = w.clock := by rw [hclock₃, hclock₂, hclock₁]
  refine ⟨w₃, ⟨?_, hclock, fun q hq => ?_, by rw [hworld₃]; exact hR, ?_⟩, by rw [hworld₃]; rfl,
    es ++ [⟨r, v.2⟩], by rw [hworld₃, World.putJob, World.put_self]⟩
  · rw [runFrom_cons hsend, runFrom_cons hserve, runFrom_cons hreceive]
    rfl
  · simp [hworld₃, World.putJob, World.put_of_ne _ hq]
  · rw [hworld₃]
    refine .cons hsend ⟨rfl, hR, hrefl _⟩ ?_
    refine .cons hserve ⟨hclock₁, ?_⟩ (.cons hreceive ⟨hclock₂.trans hclock₁, ?_⟩ trivial)
    · rw [hworld₁]
      exact ⟨hR, hrefl _⟩
    · rw [hworld₂]
      exact ⟨hrefl _, hR⟩

/-- A call under way can come to its end at this clock, every request answered at
once, if none of its requests is one that the server has no time for; the server is
then where the program takes it. -/
theorem Clocked.reaches_end (timing : Timing Req A C T)
    {respond : Option S → (r : Req) → Option S × Except ε (Ans r)} {R : S → S → Prop} (hrefl : ∀ s, R s s)
    (htrans : ∀ s t u, R s t → R t u → R s u) {c : C} {caller : Caller ι A σ} {t : T}
    (hnone : ∀ r, (respond none r).1 = none)
    (hsome : ∀ s es r, (respond (some s) r).1 = none ∨ t ≤ t + timing.timeout r ∧
      respond (some s) r = (some (sys.respond s ⟨caller, es, r⟩ c).1, (sys.respond s ⟨caller, es, r⟩ c).2) ∧
        R s (sys.respond s ⟨caller, es, r⟩ c).1)
    {p : ι} {prog : Program (Fallible Req ε Ans) (Except ε α × σ)} {w : sys.Clocked T}
    {es : List (Event (Fallible Req ε Ans))} (hjob : (w.world.procs p).job = some ⟨caller, es, .running prog⟩)
    (hclock : w.clock = t) (hc : timing.arrival c = t) {server : S}
    (hserve : (prog.serve respond (some w.world.server)).2 = some server) :
    ∃ ticks w', w.Reaches timing R p ticks w' ∧ (w'.world.procs p).job = none ∧ w'.world.server = server := by
  induction prog generalizing w es with
  | done out =>
    obtain ⟨world, hstep, hserver, hjobs, hidle⟩ : ∃ world, w.world.step (.finish p) = some world ∧
        world.server = w.world.server ∧ (∀ q, q ≠ p → (world.procs q).job = (w.world.procs q).job) ∧
          (world.procs p).job = none := by
      simp only [World.step, hjob]
      exact ⟨_, rfl, rfl, fun q hq => by simp [World.put_of_ne _ hq], by simp⟩
    obtain ⟨v, hfinish, rfl, hclock, -⟩ := Clocked.step_act timing hstep trivial
    refine ⟨[.act (.finish p)], v, ⟨(runFrom_cons hfinish []).trans rfl, hclock, hjobs, hserver ▸ hrefl _, ?_⟩, hidle,
      hserver.trans (Option.some.inj hserve)⟩
    rw [hserver]
    exact .cons hfinish ⟨rfl, hrefl _, hrefl _⟩ trivial
  | call r k ih =>
    rw [Program.serve] at hserve
    rcases hsome w.world.server es r with hstuck | ⟨htimeout, hrespond, hR⟩
    · rw [hstuck, Program.serve_stuck hnone] at hserve
      cases hserve
    · rw [hrespond] at hserve
      obtain ⟨v, hreach, hserver, fs, hjob'⟩ := Clocked.reaches_answer hrefl hjob hR (hc.trans hclock.symm)
        (hclock ▸ htimeout)
      rw [← hserver] at hserve
      obtain ⟨ticks, w', hrest, hidle, hend⟩ := ih _ hjob' (hreach.clock.trans hclock) hserve
      exact ⟨_, w', hreach.trans htrans hrest, hidle, hend⟩

end System

end GpuNodeHealth.Interaction
