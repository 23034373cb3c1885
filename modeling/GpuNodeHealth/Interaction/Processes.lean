import GpuNodeHealth.Interaction.Method
import Mathlib.Order.WithBot

/-! Processes around one server. Each process owns an object and calls a method
of it again and again; the requests of all calls reach the server in any order.
A request or its answer may get lost, and a request given up by its sender may
still arrive afterwards. A process that restarts has a fresh object, and what it
had on the way is out of its hands. -/

namespace GpuNodeHealth.Interaction

/-- The steps one after the other, if each fits. -/
def runFrom {W L : Type} (step : W → L → Option W) (w : W) (labels : List L) : Option W := labels.foldlM step w

/-- Every step of the run meets the condition in the state it is taken from. -/
def Along {W L : Type} (step : W → L → Option W) (Q : W → L → Prop) : W → List L → Prop
  | _, [] => True
  | w, l :: labels => Q w l ∧ ∀ u ∈ step w l, Along step Q u labels

instance decidableAlong {W L : Type} (step : W → L → Option W) (Q : W → L → Prop) [∀ w l, Decidable (Q w l)] :
    (w : W) → (labels : List L) → Decidable (Along step Q w labels)
  | _, [] => inferInstanceAs (Decidable True)
  | w, l :: labels =>
    have := fun u => decidableAlong step Q u labels
    inferInstanceAs (Decidable (Q w l ∧ ∀ u ∈ step w l, Along step Q u labels))

theorem along_of_forall {W L : Type} {step : W → L → Option W} {Q : W → L → Prop} (h : ∀ w l, Q w l) (w : W)
    (labels : List L) : Along step Q w labels := by
  induction labels generalizing w with
  | nil => trivial
  | cons l labels ih => exact ⟨h w l, fun u _ => ih u⟩

/-- What every step that meets the condition keeps is kept by a run whose steps meet it. -/
theorem runFrom_invariant {W L : Type} {step : W → L → Option W} {P : W → Prop} {Q : W → L → Prop}
    (hstep : ∀ w l w', P w → Q w l → step w l = some w' → P w') {w w' : W} {labels : List L} (h : P w)
    (hrun : runFrom step w labels = some w') (hcond : Along step Q w labels) : P w' := by
  induction labels generalizing w with
  | nil =>
    cases hrun
    exact h
  | cons l labels ih =>
    rw [runFrom, List.foldlM_cons] at hrun
    obtain ⟨u, hu, hrest⟩ := Option.bind_eq_some_iff.mp hrun
    exact ih (hstep w l u h hcond.1 hu) hrest (hcond.2 u hu)

/-- The same where every step fits. -/
theorem foldl_invariant {W L : Type} {step : W → L → W} {P : W → Prop} {Q : W → L → Prop}
    (hstep : ∀ w l, P w → Q w l → P (step w l)) {w : W} {labels : List L} (h : P w)
    (hcond : Along (fun w l => some (step w l)) Q w labels) : P (labels.foldl step w) := by
  induction labels generalizing w with
  | nil => exact h
  | cons l labels ih => exact ih (hstep w l h hcond.1) (hcond.2 _ rfl)

theorem Along.and {W L : Type} {step : W → L → Option W} {Q Q' : W → L → Prop} {w : W} {labels : List L}
    (h : Along step Q w labels) (h' : Along step Q' w labels) : Along step (fun w l => Q w l ∧ Q' w l) w labels := by
  induction labels generalizing w with
  | nil => trivial
  | cons l labels ih => exact ⟨⟨h.1, h'.1⟩, fun u hu => ih (h.2 u hu) (h'.2 u hu)⟩

theorem Along.mono {W L : Type} {step : W → L → Option W} {Q Q' : W → L → Prop} {w : W} {labels : List L}
    (h : Along step Q w labels) (hQ : ∀ w l, Q w l → Q' w l) : Along step Q' w labels := by
  induction labels generalizing w with
  | nil => trivial
  | cons l labels ih => exact ⟨hQ w l h.1, fun u hu => ih (h.2 u hu)⟩

theorem runFrom_cons {W L : Type} {step : W → L → Option W} {w u : W} {l : L} (h : step w l = some u)
    (labels : List L) : runFrom step w (l :: labels) = runFrom step u labels := by
  rw [runFrom, List.foldlM_cons, h]
  rfl

theorem Along.cons {W L : Type} {step : W → L → Option W} {Q : W → L → Prop} {w u : W} {l : L} (h : step w l = some u)
    (hw : Q w l) {labels : List L} (hrest : Along step Q u labels) : Along step Q w (l :: labels) := by
  refine ⟨hw, fun v hv => ?_⟩
  cases h.symm.trans hv
  exact hrest

theorem runFrom_append {W L : Type} {step : W → L → Option W} {w u : W} {labels : List L}
    (h : runFrom step w labels = some u) (more : List L) :
    runFrom step w (labels ++ more) = runFrom step u more := by
  rw [runFrom, List.foldlM_append]
  exact congrArg (· >>= _) h

theorem Along.append {W L : Type} {step : W → L → Option W} {Q : W → L → Prop} {w u : W} {labels more : List L}
    (h : Along step Q w labels) (hrun : runFrom step w labels = some u) (hmore : Along step Q u more) :
    Along step Q w (labels ++ more) := by
  induction labels generalizing w with
  | nil =>
    cases hrun
    exact hmore
  | cons l labels ih =>
    refine ⟨h.1, fun v hv => ih (h.2 v hv) ?_⟩
    rwa [runFrom_cons hv] at hrun

/-- Which call of which process, what it was given and the object it found. -/
structure Caller (ι A σ : Type) where
  proc : ι
  call : ℕ
  arg : A
  base : σ

/-- A request on its way, with what its call had exchanged before. -/
structure Envelope (I : Interface) (ι A σ : Type) where
  caller : Caller ι A σ
  events : List (Event I)
  req : I.Req

/-- A call that came to its end. -/
structure Returned (I : Interface) (ε ι A σ α : Type) where
  caller : Caller ι A σ
  events : List (Event I)
  result : Except ε α
  object : σ

/-- The method of the processes, the object each starts with, and the server:
what becomes of it, and the answer, when a request arrives. The environment has
a say in both. -/
structure System (Req ε : Type) (Ans : Req → Type) (ι A σ α S C : Type) where
  method : ι → A → Method (Fallible Req ε Ans) ε σ α
  fresh : σ
  respond : S → (env : Envelope (Fallible Req ε Ans) ι A σ) → C → S × Except ε (Ans env.req)

/-- Where a call stands: about to go on, waiting for an answer, or with the
answer on its way back. -/
inductive Phase (I : Interface) (β : Type) where
  | running (p : Program I β)
  | waiting (r : I.Req) (k : I.Val r → Program I β)
  | answered (r : I.Req) (k : I.Val r → Program I β) (v : I.Val r)

/-- A call under way. -/
structure Job (I : Interface) (ε ι A σ α : Type) where
  caller : Caller ι A σ
  events : List (Event I)
  phase : Phase I (Except ε α × σ)

/-- The request of the call that has not been answered. -/
def Job.pending {I : Interface} {ε ι A σ α : Type} (job : Job I ε ι A σ α) : Option (Envelope I ι A σ) :=
  match job.phase with
  | .waiting r _ => some ⟨job.caller, job.events, r⟩
  | _ => none

/-- The server has not yet answered the call. -/
def Job.Unserved {I : Interface} {ε ι A σ α : Type} (job : Job I ε ι A σ α) : Prop :=
  job.events = [] ∧ match job.phase with
    | .answered .. => False
    | _ => True

/-- A process: its object, how many calls it began, the argument of the last of
them, what its object last returned, and the call under way. -/
structure Process (I : Interface) (ε ι A σ α : Type) where
  object : σ
  calls : ℕ := 0
  last : WithBot A := ⊥
  returned : Option α := none
  job : Option (Job I ε ι A σ α) := none

/-- A request of the process that is of a call before the one yet to be served. -/
def Process.Outdated {I : Interface} {ε ι A σ α : Type} [LE A] (proc : Process I ε ι A σ α)
    (env : Envelope I ι A σ) : Prop :=
  env.caller.call < proc.calls ∧ (env.caller.arg : WithBot A) ≤ proc.last ∧
    ∀ job, proc.job = some job → job.Unserved → env.caller.call < job.caller.call

inductive Label (ε ι A C : Type) where
  | begin (p : ι) (a : A)
  | send (p : ι)
  | serve (p : ι) (c : C)
  | receive (p : ι)
  | fail (p : ι) (e : ε)
  | late (i : ℕ) (c : C)
  | finish (p : ι)
  | restart (p : ι)

namespace System

variable {Req ε : Type} {Ans : Req → Type} {ι A σ α S C : Type}

/-- The server, the processes, the requests whose senders gave them up and the
calls that came to their end. -/
structure World (sys : System Req ε Ans ι A σ α S C) where
  server : S
  procs : ι → Process (Fallible Req ε Ans) ε ι A σ α
  abandoned : List (Envelope (Fallible Req ε Ans) ι A σ) := []
  returns : List (Returned (Fallible Req ε Ans) ε ι A σ α) := []

variable (sys : System Req ε Ans ι A σ α S C)

def start (server : S) : sys.World where
  server
  procs := fun _ => { object := sys.fresh }

variable {sys} [DecidableEq ι]

def World.put (w : sys.World) (p : ι) (proc : Process (Fallible Req ε Ans) ε ι A σ α) : sys.World :=
  { w with procs := Function.update w.procs p proc }

@[simp] theorem World.put_self (w : sys.World) (p : ι) (proc : Process (Fallible Req ε Ans) ε ι A σ α) :
    (w.put p proc).procs p = proc := Function.update_self ..

theorem World.put_of_ne (w : sys.World) {p q : ι} (h : q ≠ p)
    (proc : Process (Fallible Req ε Ans) ε ι A σ α) : (w.put p proc).procs q = w.procs q :=
  Function.update_of_ne h ..

@[simp] theorem World.put_put (w : sys.World) (p : ι) (proc proc' : Process (Fallible Req ε Ans) ε ι A σ α) :
    (w.put p proc).put p proc' = w.put p proc' := by
  simp [World.put]

theorem World.put_last (w : sys.World) {p : ι} {proc : Process (Fallible Req ε Ans) ε ι A σ α} (q : ι)
    (h : proc.last = (w.procs p).last) : ((w.put p proc).procs q).last = (w.procs q).last := by
  by_cases hq : q = p
  · rw [hq, World.put_self, h]
  · rw [w.put_of_ne hq]

/-- The process goes on with another state of its call. -/
def World.putJob (w : sys.World) (p : ι) (job : Job (Fallible Req ε Ans) ε ι A σ α) : sys.World :=
  w.put p { w.procs p with job := some job }

/-- The request arrives at the server. -/
def World.arrive (w : sys.World) (env : Envelope (Fallible Req ε Ans) ι A σ) (c : C) : sys.World :=
  { w with server := (sys.respond w.server env c).1 }

def World.abandon (w : sys.World) (envs : List (Envelope (Fallible Req ε Ans) ι A σ)) : sys.World :=
  { w with abandoned := w.abandoned ++ envs }

/-- One step of the world; a label that does not fit is refused. -/
def World.step [LE A] [DecidableLE A] (w : sys.World) : Label ε ι A C → Option sys.World
  | .begin p a =>
    let proc := w.procs p
    if proc.job.isNone ∧ proc.last ≤ a then
      some (w.put p { proc with
        calls := proc.calls + 1
        last := a
        job := some ⟨⟨p, proc.calls, a, proc.object⟩, [], .running ((sys.method p a).call proc.object)⟩ })
    else none
  | .send p =>
    match (w.procs p).job with
    | some ⟨caller, es, .running (.call r k)⟩ => some (w.putJob p ⟨caller, es, .waiting r k⟩)
    | _ => none
  | .serve p c =>
    match (w.procs p).job with
    | some ⟨caller, es, .waiting r k⟩ =>
      some ((w.arrive ⟨caller, es, r⟩ c).putJob p
        ⟨caller, es, .answered r k (sys.respond w.server ⟨caller, es, r⟩ c).2⟩)
    | _ => none
  | .receive p =>
    match (w.procs p).job with
    | some ⟨caller, es, .answered r k v⟩ => some (w.putJob p ⟨caller, es ++ [⟨r, v⟩], .running (k v)⟩)
    | _ => none
  | .fail p e =>
    match (w.procs p).job with
    | some ⟨caller, es, .waiting r k⟩ =>
      -- the request is still on its way
      some ((w.putJob p ⟨caller, es ++ [⟨r, .error e⟩], .running (k (.error e))⟩).abandon [⟨caller, es, r⟩])
    | some ⟨caller, es, .answered r k _⟩ =>
      some (w.putJob p ⟨caller, es ++ [⟨r, .error e⟩], .running (k (.error e))⟩)
    | _ => none
  | .late i c =>
    match w.abandoned[i]? with
    | some env => some { w.arrive env c with abandoned := w.abandoned.eraseIdx i }
    | none => none
  | .finish p =>
    match (w.procs p).job with
    | some ⟨caller, es, .running (.done (v, s))⟩ =>
      let proc := w.procs p
      some { w.put p { proc with object := s, returned := v.toOption <|> proc.returned, job := none } with
        returns := w.returns ++ [⟨caller, es, v, s⟩] }
    | _ => none
  | .restart p =>
    let proc := w.procs p
    some ((w.put p { proc with object := sys.fresh, returned := none, job := none }).abandon
      (proc.job.bind Job.pending).toList)

/-! ### What a label is about -/

/-- The request the step puts on its way. -/
def World.sent (w : sys.World) : Label ε ι A C → Option (Envelope (Fallible Req ε Ans) ι A σ)
  | .send p =>
    match (w.procs p).job with
    | some ⟨caller, es, .running (.call r _)⟩ => some ⟨caller, es, r⟩
    | _ => none
  | _ => none

/-- The request that arrives at the server with the step. -/
def World.served (w : sys.World) : Label ε ι A C → Option (Envelope (Fallible Req ε Ans) ι A σ × C)
  | .serve p c => ((w.procs p).job.bind Job.pending).map (·, c)
  | .late i c => w.abandoned[i]?.map (·, c)
  | _ => none

variable [LE A] [DecidableLE A] {w w' : sys.World} {l : Label ε ι A C}

/-- Nothing but a request that arrives changes the server. -/
theorem World.step_server (h : w.step l = some w') :
    w'.server = match w.served l with
      | none => w.server
      | some (env, c) => (sys.respond w.server env c).1 := by
  cases l with
  | begin p a =>
    simp only [step] at h
    split_ifs at h
    cases h
    rfl
  | serve p c =>
    simp only [step] at h
    split at h
    · rename_i caller es r k hjob
      cases h
      simp [served, hjob, Job.pending, putJob, put, arrive]
    · cases h
  | late i c =>
    simp only [step] at h
    split at h
    · rename_i env henv
      cases h
      simp [served, henv, arrive]
    · cases h
  | restart p =>
    cases h
    rfl
  | _ =>
    simp only [step] at h
    split at h <;> cases h <;> rfl

/-- Only a call that begins moves the clock of a process. -/
theorem World.step_last (h : w.step l = some w') (q : ι) :
    (w'.procs q).last = (w.procs q).last ∨ ∃ a, l = .begin q a ∧ (w'.procs q).last = a := by
  cases l with
  | begin p a =>
    simp only [step] at h
    split_ifs at h
    cases h
    by_cases hq : q = p
    · subst hq
      exact .inr ⟨a, rfl, by rw [World.put_self]⟩
    · exact .inl (by rw [w.put_of_ne hq])
  | late i c =>
    simp only [step] at h
    split at h <;> cases h
    exact .inl rfl
  | restart p =>
    cases h
    exact .inl (w.put_last q (by rfl))
  | _ =>
    simp only [step] at h
    split at h <;> cases h <;> exact .inl (w.put_last q (by rfl))

end System

end GpuNodeHealth.Interaction
