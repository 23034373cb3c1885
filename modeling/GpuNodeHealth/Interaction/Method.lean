import GpuNodeHealth.Interaction.Program

/-! Methods: programs that also read and write an object and may raise. What a
method wrote before it raised stays written, and a handler resumes from there.
The weakest precondition of a method is that of its program. Rules for the ways
of building one reduce it to requests; results, reads and updates of the object
compute. -/

namespace GpuNodeHealth.Interaction

/-- The interface whose every request is either answered or raises in the caller. -/
abbrev Fallible (Req : Type) (ε : Type) (Ans : Req → Type) : Interface := ⟨Req, fun r => Except ε (Ans r)⟩

/-- A method of an object of type `σ`, raising `ε`. -/
abbrev Method (I : Interface) (ε σ α : Type) := ExceptT ε (StateT σ (Program I)) α

namespace Method

variable {I : Interface} {ε σ τ α β : Type}

/-- The program a call of the method on the object `s` runs. -/
def call (m : Method I ε σ α) (s : σ) : Program I (Except ε α × σ) := m.run s

/-- Send one request; an error answer is raised. -/
def request {Req : Type} {Ans : Req → Type} (r : Req) : Method (Fallible Req ε Ans) ε σ (Ans r) :=
  ExceptT.mk fun s => .call r fun v => .done (v, s)

/-- A method of a part of the object. -/
def on (part : σ → τ) (put : σ → τ → σ) (m : Method I ε τ α) : Method I ε σ α :=
  ExceptT.mk fun s => m.call (part s) >>= fun (v, t) => .done (v, put s t)

/-! ### Against fixed answers -/

/-- The run of a call against fixed answers, after some events. -/
def play (answer : List (Event I) → (r : I.Req) → I.Val r) (m : Method I ε σ α) (s : σ) (es : List (Event I)) :
    (Except ε α × σ) × List (Event I) :=
  (m.call s).play answer es

section

variable (answer : List (Event I) → (r : I.Req) → I.Val r) (s : σ) (es : List (Event I))

@[simp] theorem play_pure (a : α) : (pure a : Method I ε σ α).play answer s es = ((.ok a, s), es) := rfl

@[simp] theorem play_throw (e : ε) : (throw e : Method I ε σ α).play answer s es = ((.error e, s), es) := rfl

@[simp] theorem play_get : (get : Method I ε σ σ).play answer s es = ((.ok s, s), es) := rfl

@[simp] theorem play_modify (f : σ → σ) :
    (modify f : Method I ε σ PUnit).play answer s es = ((.ok ⟨⟩, f s), es) := rfl

@[simp] theorem play_request {Req : Type} {Ans : Req → Type}
    (answer : List (Event (Fallible Req ε Ans)) → (r : Req) → Except ε (Ans r))
    (es : List (Event (Fallible Req ε Ans))) (r : Req) :
    (request r : Method (Fallible Req ε Ans) ε σ (Ans r)).play answer s es =
      ((answer es r, s), es ++ [⟨r, answer es r⟩]) := rfl

@[simp] theorem play_bind (m : Method I ε σ α) (f : α → Method I ε σ β) :
    (m >>= f).play answer s es = match m.play answer s es with
      | ((.ok a, t), fs) => (f a).play answer t fs
      | ((.error e, t), fs) => ((.error e, t), fs) := by
  unfold play call
  rw [ExceptT.run_bind]
  change Program.play answer (m.run s >>= _) es = _
  rw [Program.play_bind]
  rcases (m.run s).play answer es with ⟨⟨_ | a, t⟩, fs⟩ <;> rfl

@[simp] theorem play_tryCatch (m : Method I ε σ α) (handler : ε → Method I ε σ α) :
    (tryCatch m handler).play answer s es = match m.play answer s es with
      | ((.ok a, t), fs) => ((.ok a, t), fs)
      | ((.error e, t), fs) => (handler e).play answer t fs := by
  unfold play call
  change Program.play answer (m.run s >>= _) es = _
  rw [Program.play_bind]
  rcases (m.run s).play answer es with ⟨⟨_ | a, t⟩, fs⟩ <;> rfl

end

/-! ### What a method leaves alone -/

/-- Whatever is answered, the method leaves a view of its object alone. -/
def Keeps (view : σ → τ) (m : Method I ε σ α) : Prop :=
  ∀ (answer : List (Event I) → (r : I.Req) → I.Val r) s es, view (m.play answer s es).1.2 = view s

section

variable {view : σ → τ}

theorem keeps_pure (a : α) : Keeps view (pure a : Method I ε σ α) := fun _ _ _ => rfl

theorem keeps_throw (e : ε) : Keeps view (throw e : Method I ε σ α) := fun _ _ _ => rfl

theorem keeps_get : Keeps view (get : Method I ε σ σ) := fun _ _ _ => rfl

theorem keeps_modify {f : σ → σ} (h : ∀ s, view (f s) = view s) : Keeps view (modify f : Method I ε σ PUnit) :=
  fun _ s _ => h s

theorem keeps_request {Req : Type} {Ans : Req → Type} (r : Req) :
    Keeps view (request r : Method (Fallible Req ε Ans) ε σ (Ans r)) := fun _ _ _ => rfl

theorem Keeps.bind {m : Method I ε σ α} {f : α → Method I ε σ β} (hm : Keeps view m) (hf : ∀ a, Keeps view (f a)) :
    Keeps view (m >>= f) := by
  intro answer s es
  have hfirst := hm answer s es
  rw [play_bind]
  generalize m.play answer s es = out at hfirst
  obtain ⟨⟨e | a, t⟩, fs⟩ := out
  · exact hfirst
  · exact (hf a answer t fs).trans hfirst

end

/-! ### Against a server -/

section

variable {S : Type} (respond : S → (r : I.Req) → S × I.Val r) (s : σ) (server : S)

/-- The run of a call against a server that keeps a state of its own. -/
def serve (m : Method I ε σ α) (s : σ) (server : S) : (Except ε α × σ) × S := (m.call s).serve respond server

@[simp] theorem serve_pure (a : α) : (pure a : Method I ε σ α).serve respond s server = ((.ok a, s), server) := rfl

@[simp] theorem serve_throw (e : ε) : (throw e : Method I ε σ α).serve respond s server = ((.error e, s), server) :=
  rfl

@[simp] theorem serve_modify (f : σ → σ) :
    (modify f : Method I ε σ PUnit).serve respond s server = ((.ok ⟨⟩, f s), server) := rfl

@[simp] theorem serve_get : (get : Method I ε σ σ).serve respond s server = ((.ok s, s), server) := rfl

@[simp] theorem serve_on (part : σ → τ) (put : σ → τ → σ) (m : Method I ε τ α) :
    (on part put m).serve respond s server = (((m.serve respond (part s) server).1.1,
      put s (m.serve respond (part s) server).1.2), (m.serve respond (part s) server).2) := by
  unfold serve on call
  change Program.serve respond (m.run (part s) >>= _) server = _
  rw [Program.serve_bind]
  rfl

@[simp] theorem serve_request {Req : Type} {Ans : Req → Type} (respond : S → (r : Req) → S × Except ε (Ans r))
    (r : Req) : (request r : Method (Fallible Req ε Ans) ε σ (Ans r)).serve respond s server =
      (((respond server r).2, s), (respond server r).1) := rfl

@[simp] theorem serve_bind (m : Method I ε σ α) (f : α → Method I ε σ β) :
    (m >>= f).serve respond s server = match m.serve respond s server with
      | ((.ok a, t), server') => (f a).serve respond t server'
      | ((.error e, t), server') => ((.error e, t), server') := by
  unfold serve call
  rw [ExceptT.run_bind]
  change Program.serve respond (m.run s >>= _) server = _
  rw [Program.serve_bind]
  rcases (m.run s).serve respond server with ⟨⟨_ | a, t⟩, server'⟩ <;> rfl

@[simp] theorem serve_tryCatch (m : Method I ε σ α) (handler : ε → Method I ε σ α) :
    (tryCatch m handler).serve respond s server = match m.serve respond s server with
      | ((.ok a, t), server') => ((.ok a, t), server')
      | ((.error e, t), server') => (handler e).serve respond t server' := by
  unfold serve call
  change Program.serve respond (m.run s >>= _) server = _
  rw [Program.serve_bind]
  rcases (m.run s).serve respond server with ⟨⟨_ | a, t⟩, server'⟩ <;> rfl

end

/-! ### Weakest preconditions -/

/-- The weakest precondition of a call on the object `s`; the result condition
sees the value returned or raised and the object left behind. -/
def wp (G : List (Event I) → I.Req → Prop) (Q : List (Event I) → Except ε α → σ → Prop)
    (m : Method I ε σ α) (s : σ) (es : List (Event I)) : Prop :=
  (m.call s).wp G (fun fs r => Q fs r.1 r.2) es

variable {G : List (Event I) → I.Req → Prop} {Q Q' : List (Event I) → Except ε α → σ → Prop}
  {s : σ} {es : List (Event I)}

@[simp] theorem wp_throw (e : ε) : wp G Q (throw e : Method I ε σ α) s es ↔ Q es (.error e) s := .rfl

@[simp] theorem wp_bind {R : List (Event I) → Except ε β → σ → Prop} (m : Method I ε σ α)
    (f : α → Method I ε σ β) :
    wp G R (m >>= f) s es ↔ wp G (fun fs v t => match v with
      | .ok a => wp G R (f a) t fs
      | .error e => R fs (.error e) t) m s es := by
  unfold wp call
  rw [ExceptT.run_bind]
  change Program.wp G _ (m.run s >>= _) es ↔ _
  rw [Program.wp_bind]
  apply iff_of_eq
  congr 1
  funext fs r
  rcases r with ⟨_ | a, t⟩ <;> rfl

@[simp] theorem wp_tryCatch (m : Method I ε σ α) (handler : ε → Method I ε σ α) :
    wp G Q (tryCatch m handler) s es ↔ wp G (fun fs v t => match v with
      | .ok a => Q fs (.ok a) t
      | .error e => wp G Q (handler e) t fs) m s es := by
  unfold wp call
  change Program.wp G _ (m.run s >>= _) es ↔ _
  rw [Program.wp_bind]
  apply iff_of_eq
  congr 1
  funext fs r
  rcases r with ⟨_ | a, t⟩ <;> rfl

@[simp] theorem wp_request {Req : Type} {Ans : Req → Type}
    {G : List (Event (Fallible Req ε Ans)) → Req → Prop} (r : Req)
    {R : List (Event (Fallible Req ε Ans)) → Except ε (Ans r) → σ → Prop}
    {es : List (Event (Fallible Req ε Ans))} :
    wp G R (request r) s es ↔ G es r ∧ ∀ v, R (es ++ [⟨r, v⟩]) v s := .rfl

@[simp] theorem wp_on (part : σ → τ) (put : σ → τ → σ) (m : Method I ε τ α) :
    wp G Q (on part put m) s es ↔ wp G (fun fs v t => Q fs v (put s t)) m (part s) es := by
  unfold wp call on
  change Program.wp G _ (m.call (part s) >>= _) es ↔ _
  rw [Program.wp_bind]
  rfl

theorem wp_congr {m : Method I ε σ α} (h : ∀ fs v t, Q fs v t ↔ Q' fs v t) :
    wp G Q m s es ↔ wp G Q' m s es := by
  have heq : Q = Q' := by
    funext fs v t
    exact propext (h fs v t)
  rw [heq]

theorem wp_mono {m : Method I ε σ α} {G' : List (Event I) → I.Req → Prop} (h : wp G Q m s es)
    (hG : ∀ fs r, es <+: fs → G fs r → G' fs r)
    (hQ : ∀ fs v t, es <+: fs → Q fs v t → Q' fs v t) : wp G' Q' m s es :=
  Program.wp_mono_from h hG fun fs r hfs => hQ fs r.1 r.2 hfs

theorem wp_post {m : Method I ε σ α} (h : wp G Q m s es)
    (hQ : ∀ fs v t, es <+: fs → Q fs v t → Q' fs v t) : wp G Q' m s es :=
  wp_mono h (fun _ _ _ hr => hr) hQ

/-- What two conditions say of the result holds together; of the requests one of them
is all that is asked. -/
theorem wp_both {G' : List (Event I) → I.Req → Prop} {m : Method I ε σ α} (h : wp G Q m s es)
    (h' : wp G' Q' m s es) : wp G (fun fs v t => Q fs v t ∧ Q' fs v t) m s es :=
  Program.wp_both h h'

theorem wp_and {m : Method I ε σ α} (h : wp G Q m s es) (h' : wp G Q' m s es) :
    wp G (fun fs v t => Q fs v t ∧ Q' fs v t) m s es :=
  wp_both h h'

/-- What a first method guarantees is what the second one finds. -/
theorem wp_bind_of {R : List (Event I) → Except ε β → σ → Prop} {m : Method I ε σ α}
    {f : α → Method I ε σ β} (h : wp G Q m s es)
    (hok : ∀ fs a t, es <+: fs → Q fs (.ok a) t → wp G R (f a) t fs)
    (herror : ∀ fs e t, es <+: fs → Q fs (.error e) t → R fs (.error e) t) :
    wp G R (m >>= f) s es := by
  rw [wp_bind]
  refine wp_post h fun fs v t hfs hv => ?_
  cases v with
  | ok a => exact hok fs a t hfs hv
  | error e => exact herror fs e t hfs hv

/-- What a method guarantees when it raises is what the handler finds. -/
theorem wp_tryCatch_of {m : Method I ε σ α} {handler : ε → Method I ε σ α} (h : wp G Q m s es)
    (hok : ∀ fs a t, es <+: fs → Q fs (.ok a) t → Q' fs (.ok a) t)
    (herror : ∀ fs e t, es <+: fs → Q fs (.error e) t → wp G Q' (handler e) t fs) :
    wp G Q' (tryCatch m handler) s es := by
  rw [wp_tryCatch]
  refine wp_post h fun fs v t hfs hv => ?_
  cases v with
  | ok a => exact hok fs a t hfs hv
  | error e => exact herror fs e t hfs hv

end Method

end GpuNodeHealth.Interaction
