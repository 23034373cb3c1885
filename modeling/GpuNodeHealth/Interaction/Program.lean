import Mathlib.Data.List.Infix

/-! Programs that call out to an environment they do not control. A program is
a tree: it is done with a value, or it makes a request and continues with
whatever answer comes back. A trace is a finite record of requests and answers;
a condition on every request sent and on every result returned is a weakest
precondition computed over the tree, and it holds of every trace, complete or
cut short. Nothing here fixes what the requests are. -/

namespace GpuNodeHealth.Interaction

/-- The requests a program may make, and the type of the answer to each. -/
structure Interface where
  Req : Type
  Val : Req → Type

/-- A request with the answer it got. -/
abbrev Event (I : Interface) := Sigma I.Val

inductive Program (I : Interface) (α : Type) where
  | done (a : α)
  | call (r : I.Req) (k : I.Val r → Program I α)

namespace Program

variable {I : Interface} {α β : Type}

def bind : Program I α → (α → Program I β) → Program I β
  | .done a, f => f a
  | .call r k, f => .call r fun v => bind (k v) f

instance : Monad (Program I) where
  pure := .done
  bind := bind

@[simp] theorem call_bind (r : I.Req) (k : I.Val r → Program I α) (f : α → Program I β) :
    (.call r k : Program I α) >>= f = .call r fun v => k v >>= f := rfl

/-- `Trace p es q`: after the events `es`, what is left of `p` is `q`. -/
inductive Trace : Program I α → List (Event I) → Program I α → Prop where
  | refl (p : Program I α) : Trace p [] p
  | step {r : I.Req} {k : I.Val r → Program I α} {v : I.Val r} {es : List (Event I)}
      {q : Program I α} : Trace (k v) es q → Trace (.call r k) (⟨r, v⟩ :: es) q

/-- The program sends request `r` right after the events `es`, whether or not
an answer ever arrives. -/
def Sends (p : Program I α) (es : List (Event I)) (r : I.Req) : Prop :=
  ∃ k, Trace p es (.call r k)

/-- The program returns `a` after exactly the events `es`. -/
def Returns (p : Program I α) (es : List (Event I)) (a : α) : Prop :=
  Trace p es (.done a)

/-- The run of a program against fixed answers. -/
def play (answer : List (Event I) → (r : I.Req) → I.Val r) :
    Program I α → List (Event I) → α × List (Event I)
  | .done a, es => (a, es)
  | .call r k, es => play answer (k (answer es r)) (es ++ [⟨r, answer es r⟩])

theorem play_trace (answer : List (Event I) → (r : I.Req) → I.Val r) (p : Program I α)
    (es : List (Event I)) :
    ∃ fs, (p.play answer es).2 = es ++ fs ∧ Returns p fs (p.play answer es).1 := by
  induction p generalizing es with
  | done a => exact ⟨[], by simp [play], .refl _⟩
  | call r k ih =>
    obtain ⟨fs, hfs, ht⟩ := ih (answer es r) (es ++ [⟨r, answer es r⟩])
    exact ⟨⟨r, answer es r⟩ :: fs, by simp [play, hfs], .step ht⟩

theorem play_returns (answer : List (Event I) → (r : I.Req) → I.Val r) (p : Program I α) :
    Returns p (p.play answer []).2 (p.play answer []).1 := by
  obtain ⟨fs, hfs, hr⟩ := play_trace answer p []
  rwa [hfs]

/-- Of the events of a run each has the answer that was given. -/
theorem play_answered (respond : (r : I.Req) → I.Val r) (p : Program I α) :
    ∀ e ∈ (p.play (fun _ => respond) []).2, e.2 = respond e.1 := by
  have hafter : ∀ es : List (Event I), (∀ e ∈ es, e.2 = respond e.1) →
      ∀ e ∈ (p.play (fun _ => respond) es).2, e.2 = respond e.1 := by
    induction p with
    | done a => exact fun es h => h
    | call r k ih =>
      intro es h
      refine ih (respond r) (es ++ [⟨r, respond r⟩]) fun e he => ?_
      rcases List.mem_append.mp he with he | he
      · exact h e he
      · rw [List.mem_singleton.mp he]
  exact hafter [] nofun

theorem play_bind (answer : List (Event I) → (r : I.Req) → I.Val r) (p : Program I α) (f : α → Program I β)
    (es : List (Event I)) :
    (p >>= f).play answer es = (f (p.play answer es).1).play answer (p.play answer es).2 := by
  induction p generalizing es with
  | done a => rfl
  | call r k ih => exact ih (answer es r) (es ++ [⟨r, answer es r⟩])

/-- The run of a program against a server that keeps a state of its own. -/
def serve {S : Type} (respond : S → (r : I.Req) → S × I.Val r) : Program I α → S → α × S
  | .done a, server => (a, server)
  | .call r k, server => serve respond (k (respond server r).2) (respond server r).1

theorem serve_bind {S : Type} (respond : S → (r : I.Req) → S × I.Val r) (p : Program I α) (f : α → Program I β)
    (server : S) : (p >>= f).serve respond server =
      (f (p.serve respond server).1).serve respond (p.serve respond server).2 := by
  induction p generalizing server with
  | done a => rfl
  | call r k ih => exact ih _ _

/-- A server that has stopped stays so. -/
theorem serve_stuck {S : Type} {respond : Option S → (r : I.Req) → Option S × I.Val r}
    (h : ∀ r, (respond none r).1 = none) (p : Program I α) : (p.serve respond none).2 = none := by
  induction p with
  | done a => rfl
  | call r k ih =>
    rw [serve, h]
    exact ih _

/-- The request after the given events, if the program goes along with them. -/
def next [DecidableEq I.Req] : Program I α → List (Event I) → Option I.Req
  | .done _, _ => none
  | .call r _, [] => some r
  | .call r k, ⟨r', v⟩ :: es => if h : r' = r then next (k (h ▸ v)) es else none

theorem next_sends [DecidableEq I.Req] {p : Program I α} {es : List (Event I)} {r : I.Req}
    (h : p.next es = some r) : Sends p es r := by
  induction es generalizing p with
  | nil =>
    cases p with
    | done => simp [next] at h
    | call r' k =>
      obtain rfl := Option.some.inj h
      exact ⟨k, .refl _⟩
  | cons e es ih =>
    obtain ⟨r', v⟩ := e
    cases p with
    | done => simp [next] at h
    | call r'' k =>
      rw [next] at h
      split_ifs at h with heq
      subst heq
      obtain ⟨k', hk'⟩ := ih h
      exact ⟨k', .step hk'⟩

/-! ### Weakest preconditions -/

/-- From history `es`, every request `p` makes satisfies `G` and every result
`Q`, each judged with the history at that point. -/
def wp (G : List (Event I) → I.Req → Prop) (Q : List (Event I) → α → Prop) :
    Program I α → List (Event I) → Prop
  | .done a, es => Q es a
  | .call r k, es => G es r ∧ ∀ v, wp G Q (k v) (es ++ [⟨r, v⟩])

variable {G G' : List (Event I) → I.Req → Prop} {Q Q' : List (Event I) → α → Prop}

@[simp] theorem wp_call (r : I.Req) (k : I.Val r → Program I α) (es : List (Event I)) :
    wp G Q (.call r k) es ↔ G es r ∧ ∀ v, wp G Q (k v) (es ++ [⟨r, v⟩]) := .rfl

theorem wp_bind {R : List (Event I) → β → Prop} (p : Program I α) (f : α → Program I β)
    (es : List (Event I)) :
    wp G R (p >>= f) es ↔ wp G (fun es a => wp G R (f a) es) p es := by
  induction p generalizing es with
  | done a => rfl
  | call r k ih => simp only [call_bind, wp_call, ih]

/-- Weakening, where the weaker conditions may use what the history began with. -/
theorem wp_mono_from {p : Program I α} {es : List (Event I)} (h : wp G Q p es)
    (hG : ∀ fs r, es <+: fs → G fs r → G' fs r) (hQ : ∀ fs a, es <+: fs → Q fs a → Q' fs a) :
    wp G' Q' p es := by
  induction p generalizing es with
  | done a => exact hQ es a (List.prefix_refl es) h
  | call r k ih =>
    have hext : ∀ v : I.Val r, es <+: es ++ [⟨r, v⟩] := fun v => List.prefix_append _ _
    exact ⟨hG es r (List.prefix_refl es) h.1, fun v => ih v (h.2 v)
      (fun fs r' hfs => hG fs r' ((hext v).trans hfs))
      (fun fs a hfs => hQ fs a ((hext v).trans hfs))⟩

/-- What two conditions say of the requests holds together where one of them is all that
is asked. -/
theorem wp_both {p : Program I α} {es : List (Event I)} (h : wp G Q p es) (h' : wp G' Q' p es) :
    wp G (fun fs a => Q fs a ∧ Q' fs a) p es := by
  induction p generalizing es with
  | done a => exact ⟨h, h'⟩
  | call r k ih => exact ⟨h.1, fun v => ih v (h.2 v) (h'.2 v)⟩

/-- Along a trace the precondition of the rest holds at the longer history. -/
theorem wp_trace {p q : Program I α} {es fs : List (Event I)} (h : wp G Q p es)
    (ht : Trace p fs q) : wp G Q q (es ++ fs) := by
  induction ht generalizing es with
  | refl => simpa using h
  | step _ ih => simpa using ih (h.2 _)

theorem wp_sends {p : Program I α} {es : List (Event I)} {r : I.Req} (h : wp G Q p [])
    (hs : Sends p es r) : G es r := by
  obtain ⟨k, hk⟩ := hs
  exact (wp_trace h hk).1

theorem wp_returns {p : Program I α} {es : List (Event I)} {a : α} (h : wp G Q p [])
    (hr : Returns p es a) : Q es a :=
  wp_trace h hr

end Program

end GpuNodeHealth.Interaction
