import GpuNodeHealth.Interaction.Processes

/-! Reasoning about processes around one server by what each of them relies on.
A contract says what the server keeps true, what a call knows of the server from
its own events, and what has to be so when a request of it arrives; knowledge is
never lost to another request. If every method sends only requests its knowledge
justifies, then so it is in every world the processes reach, whatever the order
of the steps, the requests lost and the processes restarted. -/

namespace GpuNodeHealth.Interaction

namespace System

variable {Req ε : Type} {Ans : Req → Type} {ι A σ α S C : Type}

/-- `marks` lists the calls that left something in the server. -/
structure Contract (sys : System Req ε Ans ι A σ α S C) where
  Inv : S → Prop
  Known : Caller ι A σ → List (Event (Fallible Req ε Ans)) → S → Prop
  Just : Envelope (Fallible Req ε Ans) ι A σ → S → Prop
  Ret : Returned (Fallible Req ε Ans) ε ι A σ α → S → Prop
  Object : σ → Option α → Prop
  marks : S → List (ι × ℕ × A)

/-- What the call sends is justified, and what it returns is as promised, by what it knows. -/
def Contract.Sound {sys : System Req ε Ans ι A σ α S C} (K : sys.Contract) (caller : Caller ι A σ)
    (p : Program (Fallible Req ε Ans) (Except ε α × σ)) (es : List (Event (Fallible Req ε Ans))) : Prop :=
  p.wp (fun fs r => ∀ s, K.Inv s → K.Known caller fs s → K.Just ⟨caller, fs, r⟩ s)
    (fun fs out => (∀ s, K.Inv s → K.Known caller fs s → K.Ret ⟨caller, fs, out.1, out.2⟩ s) ∧
      ∀ returned, K.Object caller.base returned → K.Object out.2 (out.1.toOption <|> returned)) es

/-- A method keeps to what a call of it knows. -/
theorem Contract.Sound.of_method {sys : System Req ε Ans ι A σ α S C} {K : sys.Contract} {caller : Caller ι A σ}
    {m : Method (Fallible Req ε Ans) ε σ α}
    (h : m.wp (fun fs r => ∀ s, K.Inv s → K.Known caller fs s → K.Just ⟨caller, fs, r⟩ s)
      (fun fs v t => (∀ s, K.Inv s → K.Known caller fs s → K.Ret ⟨caller, fs, v, t⟩ s) ∧
        ∀ returned, K.Object caller.base returned → K.Object t (v.toOption <|> returned)) caller.base []) :
    K.Sound caller (m.call caller.base) [] := h

variable [Preorder A]

/-- Whatever the process left in the server came with one of its first `n` calls,
at an argument of at most `b`. -/
def Contract.Before {sys : System Req ε Ans ι A σ α S C} (K : sys.Contract) (p : ι) (n : ℕ) (b : WithBot A)
    (s : S) : Prop :=
  ∀ m ∈ K.marks s, m.1 = p → m.2.1 < n ∧ (m.2.2 : WithBot A) ≤ b

/-- The server and the methods keep the contract. -/
structure Contract.Kept {sys : System Req ε Ans ι A σ α S C} (K : sys.Contract) : Prop where
  sound : ∀ caller, K.Sound caller ((sys.method caller.proc caller.arg).call caller.base) []
  object : K.Object sys.fresh none
  inv : ∀ s env c, K.Inv s → K.Just env s → K.Inv (sys.respond s env c).1
  marks : ∀ s env c, ∀ m ∈ K.marks (sys.respond s env c).1,
    m = (env.caller.proc, env.caller.call, env.caller.arg) ∨ m ∈ K.marks s
  known_nil : ∀ caller s, K.Known caller [] s
  known_error : ∀ caller es r e s, K.Known caller es s → K.Known caller (es ++ [⟨r, .error e⟩]) s
  /-- Of the first answer it is known that the call has left nothing before. -/
  known_served : ∀ s env c, K.Inv s → K.Just env s → K.Known env.caller env.events s →
    (env.events = [] → K.Before env.caller.proc env.caller.call env.caller.arg s) →
    K.Known env.caller (env.events ++ [⟨env.req, (sys.respond s env c).2⟩]) (sys.respond s env c).1
  known_later : ∀ s env c caller es, K.Inv s → K.Just env s → K.Known caller es s →
    K.Known caller es (sys.respond s env c).1
  just_later : ∀ s env c env', K.Inv s → K.Just env s → K.Just env' s → K.Just env' (sys.respond s env c).1
  ret_later : ∀ s env c r, K.Inv s → K.Just env s → K.Ret r s → K.Ret r (sys.respond s env c).1

/-! ### What the contract says about a world -/

variable {sys : System Req ε Ans ι A σ α S C} {K : sys.Contract}

/-- What is so of a call under way, by how far it is. -/
def Contract.Standing (K : sys.Contract) (s : S) (job : Job (Fallible Req ε Ans) ε ι A σ α) : Prop :=
  match job.phase with
  | .running p => K.Sound job.caller p job.events
  | .waiting r k => K.Just ⟨job.caller, job.events, r⟩ s ∧
      ∀ v, K.Sound job.caller (k v) (job.events ++ [⟨r, v⟩])
  | .answered r k v => K.Known job.caller (job.events ++ [⟨r, v⟩]) s ∧
      ∀ v, K.Sound job.caller (k v) (job.events ++ [⟨r, v⟩])

structure Contract.JobGood (K : sys.Contract) (s : S) (p : ι)
    (proc : Process (Fallible Req ε Ans) ε ι A σ α) (job : Job (Fallible Req ε Ans) ε ι A σ α) : Prop where
  own : job.caller.proc = p
  call : job.caller.call + 1 = proc.calls
  arg : (job.caller.arg : WithBot A) = proc.last
  base : job.caller.base = proc.object
  known : K.Known job.caller job.events s
  unserved : job.Unserved → K.Before p job.caller.call job.caller.arg s
  standing : K.Standing s job

/-- The contract holds of the world. -/
structure Contract.Good (K : sys.Contract) (w : sys.World) : Prop where
  inv : K.Inv w.server
  before : ∀ p, K.Before p (w.procs p).calls (w.procs p).last w.server
  abandoned : ∀ env ∈ w.abandoned, K.Just env w.server ∧ (w.procs env.caller.proc).Outdated env
  job : ∀ p job, (w.procs p).job = some job → K.JobGood w.server p (w.procs p) job
  object : ∀ p, K.Object (w.procs p).object (w.procs p).returned
  returns : ∀ r ∈ w.returns, K.Ret r w.server

theorem Contract.Before.mono {p : ι} {n n' : ℕ} {b b' : WithBot A} {s : S} (h : K.Before p n b s)
    (hn : n ≤ n') (hb : b ≤ b') : K.Before p n' b' s := by
  intro m hm hp
  exact ⟨(h m hm hp).1.trans_le hn, (h m hm hp).2.trans hb⟩

/-- A request that arrives leaves one mark, its own. -/
theorem Contract.Before.arrive {p : ι} {n : ℕ} {b : WithBot A} {s : S} (hK : K.Kept) (h : K.Before p n b s)
    {env : Envelope (Fallible Req ε Ans) ι A σ}
    (henv : env.caller.proc = p → env.caller.call < n ∧ (env.caller.arg : WithBot A) ≤ b) (c : C) :
    K.Before p n b (sys.respond s env c).1 := by
  intro m hm hp
  rcases hK.marks s env c m hm with rfl | hold
  · exact henv hp
  · exact h m hold hp

variable {w : sys.World}

theorem Contract.Kept.start (hK : K.Kept) {s : S} (hinv : K.Inv s) (hmarks : K.marks s = []) :
    K.Good (sys.start s) where
  inv := hinv
  before p m hm := by
    have hnone : m ∈ K.marks s := hm
    simp [hmarks] at hnone
  abandoned env henv := by cases henv
  job p job hjob := by cases hjob
  object p := hK.object
  returns r hr := by cases hr

theorem Contract.Good.arrive (h : K.Good w) (hK : K.Kept) {env : Envelope (Fallible Req ε Ans) ι A σ}
    (hjust : K.Just env w.server) (hout : (w.procs env.caller.proc).Outdated env) (c : C) :
    K.Good (w.arrive env c) := by
  refine ⟨hK.inv _ _ c h.inv hjust, fun q => (h.before q).arrive hK ?_ c, fun env' henv => ?_, fun q job hq => ?_,
    h.object, fun r hr => hK.ret_later _ _ c r h.inv hjust (h.returns r hr)⟩
  · rintro rfl
    exact ⟨hout.1, hout.2.1⟩
  · obtain ⟨hjust', hout'⟩ := h.abandoned env' henv
    exact ⟨hK.just_later _ _ c env' h.inv hjust hjust', hout'⟩
  · have hj := h.job q job hq
    refine ⟨hj.own, hj.call, hj.arg, hj.base, hK.known_later _ _ c _ _ h.inv hjust hj.known, fun hun => ?_, ?_⟩
    · refine (hj.unserved hun).arrive hK ?_ c
      rintro rfl
      exact ⟨hout.2.2 job hq hun, hj.arg ▸ hout.2.1⟩
    · have hstanding := hj.standing
      obtain ⟨caller, es, phase⟩ := job
      cases phase with
      | running => exact hstanding
      | waiting r k => exact ⟨hK.just_later _ _ c _ h.inv hjust hstanding.1, hstanding.2⟩
      | answered r k v => exact ⟨hK.known_later _ _ c _ _ h.inv hjust hstanding.1, hstanding.2⟩

theorem Contract.Good.abandon (h : K.Good w) {envs : List (Envelope (Fallible Req ε Ans) ι A σ)}
    (henvs : ∀ env ∈ envs, K.Just env w.server ∧ (w.procs env.caller.proc).Outdated env) :
    K.Good (w.abandon envs) := by
  refine ⟨h.inv, h.before, fun env henv => ?_, h.job, h.object, h.returns⟩
  rcases List.mem_append.mp henv with hold | hnew
  · exact h.abandoned env hold
  · exact henvs env hnew

theorem Contract.Good.late (h : K.Good w) (hK : K.Kept) {env : Envelope (Fallible Req ε Ans) ι A σ} {i : ℕ}
    (henv : w.abandoned[i]? = some env) (c : C) :
    K.Good { w.arrive env c with abandoned := w.abandoned.eraseIdx i } := by
  obtain ⟨hjust, hout⟩ := h.abandoned env (List.mem_of_getElem? henv)
  have harrived := h.arrive hK hjust hout c
  exact ⟨harrived.inv, harrived.before,
    fun env' henv' => harrived.abandoned env' (List.mem_of_mem_eraseIdx henv'), harrived.job, harrived.object,
    harrived.returns⟩

/-- The request of a call under way is one of the process itself. -/
theorem Contract.Good.outdated (h : K.Good w) {job : Job (Fallible Req ε Ans) ε ι A σ α}
    {p : ι}
    (hjob : (w.procs p).job = some job) (env : Envelope (Fallible Req ε Ans) ι A σ)
    (hcaller : env.caller = job.caller) (proc : Process (Fallible Req ε Ans) ε ι A σ α)
    (hcalls : proc.calls = (w.procs p).calls) (hlast : proc.last = (w.procs p).last)
    (hun : ∀ job, proc.job = some job → ¬job.Unserved) :
    env.caller.proc = p ∧ proc.Outdated env := by
  have hj := h.job p job hjob
  refine ⟨hcaller ▸ hj.own, ?_, ?_, fun job hj hu => absurd hu (hun job hj)⟩
  · rw [hcaller, hcalls, ← hj.call]
    omega
  · rw [hcaller, hlast, hj.arg]

/-! ### What is justified -/

variable {l : Label ε ι A C}

/-- A request is justified the moment it is sent, in the latest call of its process. -/
theorem Contract.Good.sent (h : K.Good w) {env : Envelope (Fallible Req ε Ans) ι A σ}
    (henv : w.sent l = some env) :
    K.Just env w.server ∧ env.caller.call + 1 = (w.procs env.caller.proc).calls ∧
      (env.caller.arg : WithBot A) = (w.procs env.caller.proc).last := by
  cases l with
  | send p =>
    simp only [World.sent] at henv
    split at henv
    · rename_i caller es r k hjob
      cases henv
      have hj := h.job p _ hjob
      have hown : caller.proc = p := hj.own
      exact ⟨hj.standing.1 _ h.inv hj.known, hown ▸ hj.call, hown ▸ hj.arg⟩
    · cases henv
  | _ => cases henv

/-- A request is justified the moment it arrives. -/
theorem Contract.Good.served (h : K.Good w) {env : Envelope (Fallible Req ε Ans) ι A σ} {c : C}
    (henv : w.served l = some (env, c)) : K.Just env w.server := by
  cases l with
  | serve p c' =>
    rcases hjob : (w.procs p).job with _ | ⟨caller, es, _ | ⟨r, k⟩ | _⟩
    · simp [World.served, hjob] at henv
    · simp [World.served, hjob, Job.pending] at henv
    · obtain ⟨rfl, rfl⟩ : ⟨caller, es, r⟩ = env ∧ c' = c := by simpa [World.served, hjob, Job.pending] using henv
      exact (h.job p _ hjob).standing.1
    · simp [World.served, hjob, Job.pending] at henv
  | late i c' =>
    obtain ⟨env', henv', heq⟩ := Option.map_eq_some_iff.mp henv
    cases heq
    exact (h.abandoned env (List.mem_of_getElem? henv')).1
  | _ => cases henv

/-! ### What a step keeps -/

variable [DecidableEq ι] {p : ι}

theorem Contract.Good.put (h : K.Good w) (proc : Process (Fallible Req ε Ans) ε ι A σ α)
    (hcalls : (w.procs p).calls ≤ proc.calls) (hlast : (w.procs p).last ≤ proc.last)
    (hout : ∀ env, (w.procs p).Outdated env → proc.Outdated env)
    (hjob : ∀ job, proc.job = some job → K.JobGood w.server p proc job)
    (hobject : K.Object proc.object proc.returned) : K.Good (w.put p proc) := by
  refine ⟨h.inv, fun q => ?_, fun env henv => ⟨(h.abandoned env henv).1, ?_⟩, fun q job hq => ?_,
    fun q => ?_, h.returns⟩
  · by_cases hq : q = p
    · subst hq
      rw [World.put_self]
      exact (h.before q).mono hcalls hlast
    · rw [w.put_of_ne hq]
      exact h.before q
  · have hold := (h.abandoned env henv).2
    by_cases hq : env.caller.proc = p
    · rw [hq] at hold ⊢
      rw [World.put_self]
      exact hout env hold
    · rwa [w.put_of_ne hq]
  · by_cases hqp : q = p
    · subst hqp
      rw [World.put_self] at hq ⊢
      exact hjob job hq
    · rw [w.put_of_ne hqp] at hq ⊢
      exact h.job q job hq
  · by_cases hq : q = p
    · rw [hq, World.put_self]
      exact hobject
    · rw [w.put_of_ne hq]
      exact h.object q

/-- What is needed to go on with a call depends only on the new state of it. -/
theorem Contract.Good.putJob (h : K.Good w) (new : Job (Fallible Req ε Ans) ε ι A σ α)
    {old : Job (Fallible Req ε Ans) ε ι A σ α} (hold : (w.procs p).job = some old)
    (hcaller : new.caller = old.caller)
    (hun : new.Unserved → old.Unserved) (hknown : K.Known new.caller new.events w.server)
    (hstanding : K.Standing w.server new) : K.Good (w.putJob p new) := by
  have hj := h.job p old hold
  refine h.put _ le_rfl le_rfl (fun env hout => ⟨hout.1, hout.2.1, fun job hjob hu => ?_⟩) (fun job hjob => ?_)
    (h.object p)
  · cases hjob
    rw [hcaller]
    exact hout.2.2 old hold (hun hu)
  · cases hjob
    refine ⟨hcaller ▸ hj.own, hcaller ▸ hj.call, hcaller ▸ hj.arg, hcaller ▸ hj.base, hknown, fun hu => ?_,
      hstanding⟩
    rw [hcaller]
    exact hj.unserved (hun hu)

section

variable {caller : Caller ι A σ} {es : List (Event (Fallible Req ε Ans))} {r : Req}
  {k : Except ε (Ans r) → Program (Fallible Req ε Ans) (Except ε α × σ)}

theorem Contract.Good.begin (h : K.Good w) (hK : K.Kept) {a : A} (hlast : (w.procs p).last ≤ a) :
    K.Good (w.put p { w.procs p with
      calls := (w.procs p).calls + 1
      last := a
      job := some ⟨⟨p, (w.procs p).calls, a, (w.procs p).object⟩, [],
        .running ((sys.method p a).call (w.procs p).object)⟩ }) := by
  refine h.put _ (Nat.le_succ _) hlast (fun env hout => ?_) (fun job hjob => ?_) (h.object p)
  · refine ⟨hout.1.trans (Nat.lt_succ_self _), hout.2.1.trans hlast, fun job hjob _ => ?_⟩
    cases hjob
    exact hout.1
  · cases hjob
    exact ⟨rfl, rfl, rfl, rfl, hK.known_nil _ _, fun _ => (h.before p).mono le_rfl hlast, hK.sound _⟩

theorem Contract.Good.send (h : K.Good w) (hjob : (w.procs p).job = some ⟨caller, es, .running (.call r k)⟩) :
    K.Good (w.putJob p ⟨caller, es, .waiting r k⟩) := by
  have hj := h.job p _ hjob
  exact h.putJob _ hjob rfl (fun hu => hu) hj.known ⟨hj.standing.1 _ h.inv hj.known, hj.standing.2⟩

/-- A process that drops its call leaves a request in flight behind. -/
theorem Contract.Good.drop (h : K.Good w) (hjob : (w.procs p).job = some ⟨caller, es, .waiting r k⟩)
    (proc : Process (Fallible Req ε Ans) ε ι A σ α) (hcalls : proc.calls = (w.procs p).calls)
    (hlast : proc.last = (w.procs p).last) (hnone : proc.job = none)
    (hobject : K.Object proc.object proc.returned) :
    K.Good (w.put p proc) ∧ K.Just ⟨caller, es, r⟩ w.server ∧
      ((w.put p proc).procs caller.proc).Outdated ⟨caller, es, r⟩ := by
  have hj := h.job p _ hjob
  obtain ⟨hp, hout⟩ := h.outdated hjob ⟨caller, es, r⟩ rfl proc hcalls hlast fun job hjob' => by
    rw [hnone] at hjob'
    cases hjob'
  refine ⟨h.put proc hcalls.ge hlast.ge (fun env henv => ?_) (fun job hjob' => ?_) hobject, hj.standing.1, ?_⟩
  · exact ⟨hcalls ▸ henv.1, hlast ▸ henv.2.1, fun job hjob' => by rw [hnone] at hjob'; cases hjob'⟩
  · rw [hnone] at hjob'
    cases hjob'
  · rw [show caller.proc = p from hp, World.put_self]
    exact hout

theorem Contract.Good.serve (h : K.Good w) (hK : K.Kept)
    (hjob : (w.procs p).job = some ⟨caller, es, .waiting r k⟩) (c : C) :
    K.Good ((w.arrive ⟨caller, es, r⟩ c).putJob p
      ⟨caller, es, .answered r k (sys.respond w.server ⟨caller, es, r⟩ c).2⟩) := by
  have hj := h.job p _ hjob
  -- while the request is at the server, the process can be taken to be idle
  obtain ⟨hidle, hjust, hout⟩ := h.drop hjob { w.procs p with job := none } rfl rfl rfl (h.object p)
  have hproc : ((w.put p { w.procs p with job := none }).arrive ⟨caller, es, r⟩ c).procs p =
      { w.procs p with job := none } := World.put_self ..
  have hserved := (hidle.arrive hK hjust hout c).put (p := p) { w.procs p with
    job := some ⟨caller, es, .answered r k (sys.respond w.server ⟨caller, es, r⟩ c).2⟩ }
    (by rw [hproc]) (by rw [hproc]) ?_ ?_ (h.object p)
  · rwa [show (w.put p { w.procs p with job := none }).arrive ⟨caller, es, r⟩ c =
      (w.arrive ⟨caller, es, r⟩ c).put p { w.procs p with job := none } from rfl, World.put_put] at hserved
  · rw [hproc]
    refine fun env henv => ⟨henv.1, henv.2.1, fun job hjob' hu => ?_⟩
    cases hjob'
    exact hu.2.elim
  · intro job hjob'
    cases hjob'
    have hfirst : es = [] → K.Before caller.proc caller.call caller.arg w.server := by
      intro hnil
      rw [show caller.proc = p from hj.own]
      exact hj.unserved ⟨hnil, trivial⟩
    exact ⟨hj.own, hj.call, hj.arg, hj.base, hK.known_later _ _ c _ _ h.inv hjust hj.known, fun hu => hu.2.elim,
      hK.known_served _ ⟨caller, es, r⟩ c h.inv hjust hj.known hfirst, hj.standing.2⟩

theorem Contract.Good.receive (h : K.Good w) {v : Except ε (Ans r)}
    (hjob : (w.procs p).job = some ⟨caller, es, .answered r k v⟩) :
    K.Good (w.putJob p ⟨caller, es ++ [⟨r, v⟩], .running (k v)⟩) := by
  have hj := h.job p _ hjob
  exact h.putJob _ hjob rfl (fun hu => (by simp [Job.Unserved] at hu)) hj.standing.1 (hj.standing.2 v)

/-- The call goes on with a failure of its own making. -/
theorem Contract.Good.fail (h : K.Good w) (hK : K.Kept)
    {phase : Phase (Fallible Req ε Ans) (Except ε α × σ)} {e : ε} (hjob : (w.procs p).job = some ⟨caller, es, phase⟩)
    (hsound : K.Sound caller (k (.error e)) (es ++ [⟨r, .error e⟩])) :
    K.Good (w.putJob p ⟨caller, es ++ [⟨r, .error e⟩], .running (k (.error e))⟩) := by
  have hknown := hK.known_error caller es r e w.server (h.job p _ hjob).known
  exact h.putJob _ hjob rfl (fun hu => (by simp [Job.Unserved] at hu)) hknown hsound

/-- The answer gets lost. -/
theorem Contract.Good.lose (h : K.Good w) (hK : K.Kept) {v : Except ε (Ans r)}
    (hjob : (w.procs p).job = some ⟨caller, es, .answered r k v⟩) (e : ε) :
    K.Good (w.putJob p ⟨caller, es ++ [⟨r, .error e⟩], .running (k (.error e))⟩) :=
  h.fail hK hjob ((h.job p _ hjob).standing.2 (.error e))

/-- The request gets lost, or is given up before it arrives. -/
theorem Contract.Good.giveUp (h : K.Good w) (hK : K.Kept)
    (hjob : (w.procs p).job = some ⟨caller, es, .waiting r k⟩) (e : ε) :
    K.Good ((w.putJob p ⟨caller, es ++ [⟨r, .error e⟩], .running (k (.error e))⟩).abandon [⟨caller, es, r⟩]) := by
  have hj := h.job p _ hjob
  have hgone := h.fail hK hjob (hj.standing.2 (.error e))
  refine hgone.abandon fun env henv => ?_
  obtain rfl := List.mem_singleton.mp henv
  obtain ⟨hp, hout⟩ := h.outdated hjob ⟨caller, es, r⟩ rfl { w.procs p with
    job := some ⟨caller, es ++ [⟨r, .error e⟩], .running (k (.error e))⟩ } rfl rfl fun job hjob' hu => by
      cases hjob'
      simp [Job.Unserved] at hu
  refine ⟨hj.standing.1, ?_⟩
  rw [hp, World.putJob, World.put_self]
  exact hout

theorem Contract.Good.finish (h : K.Good w) {v : Except ε α} {s : σ}
    (hjob : (w.procs p).job = some ⟨caller, es, .running (.done (v, s))⟩) :
    K.Good { w.put p { w.procs p with
        object := s
        returned := v.toOption <|> (w.procs p).returned
        job := none } with
      returns := w.returns ++ [⟨caller, es, v, s⟩] } := by
  have hj := h.job p _ hjob
  have hput := h.put (p := p) { w.procs p with
      object := s
      returned := v.toOption <|> (w.procs p).returned
      job := none } le_rfl le_rfl (fun env henv => ⟨henv.1, henv.2.1, fun job hjob _ => by cases hjob⟩)
    (fun job hjob => by cases hjob) (hj.standing.2 _ (hj.base ▸ h.object p))
  refine ⟨hput.inv, hput.before, hput.abandoned, hput.job, hput.object, fun r hr => ?_⟩
  rcases List.mem_append.mp hr with hold | hnew
  · exact h.returns r hold
  · obtain rfl := List.mem_singleton.mp hnew
    exact hj.standing.1 _ h.inv hj.known

theorem Contract.Good.restart (h : K.Good w) (hK : K.Kept) :
    K.Good ((w.put p { w.procs p with object := sys.fresh, returned := none, job := none }).abandon
      ((w.procs p).job.bind Job.pending).toList) := by
  have hput := h.put (p := p) { w.procs p with object := sys.fresh, returned := none, job := none }
    le_rfl le_rfl (fun env henv => ⟨henv.1, henv.2.1, fun job hjob _ => by cases hjob⟩)
    (fun job hjob => by cases hjob) hK.object
  refine hput.abandon fun env henv => ?_
  rcases hjob : (w.procs p).job with _ | ⟨caller, es, _ | ⟨r, k⟩ | _⟩
  · simp [hjob] at henv
  · simp [hjob, Job.pending] at henv
  · obtain rfl : env = ⟨caller, es, r⟩ := by simpa [hjob, Job.pending] using henv
    exact (h.drop hjob { w.procs p with object := sys.fresh, returned := none, job := none }
      rfl rfl rfl hK.object).2
  · simp [hjob, Job.pending] at henv

end

/-! ### Runs -/

variable [DecidableLE A] {w' : sys.World}

theorem Contract.Good.step (h : K.Good w) (hK : K.Kept) (hstep : w.step l = some w') : K.Good w' := by
  cases l with
  | begin p a =>
    simp only [World.step] at hstep
    split_ifs at hstep with hbegin
    cases hstep
    exact h.begin hK hbegin.2
  | send p =>
    simp only [World.step] at hstep
    split at hstep
    · rename_i hjob
      cases hstep
      exact h.send hjob
    · cases hstep
  | serve p c =>
    simp only [World.step] at hstep
    split at hstep
    · rename_i hjob
      cases hstep
      exact h.serve hK hjob c
    · cases hstep
  | receive p =>
    simp only [World.step] at hstep
    split at hstep
    · rename_i hjob
      cases hstep
      exact h.receive hjob
    · cases hstep
  | fail p e =>
    simp only [World.step] at hstep
    split at hstep
    · rename_i hjob
      cases hstep
      exact h.giveUp hK hjob e
    · rename_i hjob
      cases hstep
      exact h.lose hK hjob e
    · cases hstep
  | late i c =>
    simp only [World.step] at hstep
    split at hstep
    · rename_i henv
      cases hstep
      exact h.late hK henv c
    · cases hstep
  | finish p =>
    simp only [World.step] at hstep
    split at hstep
    · rename_i hjob
      cases hstep
      exact h.finish hjob
    · cases hstep
  | restart p =>
    cases hstep
    exact h.restart hK

/-- The contract holds of every world the processes reach. -/
theorem Contract.Kept.run (hK : K.Kept) {s : S} (hinv : K.Inv s) (hmarks : K.marks s = [])
    {labels : List (Label ε ι A C)} (hrun : runFrom World.step (sys.start s) labels = some w) : K.Good w :=
  runFrom_invariant (Q := fun _ _ => True) (fun _ _ _ h _ hstep => h.step hK hstep) (hK.start hinv hmarks) hrun
    (along_of_forall (fun _ _ => trivial) _ _)

end System

end GpuNodeHealth.Interaction
