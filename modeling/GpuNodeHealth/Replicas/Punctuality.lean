import GpuNodeHealth.Guard.IdleFleet
import GpuNodeHealth.Replicas.StaleLeader

/-! A leader that loops on time, and replicas that would like its Lease. The Lease
lasts from the whole second in which a pass began to write it; what ends the wait
is the next write of the leader, and that is stored only some time after its pass
began. -/

namespace GpuNodeHealth.Replicas

open Cluster Guard Interaction

variable {ι : Type} [DecidableEq ι] {cfg : Config} {identity : ι → String} {leader challenger : ι}

/-- A renewal of the Lease: when its pass begins, which is what it writes, and when
its write is stored. -/
structure Renewal where
  begins : Clock
  stored : Clock
  begins_le : begins ≤ stored

/-- `run_forever` comes to its next iteration, after a pass that finished within
the loop interval. -/
def Punctual (cfg : Config) (r next : Renewal) : Prop :=
  ∃ elapsed : ℚ, r.stored.1 ≤ r.begins + elapsed ∧ elapsed ≤ cfg.loopIntervalSeconds ∧
    next.begins = r.begins + elapsed + max 1 (cfg.loopIntervalSeconds - elapsed)

/-- The next renewal is stored before the Lease may be over. -/
def InTime (cfg : Config) (r next : Renewal) : Prop := next.stored.1 ≤ ⌊r.begins.1⌋ + cfg.leaseDurationSeconds

/-- The clocks a guard wrote, the latest first. -/
def stamps (p : ι) (writes : List (Write ι)) : List Clock := (writes.filter (·.proc = p)).map (·.now)

/-- The leader has stored some of the renewals, and the next one is still to come. -/
def Follows (leader : ι) (renewals : List Renewal) (w : (guards cfg identity).Clocked ℚ) : Prop :=
  ∃ done next rest, renewals = done ++ next :: rest ∧
    (stamps leader w.world.server.writes).reverse = done.map (·.begins) ∧ (∀ r ∈ done, r.stored.1 ≤ w.clock) ∧
      w.clock ≤ next.stored

/-- No other replica has written over a Lease of the leader. -/
def Server.Unbroken (s : Server ι) (leader : ι) : Prop :=
  s.writes.IsChain fun newer older => older.proc = leader → newer.proc = leader

/-- Whatever the replicas do, as long as the leader keeps to its renewals nobody
takes the Lease over from it. -/
def KeepsLease (cfg : Config) (identity : ι → String) (leader : ι) (renewals : List Renewal) : Prop :=
  ∀ start ticks w, clockedRun cfg identity start ticks = some w →
    Along (System.Clocked.step sharedClock) (fun v _ => Follows leader renewals v)
      (.start (guards cfg identity) {} start) ticks → w.world.server.Unbroken leader

theorem stamps_cons_self {u : Write ι} (h : u.proc = leader) (older : List (Write ι)) :
    stamps leader (u :: older) = u.now :: stamps leader older := by
  simp [stamps, h]

theorem stamps_cons_of_ne {u : Write ι} (h : u.proc ≠ leader) (older : List (Write ι)) :
    stamps leader (u :: older) = stamps leader older := by
  simp [stamps, h]

/-! ### In time -/

/-- The Lease changes by one write at a time, at the clock. -/
theorem step_writes {v w : (guards cfg identity).Clocked ℚ} {tick : Tick Exc ι Clock Arrival ℚ}
    (hstep : v.step sharedClock tick = some w) :
    w.world.server.writes = v.world.server.writes ∨
      w.clock = v.clock ∧ ∃ u, w.world.server.writes = u :: v.world.server.writes := by
  cases tick with
  | advance t =>
    simp only [System.Clocked.step] at hstep
    split_ifs at hstep
    cases hstep
    exact .inl rfl
  | act l =>
    simp only [System.Clocked.step] at hstep
    split_ifs at hstep
    obtain ⟨world, hworld, rfl⟩ := Option.map_eq_some_iff.mp hstep
    have hserver := System.World.step_server hworld
    rcases hserved : v.world.served l with _ | ⟨env, c⟩
    · rw [hserved] at hserver
      exact .inl (congrArg Server.writes hserver)
    · rw [hserved] at hserver
      have hwrites : world.server.writes = _ := (congrArg Server.writes hserver).trans (respond_writes _ _ _ _)
      generalize v.world.server.accepts env.req = accepted at hwrites
      cases accepted with
      | none => exact .inl hwrites
      | some spec => exact .inr ⟨rfl, _, hwrites⟩

/-- A step leaves the Lease to the leader as long as its time is not over. -/
theorem Server.Unbroken.step (hid : Function.Injective identity) {v w : (guards cfg identity).Clocked ℚ}
    (hgood : v.Good (guardsContract cfg identity) sharedClock) {tick : Tick Exc ι Clock Arrival ℚ}
    (hstep : v.step sharedClock tick = some w)
    (hdue : ∀ o older, v.world.server.writes = o :: older → o.proc = leader →
      v.clock ≤ ⌊o.now.1⌋ + cfg.leaseDurationSeconds)
    (h : v.world.server.Unbroken leader) : w.world.server.Unbroken leader := by
  have hgood' := hgood.step (guardsContract_kept hid) hstep
  unfold Server.Unbroken
  rcases step_writes hstep with hsame | ⟨hclock, u, hwrites⟩
  · rw [hsame]
    exact h
  · rw [hwrites]
    refine List.isChain_cons.mpr ⟨fun o ho hleader => ?_, h⟩
    obtain ⟨older, holder⟩ := List.head?_eq_some_iff.mp ho
    by_contra hne
    -- another guard waited for the time of the write it replaced
    have hchain := hgood'.world.inv.takesOver
    rw [hwrites, holder] at hchain
    have hlate := (List.isChain_cons_cons.mp hchain).1 fun heq => hne (heq.trans hleader)
    have hnow := write_now_le hgood' (hwrites ▸ List.mem_cons_self)
    have htime := hdue o older holder hleader
    linarith

theorem Follows.due {renewals : List Renewal} (hchain : renewals.IsChain (InTime cfg))
    {v : (guards cfg identity).Clocked ℚ} (h : Follows leader renewals v) {o : Write ι} {older : List (Write ι)}
    (hwrites : v.world.server.writes = o :: older) (hleader : o.proc = leader) :
    v.clock ≤ ⌊o.now.1⌋ + cfg.leaseDurationSeconds := by
  obtain ⟨done, next, rest, rfl, hstamps, -, hnext⟩ := h
  -- the write on top is the last of the renewals so far
  rw [hwrites, stamps_cons_self hleader, List.reverse_cons] at hstamps
  obtain ⟨init, last, rfl, -, hlast⟩ := List.map_eq_append_iff.mp hstamps.symm
  obtain ⟨r, rfl, hr⟩ := List.map_eq_singleton_iff.mp hlast
  rw [List.append_assoc] at hchain
  have htime : InTime cfg r next := (List.isChain_append_cons_cons.mp hchain).2.1
  rw [← hr]
  exact hnext.trans htime

theorem keepsLease_of_inTime (hid : Function.Injective identity) {renewals : List Renewal}
    (hchain : renewals.IsChain (InTime cfg)) : KeepsLease cfg identity leader renewals := by
  intro start ticks w hrun hfollows
  have hend := runFrom_invariant
    (P := fun v => v.Good (guardsContract cfg identity) sharedClock ∧ v.world.server.Unbroken leader)
    (fun v tick v' hv hfollow hstep => ⟨hv.1.step (guardsContract_kept hid) hstep,
      hv.2.step hid hv.1 hstep fun _ _ => hfollow.due hchain⟩)
    ⟨clockedRun_good hid (show clockedRun cfg identity start [] = some _ from rfl), .nil⟩ hrun hfollows
  exact hend.2

/-! ### Too late -/

/-- What the API server answers when there is nothing to guard. -/
def emptyFleet : (r : Req) → Except Exc (Ans r)
  | .listNodes _ | .listPods .. => .ok []
  | _ => .error notFound

/-- The server for a caller that is answered at once; it has nothing for a request
that gives it no time. -/
def atOnce (caller : Caller ι Clock GuardObject) (t : ℚ) :
    Option (Server ι) → (r : Req) → Option (Server ι) × Except Exc (Ans r)
  | none, _ => (none, .error notFound)
  | some s, r =>
    if 0 ≤ r.timeout then
      (some (s.respond caller r ⟨t, emptyFleet⟩).1, (s.respond caller r ⟨t, emptyFleet⟩).2)
    else (none, .error notFound)

omit [DecidableEq ι] in
/-- What a pass makes of a Lease that it may write. -/
theorem iterate_writes (cfg : Config) (identity : ι → String) (caller : Caller ι Clock GuardObject) (t : ℚ)
    {s : Server ι} (hmay : ∀ w older, s.writes = w :: older →
      mayWrite w.spec (identity caller.proc) caller.arg cfg.leaseDurationSeconds = true) :
    ∃ spec, ((iterate cfg (identity caller.proc) caller.arg.1).serve (atOnce caller t) caller.base (some s)).2 =
      some (s.write caller spec) := by
  have hidle : ∀ s : Server ι, IdleFleet (atOnce caller t) (some s) := fun _ => ⟨fun _ => rfl, fun _ _ => rfl⟩
  have hlease : ∀ r : Req, r.forLease = true → atOnce caller t (some s) r =
      (some (s.respond caller r ⟨t, emptyFleet⟩).1, (s.respond caller r ⟨t, emptyFleet⟩).2) := by
    intro r hr
    cases r with
    | getLease | createLease | updateLease => rfl
    | _ => cases hr
  rcases hs : s.writes with _ | ⟨w, older⟩
  · have hnone : s.lease = none := lease_eq_none.mpr hs
    have hget : ∀ ns name, atOnce caller t (some s) (.getLease ns name) = (some s, .error notFound) := by
      intro ns name
      rw [hlease (.getLease ns name) rfl]
      simp only [Server.respond, hnone]
    have hcreate : ∀ ns name spec, atOnce caller t (some s) (.createLease ns name spec) =
        (some (s.write caller spec), .ok ()) := by
      intro ns name spec
      rw [hlease (.createLease ns name spec) rfl]
      simp only [Server.respond, hnone]
    exact ⟨_, iterate_idle (hidle _) (acquireOrRenew_creates (hget ..) (hcreate ..))⟩
  · have hsome : s.lease = some ⟨older.length + 1, w.spec⟩ := lease_eq_some.mpr ⟨w, older, hs, rfl⟩
    have hget : ∀ ns name, atOnce caller t (some s) (.getLease ns name) =
        (some s, .ok ⟨older.length + 1, w.spec⟩) := by
      intro ns name
      rw [hlease (.getLease ns name) rfl]
      simp only [Server.respond, hsome]
    have hput : ∀ ns name spec, atOnce caller t (some s) (.updateLease ns name ⟨older.length + 1, spec⟩) =
        (some (s.write caller spec), .ok ()) := by
      intro ns name spec
      rw [hlease (.updateLease ns name ⟨_, spec⟩) rfl]
      simp only [Server.respond, hsome, if_true]
    exact ⟨_, iterate_idle (hidle _) (acquireOrRenew_renews (hget ..) (hmay w older hs) (hput ..))⟩

/-- A guard that may write the Lease does so in a pass that begins at one clock and
has its write stored at another. -/
theorem exists_pass {w : (guards cfg identity).Clocked ℚ} (hgood : w.Good (guardsContract cfg identity) sharedClock)
    {p : ι} {b c : Clock} (hclock : w.clock ≤ b.1) (hbc : b ≤ c) (hidle : (w.world.procs p).job = none)
    (hmay : ∀ o older, w.world.server.writes = o :: older →
      mayWrite o.spec (identity p) b cfg.leaseDurationSeconds = true) :
    ∃ ticks w' u, runFrom (System.Clocked.step sharedClock) w ticks = some w' ∧ w'.clock = c ∧
      (∀ q, (w.world.procs q).job = none → (w'.world.procs q).job = none) ∧
      w'.world.server.writes = u :: w.world.server.writes ∧ u.proc = p ∧ u.now = b ∧
      Along (System.Clocked.step sharedClock) (fun v _ => w.clock ≤ v.clock ∧ v.clock ≤ c ∧
        (v.world.server.writes = w.world.server.writes ∨
          v.world.server.writes = w'.world.server.writes ∧ v.clock = c)) w ticks := by
  have hlast : (w.world.procs p).last ≤ b := by
    rcases hl : (w.world.procs p).last with _ | a
    · exact bot_le
    · exact WithBot.coe_le_coe.mpr ((hgood.last p a hl).trans hclock)
  let caller : Caller ι Clock GuardObject := ⟨p, (w.world.procs p).calls, b, (w.world.procs p).object⟩
  have hbegin : ({ w with clock := b.1 } : (guards cfg identity).Clocked ℚ).world.step (.begin p b) =
      some (w.world.put p { w.world.procs p with
        calls := caller.call + 1
        last := b
        job := some ⟨caller, [], .running ((iterate cfg (identity p) b.1).call caller.base)⟩ }) :=
    if_pos ⟨by simp [hidle], hlast⟩
  obtain ⟨v, hbegin, hworld, hvclock, -⟩ := System.Clocked.step_act sharedClock hbegin rfl
  have hwait : v.step sharedClock (.advance c.1) = some { v with clock := c.1 } :=
    System.Clocked.step_advance sharedClock (hvclock ▸ hbc)
  have hjob : (v.world.procs p).job =
      some ⟨caller, [], .running ((iterate cfg (identity p) b.1).call caller.base)⟩ := by
    rw [hworld, System.World.put_self]
  have hserver : v.world.server = w.world.server := by
    rw [hworld]
    rfl
  obtain ⟨spec, hserve⟩ := iterate_writes cfg identity caller c.1 hmay
  rw [← hserver] at hserve
  have hanswers : ∀ (s : Server ι) (es : List (Event Api)) r, (atOnce caller c.1 (some s) r).1 = none ∨
      c.1 ≤ c.1 + r.timeout ∧
        atOnce caller c.1 (some s) r = (some (s.respond caller r ⟨c.1, emptyFleet⟩).1,
          (s.respond caller r ⟨c.1, emptyFleet⟩).2) ∧
        s.writes <:+ (s.respond caller r ⟨c.1, emptyFleet⟩).1.writes := by
    intro s es r
    by_cases htimeout : 0 ≤ r.timeout
    · have htime : (0 : ℚ) ≤ r.timeout := by exact_mod_cast htimeout
      exact .inr ⟨by linarith, if_pos htimeout, writes_suffix s caller r _⟩
    · exact .inl (by simp [atOnce, htimeout])
  obtain ⟨ticks, w', hreach, hend, hlease⟩ := System.Clocked.reaches_end sharedClock
    (R := fun s t : Server ι => s.writes <:+ t.writes) (fun s => List.suffix_refl _) (fun _ _ _ => List.IsSuffix.trans)
    (c := ⟨c.1, emptyFleet⟩) (fun _ => rfl) hanswers (w := { v with clock := c.1 }) hjob rfl rfl hserve
  have hwrites : w'.world.server.writes = _ := congrArg Server.writes hlease
  simp only [Server.write, hserver] at hwrites
  refine ⟨.advance b.1 :: .act (.begin p b) :: .advance c.1 :: ticks, w', _, ?_, hreach.clock, fun q hq => ?_, hwrites,
    rfl, rfl, ?_⟩
  · rw [runFrom_cons (System.Clocked.step_advance sharedClock hclock), runFrom_cons hbegin, runFrom_cons hwait]
    exact hreach.run
  · by_cases hqp : q = p
    · exact hqp ▸ hend
    · rw [hreach.jobs q hqp, hworld, System.World.put_of_ne _ hqp]
      exact hq
  · have hafter : Along (System.Clocked.step sharedClock) (fun x _ => w.clock ≤ x.clock ∧ x.clock ≤ c ∧
        (x.world.server.writes = w.world.server.writes ∨ x.world.server.writes = w'.world.server.writes ∧ x.clock = c))
        { v with clock := c.1 } ticks := by
      refine hreach.along.mono fun x _ hx => ?_
      obtain ⟨hxclock, hto, hfrom⟩ := hx
      refine ⟨?_, hxclock.le, ?_⟩
      · exact (hclock.trans hbc).trans hxclock.ge
      · rw [hwrites, List.suffix_cons_iff] at hto
        rw [hwrites]
        refine hto.symm.imp (fun hsuffix => ?_) fun heq => ⟨heq, hxclock⟩
        exact hsuffix.eq_of_length_le (hserver ▸ hfrom).length_le
    exact .cons (System.Clocked.step_advance sharedClock hclock) ⟨le_refl _, hclock.trans hbc, .inl rfl⟩
      (.cons hbegin ⟨hclock, hbc, .inl rfl⟩
        (.cons hwait ⟨hvclock ▸ hclock, hvclock ▸ hbc, .inl (congrArg Server.writes hserver)⟩ hafter))

/-! ### Exactly in time -/

theorem Punctual.stored_le {r next : Renewal} (h : Punctual cfg r next) : r.stored ≤ next.begins := by
  obtain ⟨elapsed, hstored, -, hnext⟩ := h
  have hsleep : (1 : ℚ) ≤ max 1 (cfg.loopIntervalSeconds - elapsed) := le_max_left _ _
  show r.stored.1 ≤ next.begins.1
  linarith

/-- The leader has stored these renewals and everything is quiet. -/
structure Looped (leader : ι) (done : List Renewal) (w : (guards cfg identity).Clocked ℚ) : Prop where
  idle : ∀ q, (w.world.procs q).job = none
  alone : ∀ u ∈ w.world.server.writes, u.proc = leader
  stamps : (stamps leader w.world.server.writes).reverse = done.map (·.begins)
  stored : ∀ r ∈ done, r.stored.1 ≤ w.clock

/-- A leader alone gets through its renewals. -/
theorem exists_loop (hid : Function.Injective identity) (leader : ι) {start : ℚ} {done : List Renewal} {next : Renewal}
    {rest : List Renewal} (hpunctual : (done ++ next :: rest).IsChain (Punctual cfg))
    (hstart : ∀ r ∈ (done ++ [next]).head?, start ≤ r.begins) :
    ∃ ticks w, clockedRun cfg identity start ticks = some w ∧ Looped leader done w ∧ w.clock ≤ next.begins ∧
      Along (System.Clocked.step sharedClock) (fun v _ => Follows leader (done ++ next :: rest) v)
        (.start (guards cfg identity) {} start) ticks := by
  induction done using List.reverseRecOn generalizing next rest with
  | nil =>
    refine ⟨[], _, rfl, ⟨fun _ => rfl, by simp [System.Clocked.start, System.start], rfl, by simp⟩, ?_, trivial⟩
    exact hstart next rfl
  | append_singleton done r ih =>
    rw [List.append_assoc, List.singleton_append] at hpunctual ⊢
    obtain ⟨ticks, w, hrun, hlooped, hclock, hfollows⟩ := ih hpunctual (by simpa using hstart)
    have hnext := (List.isChain_append_cons_cons.mp hpunctual).2.1.stored_le
    have hgood := clockedRun_good hid hrun
    obtain ⟨more, w', u, hmore, hclock', hidle, hwrites, hproc, hnow, halong⟩ :=
      exists_pass hgood hclock r.begins_le (hlooped.idle leader) fun o older ho => by
        have hmem : o ∈ w.world.server.writes := ho ▸ List.mem_cons_self
        simp [mayWrite, (hgood.world.inv.own o hmem).1, hlooped.alone o hmem]
    have hstamps : (Replicas.stamps leader w'.world.server.writes).reverse = (done ++ [r]).map (·.begins) := by
      rw [hwrites, stamps_cons_self hproc, List.reverse_cons, hlooped.stamps, hnow, List.map_append, List.map_singleton]
    have hstored : ∀ x ∈ done ++ [r], x.stored.1 ≤ r.stored := by
      intro x hx
      rcases List.mem_append.mp hx with hx | hx
      · exact (hlooped.stored x hx).trans (hclock.trans r.begins_le)
      · rw [List.mem_singleton.mp hx]
    refine ⟨ticks ++ more, w', (runFrom_append hrun more).trans hmore,
      ⟨fun q => hidle q (hlooped.idle q), ?_, hstamps, ?_⟩, ?_,
      hfollows.append hrun (halong.mono fun v _ hv => ?_)⟩
    · rw [hwrites]
      exact List.forall_mem_cons.mpr ⟨hproc, hlooped.alone⟩
    · rw [hclock']
      exact hstored
    · rw [hclock']
      exact hnext
    · obtain ⟨hle, hto, hv | ⟨hv, hvclock⟩⟩ := hv
      · exact ⟨done, r, next :: rest, rfl, hv ▸ hlooped.stamps, fun x hx => (hlooped.stored x hx).trans hle, hto⟩
      · refine ⟨done ++ [r], next, rest, by simp, hv ▸ hstamps, hvclock ▸ hstored, ?_⟩
        rw [hvclock]
        exact hnext.trans next.begins_le

/-- One renewal too late is enough for another replica. -/
theorem inTime_of_keepsLease (hid : Function.Injective identity) (hne : challenger ≠ leader) {renewals : List Renewal}
    (hpunctual : renewals.IsChain (Punctual cfg)) (hkept : KeepsLease cfg identity leader renewals) :
    renewals.IsChain (InTime cfg) := by
  rw [List.isChain_iff_forall_rel_of_append_cons_cons]
  rintro r next done rest rfl
  by_contra hlate
  have hsplit : done ++ r :: next :: rest = (done ++ [r]) ++ next :: rest := by simp
  rw [hsplit] at hpunctual hkept
  obtain ⟨start, hstart⟩ : ∃ start : ℚ, ∀ x ∈ ((done ++ [r]) ++ [next]).head?, start ≤ x.begins := by
    rcases ((done ++ [r]) ++ [next]).head? with _ | x
    · exact ⟨0, by simp⟩
    · exact ⟨x.begins, by simp⟩
  obtain ⟨ticks, w, hrun, hlooped, hclock, hfollows⟩ := exists_loop hid leader hpunctual hstart
  have hgood := clockedRun_good hid hrun
  obtain ⟨o, older, hwrites, hleader, hnow⟩ : ∃ o older, w.world.server.writes = o :: older ∧ o.proc = leader ∧
      o.now = r.begins := by
    have hstamps := hlooped.stamps
    rcases hw : w.world.server.writes with _ | ⟨o, older⟩
    · simp [hw, stamps] at hstamps
    · have hleader := hlooped.alone o (hw ▸ List.mem_cons_self)
      rw [hw, stamps_cons_self hleader, List.reverse_cons, List.map_append] at hstamps
      exact ⟨o, older, rfl, hleader, List.singleton_inj.mp (List.append_inj' hstamps rfl).2⟩
  -- the other replica has the server to itself just before the renewal is stored
  obtain ⟨more, w', u, hmore, -, -, hwrites', hproc, -, halong⟩ :=
    exists_pass hgood (hclock.trans next.begins_le) le_rfl (hlooped.idle challenger) fun o' older' ho' => by
      obtain ⟨rfl, rfl⟩ := List.cons_eq_cons.mp (hwrites.symm.trans ho')
      have hexpired : leaseExpired o.spec next.stored cfg.leaseDurationSeconds ≠ false := by
        rw [ne_eq, (hgood.world.inv.own o (hwrites ▸ List.mem_cons_self)).expired_iff, hnow]
        exact hlate
      rw [mayWrite, Bool.or_eq_true]
      exact .inr (Bool.not_eq_false _ ▸ hexpired)
  have hunbroken := hkept start (ticks ++ more) w' ((runFrom_append hrun more).trans hmore)
    (hfollows.append hrun (halong.mono fun v _ hv => ?_))
  · rw [Server.Unbroken, hwrites', hwrites] at hunbroken
    exact hne (hproc.symm.trans ((List.isChain_cons_cons.mp hunbroken).1 hleader))
  · obtain ⟨hle, hto, hv⟩ := hv
    refine ⟨done ++ [r], next, rest, rfl, ?_, fun x hx => (hlooped.stored x hx).trans hle, hto⟩
    rcases hv with hv | ⟨hv, -⟩
    · rw [hv, hlooped.stamps]
    · rw [hv, hwrites', stamps_cons_of_ne (hproc ▸ hne), hlooped.stamps]

/-- A leader that loops on time keeps its Lease, whatever the other replicas do, if
and only if each of its writes is stored no later than the duration of the Lease
after the whole second in which the pass of the one before began. -/
theorem leader_keeps_lease_iff (hid : Function.Injective identity) (hne : challenger ≠ leader)
    {renewals : List Renewal} (hpunctual : renewals.IsChain (Punctual cfg)) :
    KeepsLease cfg identity leader renewals ↔ renewals.IsChain (InTime cfg) :=
  ⟨inTime_of_keepsLease hid hne hpunctual, keepsLease_of_inTime hid⟩

/-! ### The shipped defaults -/

def clockAt (t : ℚ) (h : 1000 ≤ (gmtime t).year ∧ (gmtime t).year < 10000) : Clock := ⟨t, (readsBack h).2⟩

def halfPast : Renewal :=
  ⟨clockAt (1 / 2) (by decide +kernel), clockAt 1 (by decide), show (1 / 2 : ℚ) ≤ 1 by norm_num⟩

/-- One iteration later, after a pass of one second. -/
def halfPastNext : Renewal :=
  ⟨clockAt (61 / 2) (by decide +kernel), clockAt 31 (by decide), show (61 / 2 : ℚ) ≤ 31 by norm_num⟩

theorem halfPast_punctual : [halfPast, halfPastNext].IsChain (Punctual enforcing) :=
  .cons_cons ⟨1, by norm_num [halfPast, clockAt], by norm_num [enforcing],
    by norm_num [enforcing, halfPast, halfPastNext, clockAt]⟩ (.singleton _)

theorem leader_keeps_lease_iff_halfPast : KeepsLease enforcing twoGuards .first [halfPast, halfPastNext] ↔
    [halfPast, halfPastNext].IsChain (InTime enforcing) :=
  leader_keeps_lease_iff twoGuards_injective (show Peer.second ≠ .first by decide) halfPast_punctual

/-- The loop interval is the duration of the Lease. The next pass begins half a
second after the Lease counts as expired, since its stamp has lost half a second,
and until the write of that pass is stored the other replica can take it over. -/
theorem halfPast_takenOver : ¬∀ (cfg : Config) (identity : Peer → String) (renewals : List Renewal),
    cfg.loopIntervalSeconds ≤ cfg.leaseDurationSeconds → Function.Injective identity →
      renewals.IsChain (Punctual cfg) → KeepsLease cfg identity .first renewals := by
  intro h
  have hkept := h enforcing twoGuards [halfPast, halfPastNext] (by decide) twoGuards_injective halfPast_punctual
  have hchain := inTime_of_keepsLease twoGuards_injective (show Peer.second ≠ .first by decide) halfPast_punctual hkept
  have hlate : ¬InTime enforcing halfPast halfPastNext := by
    norm_num [InTime, enforcing, halfPast, halfPastNext, clockAt]
  exact hlate (List.isChain_cons_cons.mp hchain).1

end GpuNodeHealth.Replicas
