import GpuNodeHealth.Replicas.LeaseServer

/-! What the Lease guarantees, as a contract between the server and the replicas.
A replica replaces the Lease only where it read it, and only if it may; and it
touches nodes and pods only in a call that wrote the Lease. -/

namespace GpuNodeHealth.Replicas

open Cluster Guard Interaction

variable {ι σ α : Type}

/-- The spec names the guard of the call and is renewed at the clock of the call. -/
def OwnSpec (identity : ι → String) (caller : Caller ι Clock σ) (spec : LeaseSpec) : Prop :=
  spec.holderIdentity = some (identity caller.proc) ∧ spec.renewTime = some (rfc3339Micro caller.arg)

/-- What a call knows from its events: where the Lease was when it read it, and
that a write that was answered well is stored. -/
def LeaseKnown (caller : Caller ι Clock σ) (es : List (Event Api)) (s : Server ι) : Prop :=
  (∀ ns name lease, (⟨.getLease ns name, .ok lease⟩ : Event Api) ∈ es → ReadBy caller lease s) ∧
    ∀ r a, r.writesLease = true → (⟨r, .ok a⟩ : Event Api) ∈ es → WrittenBy caller s

/-- The Lease is renewed, or taken over, from where the call read it. -/
def RenewalJust (duration : ℤ) (identity : ι → String) (caller : Caller ι Clock σ) (lease : Lease)
    (s : Server ι) : Prop :=
  OwnSpec identity caller lease.spec ∧ ∃ read, ReadBy caller read s ∧
    read.resourceVersion = lease.resourceVersion ∧
      mayWrite read.spec (identity caller.proc) caller.arg duration = true

/-- What has to be so for a request to be sent. -/
def LeaseJust (duration : ℤ) (identity : ι → String) (spend : Envelope Api ι Clock σ → Prop)
    (env : Envelope Api ι Clock σ) (s : Server ι) : Prop :=
  match env.req with
  | .getLease .. => env.events = []
  | .createLease _ _ spec => OwnSpec identity env.caller spec
  | .updateLease _ _ lease => RenewalJust duration identity env.caller lease s
  | .cordon _ => WrittenBy env.caller s ∧ spend env
  | .deletePod .. => WrittenBy env.caller s
  | _ => True

/-- A cordon also meets `spend`, a result of which `leads` holds is that of a call
that wrote the Lease, and `object` ties the object to what was last returned. -/
def leaseContract (method : ι → Clock → Method Api Exc σ α) (fresh : σ) (duration : ℤ) (identity : ι → String)
    (spend : Envelope Api ι Clock σ → Prop) (leads : Except Exc α → Prop) (object : σ → Option α → Prop) :
    (replicas method fresh).Contract where
  Inv := LeaseKept identity duration
  Known := LeaseKnown
  Just := LeaseJust duration identity spend
  Ret r s := leads r.result → WrittenBy r.caller s
  Object := object
  marks s := s.writes.map fun w => (w.proc, w.call, w.now)

variable {caller : Caller ι Clock σ} {s s' : Server ι} {identity : ι → String} {duration : ℤ}
  {spend : Envelope Api ι Clock σ → Prop} {env : Envelope Api ι Clock σ} {es : List (Event Api)}
  {spec : LeaseSpec}

/-! ### Writes -/

/-- The Lease as the writer found it: absent, or its to write. -/
def Writable (duration : ℤ) (identity : ι → String) (caller : Caller ι Clock σ) (s : Server ι) : Prop :=
  ∀ w older, s.writes = w :: older →
    mayWrite w.spec (identity caller.proc) caller.arg duration = true ∧
      ∀ u ∈ s.writes, u.proc = caller.proc → u.call < caller.call ∧ u.now ≤ caller.arg

/-- An accepted write was made on the Lease as it is stored. -/
theorem writable_of_accepts (hjust : LeaseJust duration identity spend env s)
    (h : s.accepts env.req = some spec) :
    OwnSpec identity env.caller spec ∧ Writable duration identity env.caller s := by
  obtain ⟨caller, es, r⟩ := env
  cases r with
  | createLease ns name spec' =>
    simp only [Server.accepts] at h
    split_ifs at h with hnone
    cases h
    refine ⟨hjust, fun w older heq => ?_⟩
    rw [Option.isNone_iff_eq_none, lease_eq_none] at hnone
    simp [hnone] at heq
  | updateLease ns name lease =>
    simp only [Server.accepts] at h
    split_ifs at h with hversion
    cases h
    obtain ⟨hown, read, ⟨w, older, hsuffix, rfl, hold⟩, hread, hmay⟩ := hjust
    refine ⟨hown, fun w' older' heq => ?_⟩
    -- the version is the length, so the suffix the call read is everything there is
    have hlen : older'.length + 1 = lease.resourceVersion := by
      simpa [Server.lease, heq] using hversion
    have hlen' : older.length + 1 = lease.resourceVersion := hread
    rw [heq] at hsuffix ⊢
    have hsame := hsuffix.eq_of_length (by simp only [List.length_cons]; omega)
    cases hsame
    exact ⟨hmay, hold⟩
  | _ => cases h

/-- Whoever may write a Lease that is not its own waited for its time to run out. -/
theorem takesOver_of_mayWrite (hid : Function.Injective identity) {w : Write ι} (hw : w.Own identity)
    (hmay : mayWrite w.spec (identity caller.proc) caller.arg duration = true) (hne : caller.proc ≠ w.proc) :
    (⌊w.now.1⌋ + duration : ℚ) < caller.arg := by
  simp only [mayWrite, Bool.or_eq_true, decide_eq_true_eq, hw.1, Option.some.injEq] at hmay
  rcases hmay with hsame | hexpired
  · exact absurd (hid hsame).symm hne
  · have hread : parseTime w.spec.renewTime = some ⌊w.now.1⌋ := by
      rw [hw.2]
      exact w.now.2
    simp only [leaseExpired, hread, decide_eq_true_eq] at hexpired
    linarith

theorem LeaseKept.write (hid : Function.Injective identity) (h : LeaseKept identity duration s)
    (hown : OwnSpec identity caller spec) (hwritable : Writable duration identity caller s) :
    LeaseKept identity duration (s.write caller spec) where
  own := List.forall_mem_cons.mpr ⟨hown, h.own⟩
  inOrder := by
    refine List.pairwise_cons.mpr ⟨fun u hu hproc => ?_, h.inOrder⟩
    obtain ⟨w, older, heq⟩ := List.exists_cons_of_ne_nil (List.ne_nil_of_mem hu)
    exact (hwritable w older heq).2 u hu hproc.symm
  takesOver := by
    cases heq : s.writes with
    | nil => simp [Server.write, heq]
    | cons w older =>
      have hkept := h.takesOver
      simp only [Server.write, heq] at hkept ⊢
      refine List.isChain_cons_cons.mpr ⟨fun hne => ?_, hkept⟩
      exact takesOver_of_mayWrite hid (h.own w (by simp [heq])) (hwritable w older heq).1 hne

theorem LeaseKept.congr (h : LeaseKept identity duration s) (hs : s'.writes = s.writes) :
    LeaseKept identity duration s' :=
  ⟨hs ▸ h.own, hs ▸ h.inOrder, hs ▸ h.takesOver⟩

theorem LeaseKept.respond (hid : Function.Injective identity) (h : LeaseKept identity duration s)
    (hjust : LeaseJust duration identity spend env s) (c : Arrival) :
    LeaseKept identity duration (s.respond env.caller env.req c).1 := by
  have hwrites := respond_writes s env.caller env.req c
  cases haccepts : s.accepts env.req with
  | none => exact h.congr (by simpa [haccepts] using hwrites)
  | some spec =>
    obtain ⟨hown, hwritable⟩ := writable_of_accepts hjust haccepts
    exact (h.write hid hown hwritable).congr (by simpa [haccepts, Server.write] using hwrites)

/-! ### Knowledge -/

theorem LeaseKnown.mono (h : LeaseKnown caller es s) (hs : s.writes <:+ s'.writes) : LeaseKnown caller es s' :=
  ⟨fun ns name lease he => (h.1 ns name lease he).mono hs, fun r a hr he => (h.2 r a hr he).mono hs⟩

theorem LeaseJust.mono (h : LeaseJust duration identity spend env s) (hs : s.writes <:+ s'.writes) :
    LeaseJust duration identity spend env s' := by
  obtain ⟨caller, es, r⟩ := env
  cases r with
  | updateLease ns name lease =>
    obtain ⟨hown, read, hread, hrest⟩ := h
    exact ⟨hown, read, hread.mono hs, hrest⟩
  | cordon node => exact ⟨WrittenBy.mono h.1 hs, h.2⟩
  | deletePod ns name => exact WrittenBy.mono h hs
  | _ => exact h

theorem LeaseKnown.snoc (h : LeaseKnown caller es s) {r : Req} {v : Except Exc (Ans r)}
    (hread : ∀ ns name lease, (⟨.getLease ns name, .ok lease⟩ : Event Api) = ⟨r, v⟩ → ReadBy caller lease s)
    (hwritten : r.writesLease = true → ∀ a, v = .ok a → WrittenBy caller s) :
    LeaseKnown caller (es ++ [⟨r, v⟩]) s := by
  constructor
  · intro ns name lease he
    rcases List.mem_append.mp he with hold | hnew
    · exact h.1 ns name lease hold
    · exact hread ns name lease (List.mem_singleton.mp hnew)
  · intro r' a hr he
    rcases List.mem_append.mp he with hold | hnew
    · exact h.2 r' a hr hold
    · cases List.mem_singleton.mp hnew
      exact hwritten hr a rfl

/-- What a call learns from an answer. -/
theorem LeaseKnown.served (h : LeaseKnown env.caller env.events s)
    (hjust : LeaseJust duration identity spend env s) (c : Arrival)
    (hfirst : env.events = [] → ∀ w ∈ s.writes, w.proc = env.caller.proc →
      w.call < env.caller.call ∧ w.now ≤ env.caller.arg) :
    LeaseKnown env.caller (env.events ++ [⟨env.req, (s.respond env.caller env.req c).2⟩])
      (s.respond env.caller env.req c).1 := by
  have hsuffix := writes_suffix s env.caller env.req c
  refine (h.mono hsuffix).snoc (fun ns name lease heq => ?_) (fun hr a ha => ?_)
  · obtain ⟨caller, es, r⟩ := env
    obtain rfl := congrArg Sigma.fst heq
    cases hlease : s.lease with
    | none => simp [Server.respond, hlease] at heq
    | some stored =>
      obtain rfl : lease = stored := by simpa [Server.respond, hlease] using heq
      obtain ⟨w, older, hwrites, rfl⟩ := lease_eq_some.mp hlease
      exact ⟨w, older, hwrites ▸ hsuffix, rfl, hwrites ▸ hfirst hjust⟩
  · obtain ⟨spec, haccepts⟩ := accepts_of_ok hr ha
    refine ⟨⟨env.caller.proc, env.caller.call, env.caller.arg, spec⟩, ?_, rfl, rfl, rfl⟩
    rw [respond_writes, haccepts]
    exact List.mem_append_left _ List.mem_cons_self

theorem ReadBy.renewal {lease : Lease} (hread : ReadBy caller lease s)
    (hmay : mayWrite lease.spec (identity caller.proc) caller.arg duration = true) :
    RenewalJust duration identity caller
      { lease with spec := renewedSpec lease.spec (identity caller.proc) caller.arg duration } s :=
  ⟨⟨renewedSpec_holder .., rfl⟩, lease, hread, rfl, hmay⟩

/-! ### The contract -/

theorem leaseContract_kept {method : ι → Clock → Method Api Exc σ α} {fresh : σ} {leads : Except Exc α → Prop}
    {object : σ → Option α → Prop} (hid : Function.Injective identity) (hfresh : object fresh none)
    (hsound : ∀ caller, (leaseContract method fresh duration identity spend leads object).Sound caller
      ((method caller.proc caller.arg).call caller.base) []) :
    (leaseContract method fresh duration identity spend leads object).Kept where
  sound := hsound
  object := hfresh
  inv s env c h hjust := h.respond hid hjust c
  marks s env c m hm := by
    obtain ⟨w, hw, rfl⟩ := List.mem_map.mp hm
    rcases List.mem_append.mp (respond_writes s env.caller env.req c ▸ hw) with hnew | hold
    · obtain ⟨spec, -, rfl⟩ : ∃ spec, s.accepts env.req = some spec ∧
          ⟨env.caller.proc, env.caller.call, env.caller.arg, spec⟩ = w := by simpa using hnew
      exact .inl rfl
    · exact .inr (List.mem_map_of_mem hold)
  known_nil caller s := ⟨fun _ _ _ he => (by cases he), fun _ _ _ he => (by cases he)⟩
  known_error caller es r e s h := h.snoc (fun _ _ _ heq => by cases heq) fun _ _ ha => by cases ha
  known_served s env c h hjust hknown hfirst := hknown.served hjust c fun hnil w hw hproc => by
    have hbefore := hfirst hnil _ (List.mem_map_of_mem hw) hproc
    exact ⟨hbefore.1, WithBot.coe_le_coe.mp hbefore.2⟩
  known_later s env c caller es h hjust hknown := hknown.mono (writes_suffix s env.caller env.req c)
  just_later s env c env' h hjust hjust' := hjust'.mono (writes_suffix s env.caller env.req c)
  ret_later s env c r h hjust hret hleads := (hret hleads).mono (writes_suffix s env.caller env.req c)

end GpuNodeHealth.Replicas
