import GpuNodeHealth.Agent.DState
import GpuNodeHealth.Window.Sightings
import Mathlib.Data.Finset.Card

/-! What the census counts and how it times. A pass goes over the threads it finds
in state D; what it adds up is said once, for the whole list of them. The census
remembers of every one of them the first pass of its streak, and of other threads
nothing. -/

namespace GpuNodeHealth.Agent

open Text
open Guard (roundTenth)

/-! ### One pass -/

/-- The threads a pass comes by. -/
def threads (entries : List ProcEntry) : List TaskEntry := (entries.filter (isdigit ·.pid)).flatMap iterTasks

/-- The threads a pass finds in state D. -/
def sleepersOf (entries : List ProcEntry) : List Sleeper :=
  (entries.filter (isdigit ·.pid)).flatMap fun process => (iterTasks process).filterMap (sleeper? process.pid)

/-- How long a thread in D has been so, as the census takes it. -/
def DStateCensus.seconds (census : DStateCensus) (now : ℚ) (s : Sleeper) : ℚ := now - (census.since s.key).getD now

def DStateCensus.isStuck (census : DStateCensus) (now : ℚ) (s : Sleeper) : Bool :=
  census.stuckSeconds ≤ census.seconds now s

def DStateCensus.isGpu (census : DStateCensus) (s : Sleeper) : Bool := census.isGpuTask s.comm s.wchan

def DStateCensus.offender (census : DStateCensus) (now : ℚ) (s : Sleeper) : Offender where
  tid := decimal s.tid.toList
  pid := decimal s.pid.toList
  comm := s.comm
  wchan := if s.wchan = wchanDenied then [] else s.wchan
  wchanDenied := s.wchan = wchanDenied
  seconds := roundTenth (census.seconds now s)
  gpuWorker := census.isGpu s

/-- The locals of `collect` after some threads in D. -/
def DStateCensus.tally (census : DStateCensus) (now : ℚ) (ss : List Sleeper) : Tally where
  since key := if ∃ s ∈ ss, s.key = key then some ((census.since key).getD now) else census.since key
  seen := ss.map Sleeper.key
  total := ss.length
  stuck := ss.countP (census.isStuck now)
  gpuTotal := ss.countP census.isGpu
  gpuStuck := ss.countP fun s => census.isStuck now s && census.isGpu s
  wchanDenied := ss.countP fun s => s.wchan = wchanDenied
  maxSecs := (ss.map (census.seconds now)).foldl max 0
  gpuMaxSecs := ((ss.filter census.isGpu).map (census.seconds now)).foldl max 0
  offenders := (ss.filter (census.isStuck now)).map (census.offender now)

section Pass

variable {census : DStateCensus} {now : ℚ} {ss : List Sleeper} {s : Sleeper} {entries : List ProcEntry}

/-- Whatever has been counted before, a thread is timed by what the census
remembered when the pass began. -/
theorem tally_since_getD (key : TaskKey) :
    ((census.tally now ss).since key).getD now = (census.since key).getD now := by
  simp only [DStateCensus.tally]
  split_ifs <;> rfl

/-- A thread adds to the counts what it would count alone. -/
theorem note_eq {tally : Tally} (hfirst : (tally.since s.key).getD now = (census.since s.key).getD now) :
    census.note now tally s =
      { since := Function.update tally.since s.key (some ((census.since s.key).getD now))
        seen := tally.seen ++ [s.key]
        total := tally.total + 1
        stuck := tally.stuck + [s].countP (census.isStuck now)
        gpuTotal := tally.gpuTotal + [s].countP census.isGpu
        gpuStuck := tally.gpuStuck + [s].countP fun s => census.isStuck now s && census.isGpu s
        wchanDenied := tally.wchanDenied + [s].countP fun s => s.wchan = wchanDenied
        maxSecs := max tally.maxSecs (census.seconds now s)
        gpuMaxSecs := (([s].filter census.isGpu).map (census.seconds now)).foldl max tally.gpuMaxSecs
        offenders := tally.offenders ++ ([s].filter (census.isStuck now)).map (census.offender now) } := by
  have hgpu : census.isGpuTask s.comm s.wchan = census.isGpu s := rfl
  have hsecs : now - (census.since s.key).getD now = census.seconds now s := rfl
  have hstuck : decide (census.stuckSeconds ≤ census.seconds now s) = census.isStuck now s := rfl
  simp only [DStateCensus.note, hfirst, hgpu, hsecs, hstuck]
  cases hs : census.isStuck now s <;> cases hg : census.isGpu s <;>
    simp [DStateCensus.offender, hs, hg]

theorem note_tally : census.note now (census.tally now ss) s = census.tally now (ss ++ [s]) := by
  rw [note_eq (tally_since_getD s.key)]
  apply Tally.ext
  case since =>
    funext key
    by_cases hkey : key = s.key
    · subst hkey
      simp [DStateCensus.tally]
    · simp [DStateCensus.tally, hkey, Ne.symm hkey]
  all_goals simp [DStateCensus.tally, List.countP_append]

/-- The loops of `collect` count the threads in D. -/
theorem scanTask_tally : (entries.filter (isdigit ·.pid)).foldl
    (fun tally process => (iterTasks process).foldl (census.scanTask now process.pid) tally) { since := census.since } =
      census.tally now (sleepersOf entries) := by
  have hturns (process : ProcEntry) (tally : Tally) :
      (iterTasks process).foldl (census.scanTask now process.pid) tally =
        ((iterTasks process).filterMap (sleeper? process.pid)).foldl (census.note now) tally := by
    rw [List.foldl_filterMap]
    refine congrArg (List.foldl · tally (iterTasks process)) (funext₂ fun tally task => ?_)
    unfold DStateCensus.scanTask
    cases sleeper? process.pid task <;> rfl
  have hrun (ss : List Sleeper) : ss.foldl (census.note now) { since := census.since } = census.tally now ss := by
    induction ss using List.reverseRecOn with
    | nil => simp [DStateCensus.tally]
    | append_singleton ss s ih => rw [List.foldl_append, ih, List.foldl_cons, List.foldl_nil, note_tally]
  simp only [hturns]
  rw [← List.foldl_flatMap]
  exact hrun _

/-- What a pass reports of the threads it finds in D. -/
def DStateCensus.report (census : DStateCensus) (now : ℚ) (ss : List Sleeper) : DStateReport where
  total := ss.length
  stuck := ss.countP (census.isStuck now)
  gpuTotal := ss.countP census.isGpu
  gpuStuck := ss.countP fun s => census.isStuck now s && census.isGpu s
  maxSeconds := roundTenth ((ss.map (census.seconds now)).foldl max 0)
  gpuMaxSeconds := roundTenth (((ss.filter census.isGpu).map (census.seconds now)).foldl max 0)
  readable := true
  offenders := (((ss.filter (census.isStuck now)).map (census.offender now)).mergeSort
    fun o o' => o'.seconds ≤ o.seconds).take 20
  wchanDenied := ss.countP fun s => s.wchan = wchanDenied

/-- A pass reports the threads it finds in D, and remembers them alone. -/
theorem collect_ok : census.collect now (.ok entries) = (census.report now (sleepersOf entries),
    { census with since := Window.sight census.since (now, (sleepersOf entries).map Sleeper.key) }) := by
  simp only [DStateCensus.collect, scanTask_tally]
  refine Prod.ext rfl (congrArg (fun since => { census with since }) (funext fun key => ?_))
  simp only [DStateCensus.tally, Window.sight, List.mem_map]
  split_ifs <;> rfl

theorem report_le (ss : List Sleeper) : (census.report now ss).gpuStuck ≤ (census.report now ss).stuck ∧
    (census.report now ss).stuck ≤ (census.report now ss).total ∧
      (census.report now ss).gpuStuck ≤ (census.report now ss).gpuTotal := by
  refine ⟨List.countP_mono_left fun s _ h => ?_, List.countP_le_length, List.countP_mono_left fun s _ h => ?_⟩
  · exact (Bool.and_eq_true_iff.mp h).1
  · exact (Bool.and_eq_true_iff.mp h).2

/-- The offenders listed are threads that are stuck. -/
theorem mem_report_offenders {o : Offender} (h : o ∈ (census.report now ss).offenders) :
    ∃ s ∈ ss, census.isStuck now s = true ∧ o = census.offender now s := by
  obtain ⟨s, hs, rfl⟩ := List.mem_map.mp (List.mem_mergeSort.mp (List.mem_of_mem_take h))
  obtain ⟨hs, hstuck⟩ := List.mem_filter.mp hs
  exact ⟨s, hs, hstuck, rfl⟩

end Pass

/-! ### Runs -/

/-- A call of `collect`: its clock, and what listing /proc gives. -/
structure CensusCall where
  now : ℚ
  proc : Except ProcExc (List ProcEntry)

def CensusCall.listed (call : CensusCall) : Bool := call.proc matches .ok _

def CensusCall.entries (call : CensusCall) : List ProcEntry := call.proc.toOption.getD []

def CensusCall.sleepers (call : CensusCall) : List Sleeper := sleepersOf call.entries

def CensusCall.keys (call : CensusCall) : List TaskKey := call.sleepers.map Sleeper.key

/-- No two threads have the same number. -/
def CensusCall.Distinct (call : CensusCall) : Prop := ((threads call.entries).map TaskEntry.tid).Nodup

/-- The census after some calls. -/
def DStateCensus.collectAll (census : DStateCensus) (calls : List CensusCall) : DStateCensus :=
  calls.foldl (fun census call => (census.collect call.now call.proc).2) census

/-- The calls that could list /proc, with the keys they saw in D. -/
def scans (calls : List CensusCall) : List (Window.Scan TaskKey ℚ) :=
  (calls.filter CensusCall.listed).map fun call => (call.now, call.keys)

/-- How long a key has been seen in D without a break, at a call after others. -/
def secondsInD (history : List CensusCall) (call : CensusCall) (key : TaskKey) : ℚ :=
  call.now - ((Window.streak (scans (history ++ [call])) key).head?.elim call.now Prod.fst)

/-- A call at which the streak of a thread ends: it is not seen in D, or its number
is that of another thread. -/
def CensusCall.Breaks (call : CensusCall) (s : Sleeper) : Prop :=
  s.key ∉ call.keys ∨ ∃ other ∈ call.sleepers, other.tid = s.tid ∧ other.starttime ≠ s.starttime

/-- Where a thread is blocked decides, if that can be told, and otherwise its name. -/
def DStateCensus.GpuTask (census : DStateCensus) (s : Sleeper) : Prop :=
  if s.wchan ≠ [] ∧ s.wchan ≠ wchanDenied then ∃ part ∈ census.gpuWchan, part <:+: s.wchan
  else ∃ start ∈ census.gpuPrefixes, start <+: s.comm

section Runs

variable {census : DStateCensus} {s : Sleeper} {history before later : List CensusCall} {call c : CensusCall}

theorem isGpu_iff : census.isGpu s = true ↔ census.GpuTask s := by
  unfold DStateCensus.isGpu DStateCensus.isGpuTask DStateCensus.GpuTask
  split_ifs <;> simp

instance : DecidablePred census.GpuTask := fun _ => decidable_of_iff _ isGpu_iff

theorem scans_append (calls calls' : List CensusCall) : scans (calls ++ calls') = scans calls ++ scans calls' := by
  simp [scans]

theorem scans_listed (h : call.listed = true) : scans [call] = [(call.now, call.keys)] := by
  simp [scans, h]

theorem collect_listed (census : DStateCensus) (h : call.listed = true) :
    census.collect call.now call.proc = (census.report call.now call.sleepers,
      { census with since := Window.sight census.since (call.now, call.keys) }) := by
  obtain ⟨now, exc | entries⟩ := call
  · cases h
  · exact collect_ok

theorem collectAll_snoc (census : DStateCensus) (calls : List CensusCall) (call : CensusCall) :
    census.collectAll (calls ++ [call]) = ((census.collectAll calls).collect call.now call.proc).2 := by
  simp [DStateCensus.collectAll]

/-- What the census remembers are the first sightings of the run. -/
theorem since_collectAll (hnew : census.since = fun _ => none) (calls : List CensusCall) :
    census.collectAll calls = { census with since := Window.sightings (scans calls) } := by
  induction calls using List.reverseRecOn with
  | nil =>
    obtain ⟨stuckSeconds, gpuPrefixes, gpuWchan, since⟩ := census
    subst hnew
    rfl
  | append_singleton calls call ih =>
    rw [collectAll_snoc, ih, scans_append]
    cases hlisted : call.listed with
    | true => rw [collect_listed _ hlisted, scans_listed hlisted, Window.sightings_snoc]
    | false =>
      obtain ⟨now, exc | entries⟩ := call
      · simp [DStateCensus.collect, scans, CensusCall.listed]
      · cases hlisted

/-- The census times a thread by its streak. -/
theorem seconds_collectAll (hnew : census.since = fun _ => none) (hlisted : call.listed = true)
    (hs : s ∈ call.sleepers) :
    (census.collectAll history).seconds call.now s = secondsInD history call s.key := by
  have hmem : s.key ∈ call.keys := List.mem_map_of_mem hs
  rw [DStateCensus.seconds, since_collectAll hnew, secondsInD, scans_append, scans_listed hlisted,
    Window.streak_snoc_of_mem hmem, List.head?_append]
  simp only [Window.sightings_eq]
  cases (Window.streak (scans history) s.key).head? <;> rfl

/-- What was before a call at which the streak ends does not count. -/
theorem secondsInD_of_notMem (hlisted : c.listed = true) (h : s.key ∉ c.keys) :
    secondsInD (before ++ c :: later) call s.key = secondsInD later call s.key := by
  have hsplit : scans (before ++ c :: later ++ [call]) =
      scans before ++ (c.now, c.keys) :: scans (later ++ [call]) := by
    rw [← List.singleton_append, List.append_assoc, List.append_assoc, scans_append, scans_append, scans_listed hlisted]
    rfl
  rw [secondsInD, hsplit, Window.streak_of_notMem h]
  rfl

/-- A thread that the latest call did not see in D starts from zero. -/
theorem secondsInD_eq_zero (hlisted : call.listed = true) (hs : s ∈ call.sleepers)
    (h : ∀ c ∈ (history.filter CensusCall.listed).getLast?, s.key ∉ c.keys) : secondsInD history call s.key = 0 := by
  have hmem : s.key ∈ call.keys := List.mem_map_of_mem hs
  have hnone : Window.streak (scans history) s.key = [] := by
    unfold scans
    rcases List.eq_nil_or_concat' (history.filter CensusCall.listed) with hnil | ⟨calls, c, hlast⟩
    · rw [hnil]
      rfl
    · rw [hlast, List.map_append]
      exact Window.streak_snoc_of_notMem (h c (by simp [hlast]))
  rw [secondsInD, scans_append, scans_listed hlisted, Window.streak_snoc_of_mem hmem, hnone]
  exact sub_self _

/-! ### Threads that are all different -/

theorem tid_sleepersOf_sublist (entries : List ProcEntry) :
    ((sleepersOf entries).map Sleeper.tid).Sublist ((threads entries).map TaskEntry.tid) := by
  have hturn (pid : String) (tasks : List TaskEntry) :
      ((tasks.filterMap (sleeper? pid)).map Sleeper.tid).Sublist (tasks.map TaskEntry.tid) := by
    induction tasks with
    | nil => exact List.Sublist.refl _
    | cons task tasks ih =>
      cases htask : sleeper? pid task with
      | none =>
        rw [List.filterMap_cons_none htask]
        exact ih.cons _
      | some s =>
        have htid : s.tid = task.tid := by
          unfold sleeper? at htask
          split at htask
          · cases htask
          · split_ifs at htask
            cases htask
            rfl
        rw [List.filterMap_cons_some htask, List.map_cons, List.map_cons, htid]
        exact ih.cons_cons _
  unfold sleepersOf threads
  induction entries.filter (isdigit ·.pid) with
  | nil => exact List.Sublist.refl _
  | cons process processes ih =>
    simp only [List.flatMap_cons, List.map_append]
    exact (hturn process.pid _).append ih

theorem CensusCall.Distinct.tids (h : call.Distinct) : (call.sleepers.map Sleeper.tid).Nodup :=
  (tid_sleepersOf_sublist call.entries).nodup h

theorem CensusCall.Distinct.sleepers (h : call.Distinct) : call.sleepers.Nodup := h.tids.of_map

/-- A thread that has the number of another one is not seen itself. -/
theorem CensusCall.Distinct.notMem_of_breaks (h : c.Distinct) (hbreaks : c.Breaks s) : s.key ∉ c.keys := by
  rcases hbreaks with hout | ⟨other, hother, htid, hstart⟩
  · exact hout
  · intro hkey
    obtain ⟨t, ht, hkey⟩ := List.mem_map.mp hkey
    have heq : t = other := List.inj_on_of_nodup_map h.tids ht hother ((congrArg Prod.fst hkey).trans htid.symm)
    exact hstart (heq ▸ congrArg Prod.snd hkey)

theorem CensusCall.Distinct.card_filter (h : call.Distinct) (p : Sleeper → Prop) [DecidablePred p] :
    (call.sleepers.toFinset.filter p).card = call.sleepers.countP (p ·) := by
  rw [List.countP_eq_length_filter, ← List.toFinset_card_of_nodup (h.sleepers.filter _), List.toFinset_filter]
  simp

/-! ### The census is exact -/

/-- What is reported and remembered at a call, after others: the times are those of
the streaks, and the counts those of the threads in D. -/
structure DStateCensus.Accurate (census : DStateCensus) (history : List CensusCall) (call : CensusCall)
    (report : DStateReport) (since : TaskKey → Option ℚ) : Prop where
  since_isSome : ∀ key, (since key).isSome ↔ ∃ s ∈ call.sleepers.toFinset, s.key = key
  since_eq : ∀ key, since key = (Window.streak (scans (history ++ [call])) key).head?.map Prod.fst
  total : report.total = call.sleepers.toFinset.card
  stuck : report.stuck =
    (call.sleepers.toFinset.filter fun s => census.stuckSeconds ≤ secondsInD history call s.key).card
  gpuTotal : report.gpuTotal = (call.sleepers.toFinset.filter census.GpuTask).card
  gpuStuck : report.gpuStuck = (call.sleepers.toFinset.filter fun s =>
    census.stuckSeconds ≤ secondsInD history call s.key ∧ census.GpuTask s).card
  denied : report.wchanDenied = (call.sleepers.toFinset.filter fun s => s.wchan = wchanDenied).card
  le : report.gpuStuck ≤ report.stuck ∧ report.stuck ≤ report.total ∧ report.gpuStuck ≤ report.gpuTotal
  offender : ∀ o ∈ report.offenders, ∃ s ∈ call.sleepers.toFinset,
    census.stuckSeconds ≤ secondsInD history call s.key ∧ o.tid = decimal s.tid.toList ∧
      o.seconds = roundTenth (secondsInD history call s.key)
  breaks : ∀ before c later, history = before ++ c :: later → c.listed = true → ∀ s ∈ call.sleepers.toFinset,
    c.Breaks s → secondsInD history call s.key = secondsInD later call s.key
  zero : ∀ s ∈ call.sleepers.toFinset, (∀ c ∈ (history.filter CensusCall.listed).getLast?, c.Breaks s) →
    secondsInD history call s.key = 0

theorem isStuck_collectAll_iff (hnew : census.since = fun _ => none) (hlisted : call.listed = true)
    (hs : s ∈ call.sleepers) : (census.collectAll history).isStuck call.now s = true ↔
      census.stuckSeconds ≤ secondsInD history call s.key := by
  have hstuck : (census.collectAll history).stuckSeconds = census.stuckSeconds := by
    rw [since_collectAll hnew]
  rw [DStateCensus.isStuck, decide_eq_true_iff, seconds_collectAll hnew hlisted hs, hstuck]

theorem isGpu_collectAll_iff (hnew : census.since = fun _ => none) :
    (census.collectAll history).isGpu s = true ↔ census.GpuTask s := by
  rw [since_collectAll hnew]
  exact isGpu_iff

end Runs

instance (call : CensusCall) : Decidable call.Distinct := inferInstanceAs (Decidable (List.Nodup _))

/-- The files of a thread that is blocked in the driver. -/
def blockedStat (tid starttime : String) : List UInt8 :=
  ascii s!"{tid} (llama-server) D 1 1 1 0 -1 0 0 0 0 0 0 0 0 0 20 0 1 0 {starttime} 0 0"

def blockedWchan : List UInt8 := ascii "dma_fence_wait_any_timeout"

def driverCensus : DStateCensus where
  stuckSeconds := 60
  gpuPrefixes := ["kworker/u26".toList]
  gpuWchan := ["dma_fence".toList, "amdgpu".toList]

/-- /proc with one thread, blocked since it was seen first. -/
def blockedCall (now : ℚ) : CensusCall := ⟨now, .ok [⟨"7", .ok [⟨"7", .ok (blockedStat "7" "100"), .ok blockedWchan⟩]⟩]⟩

example : ((driverCensus.collectAll [blockedCall 0, ⟨30, .error .permission⟩]).collect 60
    (blockedCall 60).proc).1.gpuStuck = 1 := by decide +kernel

end GpuNodeHealth.Agent
