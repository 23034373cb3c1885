import GpuNodeHealth.Agent.Census

/-! Threads the census may not read. What it is refused, a process's list of threads
or the state of a thread, it passes over as it does what has exited: the report is
that of a /proc without the thread, and nothing in it tells that something is
missing. -/

namespace GpuNodeHealth.Agent

open Text
open Guard (roundTenth)

/-! ### What there is, and what can be read -/

/-- A thread with what its files hold. -/
structure Thread where
  tid : String
  stat : List UInt8
  wchan : List UInt8

/-- An entry of /proc with its threads. -/
structure ThreadGroup where
  pid : String
  threads : List Thread

/-- Which reads fail, and how. -/
structure ProcFaults where
  root : Option ProcExc := none
  task : String → Option ProcExc := fun _ => none
  stat : String → String → Option ProcExc := fun _ _ => none
  wchan : String → String → Option ProcExc := fun _ _ => none

def attempt {α : Type} (fault : Option ProcExc) (value : α) : Except ProcExc α := fault.elim (.ok value) .error

def ProcFaults.taskEntry (faults : ProcFaults) (pid : String) (thread : Thread) : TaskEntry where
  tid := thread.tid
  stat := attempt (faults.stat pid thread.tid) thread.stat
  wchan := attempt (faults.wchan pid thread.tid) thread.wchan

def ProcFaults.procEntry (faults : ProcFaults) (group : ThreadGroup) : ProcEntry where
  pid := group.pid
  task := attempt (faults.task group.pid) (group.threads.map (faults.taskEntry group.pid))

/-- What reading /proc gives. -/
def ProcFaults.view (faults : ProcFaults) (content : List ThreadGroup) : Except ProcExc (List ProcEntry) :=
  attempt faults.root (content.map faults.procEntry)

/-- The thread is in state D. -/
def Thread.InD (thread : Thread) : Prop := ∃ info, readStat (.ok thread.stat) = some info ∧ info.state = ['D']

/-- A read of the thread fails for want of permission. -/
def ProcFaults.Denies (faults : ProcFaults) (pid tid : String) : Prop :=
  faults.task pid = some .permission ∨ faults.stat pid tid = some .permission

/-- A thread that is in D, and that the census may not read although it can list
/proc. -/
structure Hidden (content : List ThreadGroup) (faults : ProcFaults) (pid tid : String) : Prop where
  listed : faults.root = none
  inD : ∃ group ∈ content, group.pid = pid ∧ ∃ thread ∈ group.threads, thread.tid = tid ∧ thread.InD
  denied : faults.Denies pid tid

def ThreadGroup.without (group : ThreadGroup) (tid : String) : ThreadGroup :=
  { group with threads := group.threads.filter fun thread => thread.tid ≠ tid }

/-- The same /proc without a thread; without its last thread a process is gone. -/
def without (content : List ThreadGroup) (pid tid : String) : List ThreadGroup :=
  content.filterMap fun group =>
    if group.pid ≠ pid then some group
    else if (group.without tid).threads.isEmpty then none
    else some (group.without tid)

/-! ### What is hidden is not missed -/

variable {census : DStateCensus} {now : ℚ} {content : List ThreadGroup} {faults : ProcFaults} {group : ThreadGroup}
  {pid tid : String}

/-- What the census finds of a thread. -/
def ProcFaults.finds (faults : ProcFaults) (pid : String) (thread : Thread) : Option Sleeper :=
  if isdigit thread.tid then sleeper? pid (faults.taskEntry pid thread) else none

/-- What it finds of a process. -/
def ProcFaults.found (faults : ProcFaults) (group : ThreadGroup) : List Sleeper :=
  if isdigit group.pid ∧ faults.task group.pid = none then group.threads.filterMap (faults.finds group.pid) else []

theorem sleepersOf_view (content : List ThreadGroup) :
    sleepersOf (content.map faults.procEntry) = content.flatMap faults.found := by
  have hgroup (group : ThreadGroup) : (iterTasks (faults.procEntry group)).filterMap (sleeper? group.pid) =
      if faults.task group.pid = none then group.threads.filterMap (faults.finds group.pid) else [] := by
    cases htask : faults.task group.pid with
    | some exc => simp [iterTasks, ProcFaults.procEntry, attempt, htask]
    | none =>
      simp only [iterTasks, ProcFaults.procEntry, attempt, htask, Option.elim_none, List.filterMap_filter,
        List.filterMap_map, if_true]
      rfl
  unfold sleepersOf
  induction content with
  | nil => rfl
  | cons group content ih =>
    rw [List.map_cons, List.flatMap_cons, ← ih, ProcFaults.found]
    by_cases hdigit : isdigit group.pid = true
    · rw [List.filter_cons_of_pos (by exact hdigit), List.flatMap_cons]
      simp only [hdigit, true_and]
      exact congrArg (· ++ _) (hgroup group)
    · rw [List.filter_cons_of_neg (by exact hdigit), if_neg fun h => hdigit h.1]
      rfl

theorem finds_of_stat {thread : Thread} {exc : ProcExc} (h : faults.stat pid thread.tid = some exc) :
    faults.finds pid thread = none := by
  have hread : readStat (faults.taskEntry pid thread).stat = none := by
    simp [ProcFaults.taskEntry, attempt, h, readStat]
  simp [ProcFaults.finds, sleeper?, hread]

/-- Without a thread it may not read, the census finds the same of a process. -/
theorem found_without (h : faults.Denies group.pid tid) : faults.found (group.without tid) = faults.found group := by
  unfold ProcFaults.found
  rcases h with htask | hstat
  · simp [ThreadGroup.without, htask]
  · have hsame : (group.without tid).threads.filterMap (faults.finds group.pid) =
        group.threads.filterMap (faults.finds group.pid) := by
      rw [ThreadGroup.without, List.filterMap_filter]
      refine List.filterMap_congr fun thread _ => ?_
      by_cases htid : thread.tid = tid
      · subst htid
        simp [finds_of_stat hstat]
      · simp [htid]
    have hpid : (group.without tid).pid = group.pid := rfl
    simp only [hpid, hsame]

theorem found_flatMap_without (h : faults.Denies pid tid) :
    (without content pid tid).flatMap faults.found = content.flatMap faults.found := by
  induction content with
  | nil => rfl
  | cons group content ih =>
    have hwithout : without (group :: content) pid tid = without [group] pid tid ++ without content pid tid := by
      simp [without, ← List.filterMap_append]
    rw [hwithout, List.flatMap_append, ih, List.flatMap_cons]
    congr 1
    by_cases hpid : group.pid = pid
    · subst hpid
      rw [← found_without h]
      by_cases hempty : (group.without tid).threads = []
      · simp [without, hempty, ProcFaults.found]
      · simp [without, hempty]
    · simp [without, hpid]

/-- The census goes by what it finds, and by nothing else. -/
theorem collect_view (hroot : faults.root = none) (content : List ThreadGroup) :
    census.collect now (faults.view content) = (census.report now (content.flatMap faults.found),
      { census with since := Window.sight census.since (now, (content.flatMap faults.found).map Sleeper.key) }) := by
  rw [ProcFaults.view, attempt, hroot, Option.elim_none, collect_ok, sleepersOf_view]

theorem found_eq_nil (h : ∀ thread ∈ group.threads, faults.Denies group.pid thread.tid) : faults.found group = [] := by
  unfold ProcFaults.found
  split_ifs with hread
  · refine List.filterMap_eq_nil_iff.mpr fun thread hthread => ?_
    rcases h thread hthread with htask | hstat
    · simp [htask] at hread
    · exact finds_of_stat hstat
  · rfl

/-- What the census may not read makes no difference to it, up to a /proc where it
may read nothing: that one is reported as readable and without a thread in D. -/
theorem hidden_unseen : (∀ pid tid, Hidden content faults pid tid →
      census.collect now (faults.view content) = census.collect now (faults.view (without content pid tid))) ∧
    (faults.root = none → (∀ group ∈ content, ∀ thread ∈ group.threads, faults.Denies group.pid thread.tid) →
      (census.collect now (faults.view content)).1 = { readable := true }) := by
  constructor
  · intro pid tid h
    rw [collect_view h.listed, collect_view h.listed, found_flatMap_without h.denied]
  · intro hroot hdenied
    have hnone : content.flatMap faults.found = [] :=
      List.flatMap_eq_nil_iff.mpr fun group hgroup => found_eq_nil (hdenied group hgroup)
    have hzero : roundTenth 0 = 0 := by decide +kernel
    rw [collect_view hroot, hnone]
    simp [DStateCensus.report, hzero]

/-- A process whose one thread is blocked in the driver. -/
def blockedGroup : ThreadGroup := ⟨"7", [⟨"7", blockedStat "7" "100", blockedWchan⟩]⟩

/-- The state of the thread may not be read. -/
def deniedStat : ProcFaults where
  stat := fun _ _ => some .permission

theorem blockedGroup_hidden : Hidden [blockedGroup] deniedStat "7" "7" where
  listed := rfl
  inD := ⟨blockedGroup, List.mem_singleton_self _, rfl, _, List.mem_singleton_self _, rfl,
    ⟨"llama-server".toList, ['D'], 100⟩, by decide +kernel, rfl⟩
  denied := .inr rfl

theorem hidden_unseen_blocked :
    driverCensus.collect 60 (deniedStat.view [blockedGroup]) =
        driverCensus.collect 60 (deniedStat.view (without [blockedGroup] "7" "7")) ∧
      (driverCensus.collect 60 (deniedStat.view [blockedGroup])).1 = { readable := true } :=
  ⟨hidden_unseen.1 "7" "7" blockedGroup_hidden, hidden_unseen.2 rfl fun _ _ _ _ => .inr rfl⟩

/-- A thread that is stuck, and the report of a healthy node. -/
theorem hidden_all_clear : ¬∀ (census : DStateCensus) (now : ℚ) (content : List ThreadGroup) (faults : ProcFaults)
    (pid tid : String), Hidden content faults pid tid →
      (census.collect now (faults.view content)).1 ≠
        (census.collect now (faults.view (without content pid tid))).1 := by
  intro h
  refine h driverCensus 60 [blockedGroup] deniedStat "7" "7" blockedGroup_hidden ?_
  decide +kernel

end GpuNodeHealth.Agent
