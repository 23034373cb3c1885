import GpuNodeHealth.Agent.LogRuns
import GpuNodeHealth.Files.Unread
import GpuNodeHealth.Interaction.Processes

/-! One path among those the watcher follows, with the books on it. As long as no
file has to be opened again in vain the watcher lives and tells how each pump
went; and what it matched at the path are the lines the books say are due. A
file that cannot be opened again leaves a closed one behind, which the next pump
stumbles over. -/

namespace GpuNodeHealth.Agent

open Files Text Interaction

/-- The watcher's world, the books on one path, and how its latest pump went. -/
structure Followed where
  world : LogWorld
  ledger : Ledger := {}
  latest : Option Bool := none

/-- A pump gets at the file of a path: the file is there, nothing denies looking it
up, nor opening it if it is new to the reader. -/
def Finds (fs : FileSystem) (path : String) (ledger : Ledger) (faults : Faults) : Prop :=
  faults.stat = none ∧ (ledger.following = false → faults.openFile = none) ∧ (fs.current path).isSome = true

instance (fs : FileSystem) (path : String) (ledger : Ledger) (faults : Faults) :
    Decidable (Finds fs path ledger faults) :=
  inferInstanceAs (Decidable (_ ∧ _ ∧ _))

def Followed.step (path : String) (f : Followed) (step : LogStep) : Followed where
  world := f.world.step step
  ledger := match step with
    | .file e => if e.path = path then f.ledger.record (f.world.fs.current path).isSome e else f.ledger
    | .pump p _ faults =>
      if p = path ∧ Finds f.world.fs path f.ledger faults then f.ledger.catchUp else f.ledger
  latest := match step with
    | .file _ => f.latest
    | .pump p now faults => if p = path then some (f.world.pumpSucceeds path now faults) else f.latest

def Followed.start (fs : FileSystem) (paths : List String) : Followed where
  world := .start fs paths

def Followed.run (path : String) (f : Followed) (steps : List LogStep) : Followed := steps.foldl (Followed.step path) f

/-- Every step of a run meets a condition. -/
abbrev Followed.Along (path : String) (Q : Followed → LogStep → Prop) (f : Followed) (steps : List LogStep) : Prop :=
  Interaction.Along (fun f step => some (f.step path step)) Q f steps

/-- The lines matched at a path. -/
def LogWorld.matchedAt (w : LogWorld) (path : String) : List (List UInt8) :=
  w.matched.filterMap fun (p, line) => if p = path then some line else none

/-- A file that has been rotated away or cut is not denied when it is opened again. -/
def LogWorld.Reopens (w : LogWorld) : LogStep → Prop
  | .file _ => True
  | .pump path _ faults => faults.stat = none → ∀ fh ∈ w.watcher.handles path, ∀ file ∈ w.fs.current path,
    fh.file ≠ file ∨ (w.fs.content file).length < fh.pos → faults.openFile = none

/-- Between two pumps that find the path there is one rotation at most, or cuts
only; and a file that was cut is then still shorter than what was read of it. -/
def Followed.Paced (path : String) (f : Followed) : LogStep → Prop
  | .file e => e.path = path → f.ledger.Permits e
  | .pump p _ faults => p = path → faults.stat = none → f.ledger.truncated = true →
    ∀ fh ∈ f.world.watcher.handles path, ∀ file ∈ f.world.fs.current path,
      (f.world.fs.content file).length < fh.pos

/-- No call of a pump fails but for want of a file. -/
def LogStep.Undenied : LogStep → Prop
  | .file _ => True
  | .pump _ _ faults => faults = {}

instance (w : LogWorld) : (step : LogStep) → Decidable (w.Reopens step)
  | .file _ => inferInstanceAs (Decidable True)
  | .pump .. => inferInstanceAs (Decidable (_ → ∀ fh ∈ _, ∀ file ∈ _, _))

instance (path : String) (f : Followed) : (step : LogStep) → Decidable (f.Paced path step)
  | .file _ => inferInstanceAs (Decidable (_ → _))
  | .pump .. => inferInstanceAs (Decidable (_ → _ → _ → ∀ fh ∈ _, ∀ file ∈ _, _))

variable {f : Followed} {w : LogWorld} {fs : FileSystem} {paths : List String} {path : String} {faults : Faults}
  {fh : Handle} {before : Option Handle} {p : Pumping} {ledger : Ledger} {l : LogStep} {steps : List LogStep}

/-! ### At the path -/

/-- Just read to its end, a file has nothing left. -/
theorem agrees_read {file : FileId} (hfile : fs.current path = some file) (due : List Line) :
    Ledger.Agrees { following := true, due } fs path ⟨file, (fs.content file).length, false⟩ := by
  obtain ⟨hhome, hserial⟩ := fs.named path file hfile
  refine ⟨rfl, ⟨hhome, hserial⟩, .same ?_ le_rfl ?_⟩
  · intro f hf
    exact Option.some.inj (hf.symm.trans hfile)
  · rw [List.drop_length, written_nil]

/-- A pump that comes to nothing without closing a file leaves all as it was. -/
theorem Pumped.fails (hp : Pumped fs path faults before p) (hok : p.ok = false)
    (hopened : ∀ fh ∈ p.handle, fh.closed = false) : p.lines = [] ∧ p.handle = before := by
  cases hp with
  | unstattable => exact ⟨rfl, rfl⟩
  | unopened => exact ⟨rfl, rfl⟩
  | shut => cases hopened _ rfl
  | _ => cases hok

/-- The first pump that succeeds skips the backlog. -/
theorem Pumped.skips (hp : Pumped fs path faults none p) (hok : p.ok = true) :
    p.lines = [] ∧ ∃ fh', p.handle = some fh' ∧ Ledger.Agrees { following := true } fs path fh' := by
  cases hp with
  | unstattable => cases hok
  | unopened => cases hok
  | first hstat hopen => exact ⟨rfl, _, rfl, agrees_read (lookUp_ok.mp hstat).2 _⟩

/-- A pump that succeeds on a file already open reads what is pending. -/
theorem Pumped.reads (hp : Pumped fs path faults (some fh) p) (hok : p.ok = true)
    (hagrees : ledger.Agrees fs path fh)
    (hcut : ledger.truncated = true → ∀ file ∈ fs.current path, (fs.content file).length < fh.pos) :
    p.lines = ledger.pending.map Line.bytes ∧ ∃ fh', p.handle = some fh' ∧ ledger.catchUp.Agrees fs path fh' := by
  obtain ⟨following, due, pending, rotated, truncated⟩ := ledger
  obtain ⟨-, -, hunread⟩ := hagrees
  cases hp with
  | unstattable => cases hok
  | shut => cases hok
  | same hclosed hstat hpos =>
    have hcurrent := (lookUp_ok.mp hstat).2
    refine ⟨?_, _, rfl, agrees_read hcurrent _⟩
    cases hunread with
    | same _ _ hrest => rw [hrest, lines_written]
    | rotated hnames _ _ hne => exact absurd (hnames _ hcurrent) hne
    | truncated => exact absurd (hcut rfl _ hcurrent) (not_lt.mpr hpos)
  | rotated hclosed hstat hne hopen =>
    have hcurrent := (lookUp_ok.mp hstat).2
    refine ⟨?_, _, rfl, agrees_read hcurrent _⟩
    cases hunread with
    | same hnames => exact absurd (hnames _ hcurrent).symm hne
    | rotated hnames _ _ _ hrest hnew =>
      obtain rfl := hnames _ hcurrent
      rw [hrest, hnew, lines_written, lines_written]
      exact List.map_append.symm
    | truncated hnames => exact absurd (hnames _ hcurrent).symm hne
  | truncated hclosed hstat hpos hopen =>
    have hcurrent := (lookUp_ok.mp hstat).2
    refine ⟨?_, _, rfl, agrees_read hcurrent _⟩
    cases hunread with
    | same _ hle => exact absurd hle (not_le.mpr hpos)
    | rotated hnames _ _ hne => exact absurd (hnames _ hcurrent) hne
    | truncated _ hnew => rw [hnew, lines_written]

/-! ### Runs -/

/-- What the watcher keeps as long as no file is opened again in vain. -/
structure LogWorld.Sound (w : LogWorld) : Prop where
  alive : w.alive = true
  fromStart : w.watcher.fromStart = false
  opened : ∀ q, ∀ fh ∈ w.watcher.handles q, fh.closed = false

/-- The pump of a watcher in order is one of the cases, and none that closes a file. -/
theorem LogWorld.Sound.pump_cases (hsound : w.Sound) (now : ℚ) (hreopens : w.Reopens (.pump path now faults)) :
    ∃ p, Pumped w.fs path faults (w.watcher.handles path) p ∧ p.ok = w.pumpSucceeds path now faults ∧
      (∀ fh ∈ p.handle, fh.closed = false) ∧ w.step (.pump path now faults) =
        { fs := w.fs, watcher := w.watcher.pumped path now p
          matched := w.matched ++ p.lines.map fun line => (path, line) } := by
  rw [LogWorld.step, if_pos hsound.alive]
  rcases Agent.pump_cases hsound.fromStart path now faults with
    ⟨fh, file, hfh, hclosed, -, -⟩ | ⟨p, hp, hok, hpump⟩
  · rw [hsound.opened path fh hfh] at hclosed
    cases hclosed
  · refine ⟨p, hp, hok, ?_, hpump⟩
    intro fh hfh
    generalize hbefore : w.watcher.handles path = before at hp
    cases hp with
    | unstattable => exact hsound.opened path fh (hbefore.trans hfh)
    | unopened => cases hfh
    | shut hstat hchanged hopen =>
      obtain ⟨hstat, hcurrent⟩ := lookUp_ok.mp hstat
      have hnone := hreopens hstat _ hbefore _ hcurrent hchanged
      rw [lookUp_ok.mpr ⟨hnone, hcurrent⟩] at hopen
      cases hopen
    | _ =>
      cases hfh
      rfl

theorem LogWorld.Sound.start : (LogWorld.start fs paths).Sound :=
  ⟨rfl, rfl, fun _ _ h => (Option.not_mem_none _ h).elim⟩

theorem LogWorld.Sound.step (hsound : w.Sound) (hreopens : w.Reopens l) : (w.step l).Sound := by
  cases l with
  | file e => exact ⟨hsound.alive, hsound.fromStart, hsound.opened⟩
  | pump q now faults =>
    obtain ⟨p, hp, hok, hopened, hpump⟩ := hsound.pump_cases now hreopens
    rw [hpump]
    refine ⟨rfl, (matchAll_rest _).2.2.trans hsound.fromStart, fun r fh hfh => ?_⟩
    by_cases hr : r = q
    · subst hr
      rw [pumped_handles] at hfh
      exact hopened fh hfh
    · rw [(pumped_of_ne hr p).1] at hfh
      exact hsound.opened r fh hfh

/-- Looking up what is there fails only if it is denied. -/
theorem lookUp_missing {denied : Option Denial} {exc : FileExc} (h : lookUp fs denied path = .error exc)
    (hdenied : denied = none) : (fs.current path).isSome = false := by
  cases hcurrent : fs.current path with
  | none => rfl
  | some file =>
    rw [lookUp_ok.mpr ⟨hdenied, hcurrent⟩] at h
    cases h

/-- A pump succeeds iff it finds the path, and leaves it with a handle if so. -/
theorem Pumped.ok_iff (hp : Pumped fs path faults before p) (hopened : ∀ fh ∈ p.handle, fh.closed = false)
    (hfollowing : ledger.following = before.isSome) : (p.ok = true ↔ Finds fs path ledger faults) ∧
      p.handle.isSome = (before.isSome || p.ok) := by
  have hfound : ∀ {fh : Handle} {file : FileId}, lookUp fs faults.stat path = .ok file →
      ledger.following = (some fh).isSome → Finds fs path ledger faults := by
    intro fh file hstat hfollowing
    obtain ⟨hstat, hcurrent⟩ := lookUp_ok.mp hstat
    exact ⟨hstat, fun hnew => by simp [hnew] at hfollowing, by rw [hcurrent]; rfl⟩
  cases hp with
  | unstattable hstat =>
    refine ⟨⟨nofun, fun ⟨hnone, _, hthere⟩ => ?_⟩, by simp⟩
    rw [lookUp_missing hstat hnone] at hthere
    cases hthere
  | unopened hopen =>
    refine ⟨⟨nofun, fun ⟨_, hnone, hthere⟩ => ?_⟩, rfl⟩
    rw [lookUp_missing hopen (hnone hfollowing)] at hthere
    cases hthere
  | first hstat hopen =>
    obtain ⟨hstat, hcurrent⟩ := lookUp_ok.mp hstat
    exact ⟨⟨fun _ => ⟨hstat, fun _ => (lookUp_ok.mp hopen).1, by rw [hcurrent]; rfl⟩, fun _ => rfl⟩, rfl⟩
  | same _ hstat => exact ⟨⟨fun _ => hfound hstat hfollowing, fun _ => rfl⟩, rfl⟩
  | rotated _ hstat => exact ⟨⟨fun _ => hfound hstat hfollowing, fun _ => rfl⟩, rfl⟩
  | truncated _ hstat => exact ⟨⟨fun _ => hfound hstat hfollowing, fun _ => rfl⟩, rfl⟩
  | shut => cases hopened _ rfl

theorem record_following (present : Bool) (e : FileEvent) : (ledger.record present e).following = ledger.following := by
  unfold Ledger.record
  cases e <;> split_ifs <;> rfl

/-- The books are kept as long as the path has a handle, and the watcher tells how
its latest pump went. -/
structure Followed.Sound (path : String) (f : Followed) : Prop where
  world : f.world.Sound
  following : f.ledger.following = (f.world.watcher.handles path).isSome
  ok : f.world.watcher.filesOk path = f.latest

theorem Followed.Sound.start : (Followed.start fs paths).Sound path := ⟨LogWorld.Sound.start, rfl, rfl⟩

theorem Followed.Sound.step (hsound : f.Sound path) (hreopens : f.world.Reopens l) :
    (f.step path l).Sound path := by
  suffices hkept : (f.step path l).ledger.following = ((f.step path l).world.watcher.handles path).isSome ∧
      (f.step path l).world.watcher.filesOk path = (f.step path l).latest from
    ⟨hsound.world.step hreopens, hkept.1, hkept.2⟩
  cases l with
  | file e =>
    refine ⟨?_, hsound.ok⟩
    simp only [Followed.step]
    split_ifs
    · rw [record_following, hsound.following]
      rfl
    · exact hsound.following
  | pump q now faults =>
    obtain ⟨p, hp, hok, hopened, hpump⟩ := hsound.world.pump_cases now hreopens
    have hworld : (f.step path (.pump q now faults)).world = _ := hpump
    rw [hworld]
    by_cases hq : q = path
    · subst hq
      obtain ⟨hfinds, hhandle⟩ := hp.ok_iff hopened hsound.following
      refine ⟨?_, by simp [Followed.step, hok]⟩
      simp only [Followed.step, pumped_handles, hhandle, true_and, ← hfinds]
      cases hpok : p.ok with
      | true => simp [Ledger.catchUp]
      | false => simp [hsound.following]
    · simp only [Followed.step, pumped_of_ne (Ne.symm hq) p, hq, false_and, if_false]
      exact ⟨hsound.following, hsound.ok⟩

/-- What was matched at the path is what is due, and the books agree with the handle. -/
def Followed.Balanced (path : String) (f : Followed) : Prop :=
  f.world.matchedAt path = f.ledger.due.map Line.bytes ∧ match f.world.watcher.handles path with
    | none => f.ledger = {}
    | some fh => f.ledger.Agrees f.world.fs path fh

theorem record_due (present : Bool) (e : FileEvent) : (ledger.record present e).due = ledger.due := by
  unfold Ledger.record
  cases e <;> split_ifs <;> rfl

theorem matchedAt_append (fs : FileSystem) (watcher : KernelLogWatcher) (alive : Bool)
    (matched : List (String × List UInt8)) (q : String) (ls : List (List UInt8)) :
    (LogWorld.mk fs watcher alive (matched ++ ls.map fun line => (q, line))).matchedAt path =
      (LogWorld.mk fs watcher alive matched).matchedAt path ++ if q = path then ls else [] := by
  simp only [LogWorld.matchedAt, List.filterMap_append, List.filterMap_map]
  congr 1
  by_cases hq : q = path
  · simp [hq]
  · simp [hq]

theorem Followed.Balanced.start : (Followed.start fs paths).Balanced path := ⟨rfl, rfl⟩

theorem Followed.Balanced.file (hbalanced : f.Balanced path) {e : FileEvent} (hpaced : f.Paced path (.file e)) :
    (f.step path (.file e)).Balanced path := by
  obtain ⟨hmatched, hbooks⟩ := hbalanced
  have hdue : (f.step path (.file e)).ledger.due = f.ledger.due := by
    simp only [Followed.step]
    split_ifs
    · rw [record_due]
    · rfl
  refine ⟨hdue ▸ hmatched, ?_⟩
  change match f.world.watcher.handles path with
    | none => (f.step path (.file e)).ledger = {}
    | some fh => (f.step path (.file e)).ledger.Agrees (f.world.fs.apply e) path fh
  cases hhandle : f.world.watcher.handles path with
  | none =>
    rw [hhandle] at hbooks
    simp only [Followed.step]
    rw [show f.ledger = {} from hbooks]
    split_ifs <;> rfl
  | some fh =>
    rw [hhandle] at hbooks
    by_cases he : e.path = path
    · simp only [Followed.step, he, if_true]
      exact Ledger.Agrees.record hbooks he (hpaced he)
    · simp only [Followed.step, he, if_false]
      exact Ledger.Agrees.other hbooks he

theorem Followed.Balanced.pump (hbalanced : f.Balanced path) (hsound : f.Sound path) {q : String} {now : ℚ}
    (hreopens : f.world.Reopens (.pump q now faults)) (hpaced : f.Paced path (.pump q now faults)) :
    (f.step path (.pump q now faults)).Balanced path := by
  obtain ⟨hmatched, hbooks⟩ := hbalanced
  obtain ⟨p, hp, -, hopened, hpump⟩ := hsound.world.pump_cases now hreopens
  have hworld : (f.step path (.pump q now faults)).world = _ := hpump
  rw [Followed.Balanced, hworld, matchedAt_append]
  by_cases hq : q = path
  · subst hq
    have hfinds := (hp.ok_iff hopened hsound.following).1
    simp only [Followed.step, pumped_handles, true_and, if_true, ← hfinds]
    cases hok : p.ok with
    | false =>
      obtain ⟨hlines, hhandle⟩ := hp.fails hok hopened
      simp only [Bool.false_eq_true, if_false, hlines, List.append_nil, hhandle]
      exact ⟨hmatched, hbooks⟩
    | true =>
      simp only [if_true]
      cases hhandle : f.world.watcher.handles q with
      | none =>
        rw [hhandle] at hp hbooks
        obtain ⟨hlines, fh', hfh', hagrees⟩ := hp.skips hok
        rw [show f.ledger = {} from hbooks] at hmatched ⊢
        simp only [hlines, List.append_nil, hfh']
        exact ⟨hmatched, hagrees⟩
      | some fh =>
        rw [hhandle] at hp hbooks
        have hcut := fun h => hpaced rfl (hfinds.mp hok).1 h fh hhandle
        obtain ⟨hlines, fh', hfh', hagrees⟩ := hp.reads hok hbooks hcut
        simp only [hlines, hfh', Ledger.catchUp, List.map_append]
        exact ⟨congrArg (· ++ _) hmatched, hagrees⟩
  · simp only [Followed.step, (pumped_of_ne (Ne.symm hq) p).1, hq, false_and, if_false, List.append_nil]
    exact ⟨hmatched, hbooks⟩

theorem run_sound (hreopens : Followed.Along path (·.world.Reopens) (.start fs paths) steps) :
    ((Followed.start fs paths).run path steps).Sound path :=
  foldl_invariant (fun _ _ hsound hcond => hsound.step hcond) .start hreopens

theorem run_balanced (hreopens : Followed.Along path (·.world.Reopens) (.start fs paths) steps)
    (hpaced : Followed.Along path (Followed.Paced path) (.start fs paths) steps) :
    ((Followed.start fs paths).run path steps).Balanced path := by
  have hboth : ∀ (f : Followed) (l : LogStep), f.Sound path ∧ f.Balanced path → f.world.Reopens l ∧ f.Paced path l →
      (f.step path l).Sound path ∧ (f.step path l).Balanced path := by
    rintro f l ⟨hsound, hbalanced⟩ ⟨hreopens, hpaced⟩
    refine ⟨hsound.step hreopens, ?_⟩
    cases l with
    | file e => exact hbalanced.file hpaced
    | pump q now faults => exact hbalanced.pump hsound hreopens hpaced
  exact (foldl_invariant hboth ⟨.start, .start⟩ (hreopens.and hpaced)).2

theorem run_world (f : Followed) : (f.run path steps).world = f.world.run steps := by
  induction steps generalizing f with
  | nil => rfl
  | cons l rest ih => exact ih (f.step path l)

theorem run_tally : ∀ rule, ((Followed.start fs paths).run path steps).world.watcher.counts rule =
    tally (((Followed.start fs paths).run path steps).world.matched.map Prod.snd) rule := by
  rw [run_world]
  exact (run_counts fs paths steps).2

theorem undenied_reopens (hl : l.Undenied) : w.Reopens l := by
  cases l with
  | file e => trivial
  | pump q now faults =>
    obtain rfl : faults = {} := hl
    exact fun _ _ _ _ _ _ => rfl

theorem along_reopens (hundenied : ∀ l ∈ steps, l.Undenied) (f : Followed) :
    Followed.Along path (·.world.Reopens) f steps := by
  induction steps generalizing f with
  | nil => trivial
  | cons l rest ih =>
    obtain ⟨hl, hrest⟩ := List.forall_mem_cons.mp hundenied
    exact ⟨undenied_reopens hl, fun u _ => ih hrest u⟩

/-- Following a log exactly once: what was matched at a path are the lines that
were appended since the first pump that found it, up to the latest one, and that
no cut destroyed unread; and every line matched counts under its rule. -/
theorem lines_counted_once (hundenied : ∀ l ∈ steps, l.Undenied)
    (hpaced : Followed.Along path (Followed.Paced path) (.start fs paths) steps) :
    ((Followed.start fs paths).run path steps).world.matchedAt path =
        ((Followed.start fs paths).run path steps).ledger.due.map Line.bytes ∧
      ∀ rule, ((Followed.start fs paths).run path steps).world.watcher.counts rule =
        tally (((Followed.start fs paths).run path steps).world.matched.map Prod.snd) rule :=
  ⟨(run_balanced (along_reopens hundenied _) hpaced).1, run_tally⟩

def ringLine : Line := ⟨ascii "ring gfx timeout", by decide +kernel⟩

def kernLog : FileSystem := (FileSystem.empty.rotate "kern.log").apply (.append "kern.log" [ringLine])

/-- A line comes before a rotation and one after it. -/
def rotatedOnce : List LogStep :=
  [.pump "kern.log" 0 {}, .file (.append "kern.log" [ringLine]), .file (.rotate "kern.log"),
    .file (.append "kern.log" [ringLine]), .pump "kern.log" 1 {}]

theorem lines_counted_rotated :
    ((Followed.start kernLog ["kern.log"]).run "kern.log" rotatedOnce).world.matchedAt "kern.log" =
      [ringLine.bytes, ringLine.bytes] := by
  have hcounted := @lines_counted_once kernLog ["kern.log"] "kern.log" rotatedOnce
    (by simp [rotatedOnce, LogStep.Undenied]) (by decide +kernel)
  exact hcounted.1.trans (by decide +kernel)

/-- The watcher outlives its files: as long as none that it has had open is denied
when it has to be opened again, its thread goes on, it tells how the latest pump
of the path went, and a pump succeeds once the path can be opened. The lines
appended since then are matched as long as rotations and cuts are paced. -/
theorem watcher_outlives (hreopens : Followed.Along path (·.world.Reopens) (.start fs paths) steps) :
    ((Followed.start fs paths).run path steps).world.alive = true ∧
      ((Followed.start fs paths).run path steps).world.watcher.filesOk path =
        ((Followed.start fs paths).run path steps).latest ∧
      (∀ now, (((Followed.start fs paths).run path steps).world.fs.current path).isSome = true →
        ((Followed.start fs paths).run path steps).world.pumpSucceeds path now {} = true) ∧
      (Followed.Along path (Followed.Paced path) (.start fs paths) steps →
        ((Followed.start fs paths).run path steps).world.matchedAt path =
            ((Followed.start fs paths).run path steps).ledger.due.map Line.bytes ∧
          ∀ rule, ((Followed.start fs paths).run path steps).world.watcher.counts rule =
            tally (((Followed.start fs paths).run path steps).world.matched.map Prod.snd) rule) := by
  have hsound := run_sound hreopens
  refine ⟨hsound.world.alive, hsound.ok, fun now hthere => ?_,
    fun hpaced => ⟨(run_balanced hreopens hpaced).1, run_tally⟩⟩
  obtain ⟨p, hp, hok, hopened, -⟩ := hsound.world.pump_cases now (undenied_reopens (l := .pump path now {}) rfl)
  rw [← hok, (hp.ok_iff hopened hsound.following).1]
  exact ⟨rfl, fun _ => rfl, hthere⟩

/-- The path is away for one pump. -/
def awayOnce : List LogStep :=
  [.pump "kern.log" 0 {}, .file (.remove "kern.log"), .pump "kern.log" 1 {}, .file (.rotate "kern.log")]

theorem watcher_outlives_away :
    ((Followed.start kernLog ["kern.log"]).run "kern.log" awayOnce).world.pumpSucceeds "kern.log" 2 {} = true :=
  (watcher_outlives (by decide +kernel)).2.2.1 2 (by decide +kernel)

/-- The file is rotated away, and the fresh one cannot be opened at first; the next
pump finds the old one closed, and the thread ends. -/
theorem watcher_dies : ¬∀ (fs : FileSystem) (paths : List String) (steps : List LogStep),
    ((LogWorld.start fs paths).run steps).alive = true := by
  intro h
  have halive := h kernLog ["kern.log"] [.pump "kern.log" 0 {}, .file (.rotate "kern.log"),
    .pump "kern.log" 1 { openFile := some .permission }, .pump "kern.log" 2 {}]
  exact absurd halive (by decide +kernel)

end GpuNodeHealth.Agent
