import GpuNodeHealth.Agent.Freshness

/-! The counters of the watcher are those of the lines it reads, whatever a pump is
answered: the file may be rotated, cut or gone at any of its requests. -/

namespace GpuNodeHealth.Agent

open Files Text Interaction

variable {watcher watcher' : KernelLogWatcher} {es fs : List (Event FileApi)} {α β : Type}

/-- The counters have grown by the lines read since. -/
def Counted (watcher : KernelLogWatcher) (es fs : List (Event FileApi)) (watcher' : KernelLogWatcher) : Prop :=
  ∃ new, fs = es ++ new ∧ ∀ rule, watcher'.counts rule = watcher.counts rule + tally (linesRead new) rule

theorem linesRead_append (es fs : List (Event FileApi)) : linesRead (es ++ fs) = linesRead es ++ linesRead fs :=
  List.flatMap_append

theorem Counted.refl (es : List (Event FileApi)) (hcounts : watcher'.counts = watcher.counts) :
    Counted watcher es es watcher' :=
  ⟨[], (List.append_nil _).symm, fun rule => by rw [hcounts]; rfl⟩

theorem Counted.trans {watcher'' : KernelLogWatcher} {gs : List (Event FileApi)} (h : Counted watcher es fs watcher')
    (h' : Counted watcher' fs gs watcher'') : Counted watcher es gs watcher'' := by
  obtain ⟨new, rfl, hcounts⟩ := h
  obtain ⟨more, rfl, hcounts'⟩ := h'
  refine ⟨new ++ more, List.append_assoc _ _ _, fun rule => ?_⟩
  rw [hcounts', hcounts, linesRead_append, tally_append, Nat.add_assoc]

/-- A method that counts the lines it reads, and no others. -/
def CountsLines (m : Method FileApi FileExc KernelLogWatcher α) : Prop :=
  ∀ answer watcher es, Counted watcher es (m.play answer watcher es).2 (m.play answer watcher es).1.2

theorem CountsLines.pure (a : α) : CountsLines (pure a) := fun _ _ es => .refl es rfl

theorem CountsLines.throw (e : FileExc) : CountsLines (throw e : Method FileApi FileExc KernelLogWatcher α) :=
  fun _ _ es => .refl es rfl

theorem CountsLines.get : CountsLines get := fun _ _ es => .refl es rfl

theorem CountsLines.modify {f : KernelLogWatcher → KernelLogWatcher} (h : ∀ w, (f w).counts = w.counts) :
    CountsLines (modify f) := fun _ watcher es => .refl es (h watcher)

/-- Whatever the system is asked but to read the rest of a file gives no lines. -/
theorem CountsLines.request {r : FileReq} (h : ∀ v, linesRead [⟨r, v⟩] = []) :
    CountsLines (Method.request r : Method FileApi FileExc KernelLogWatcher (FileAns r)) := by
  intro answer watcher es
  refine ⟨_, rfl, fun rule => ?_⟩
  rw [h]
  rfl

theorem CountsLines.bind {m : Method FileApi FileExc KernelLogWatcher α}
    {f : α → Method FileApi FileExc KernelLogWatcher β} (hm : CountsLines m) (hf : ∀ a, CountsLines (f a)) :
    CountsLines (m >>= f) := by
  intro answer watcher es
  have hfirst := hm answer watcher es
  rw [Method.play_bind]
  generalize m.play answer watcher es = out at hfirst
  obtain ⟨⟨e | a, t⟩, fs⟩ := out
  · exact hfirst
  · exact hfirst.trans (hf a answer t fs)

theorem CountsLines.tryCatch {m : Method FileApi FileExc KernelLogWatcher α}
    {handler : FileExc → Method FileApi FileExc KernelLogWatcher α} (hm : CountsLines m)
    (hhandler : ∀ e, CountsLines (handler e)) : CountsLines (tryCatch m handler) := by
  intro answer watcher es
  have hfirst := hm answer watcher es
  rw [Method.play_tryCatch]
  generalize m.play answer watcher es = out at hfirst
  obtain ⟨⟨e | a, t⟩, fs⟩ := out
  · exact hfirst.trans (hhandler e answer t fs)
  · exact hfirst

theorem countsLines_setHandle (path : String) (fh : KernelLogWatcher → Handle) :
    CountsLines (modify fun w => w.setHandle path (fh w)) :=
  .modify fun _ => rfl

theorem consume_counts (path : String) (now : ℚ) : CountsLines (consume path now) := by
  refine CountsLines.get.bind fun watcher => ?_
  cases watcher.handles path with
  | none => exact .pure ()
  | some fh =>
    intro answer watcher' es
    simp only [Method.play_bind, Method.play_request]
    generalize hv : answer es (FileReq.readRest fh.file fh.pos) = v
    cases v with
    | error e => exact ⟨_, rfl, fun rule => rfl⟩
    | ok bytes =>
      refine ⟨_, rfl, fun rule => ?_⟩
      have hread : linesRead [⟨FileReq.readRest fh.file fh.pos, .ok bytes⟩] = lines bytes := List.append_nil _
      rw [hread]
      exact matchAll_counts (lines bytes) rule

theorem reopen_counts (path : String) : CountsLines (reopen path) := by
  refine (CountsLines.request fun v => by cases v <;> rfl).bind fun file => CountsLines.get.bind fun watcher => ?_
  split_ifs
  · exact (CountsLines.request fun v => by cases v <;> rfl).bind fun size => countsLines_setHandle path _
  · exact countsLines_setHandle path _

theorem pump_counts (path : String) (now : ℚ) : CountsLines (pump path now) := by
  have hread := (reopen_counts path).bind fun _ => consume_counts path now
  refine (CountsLines.request fun v => by cases v <;> rfl).bind fun st => CountsLines.get.bind fun watcher => ?_
  cases watcher.handles path with
  | none => exact hread
  | some fh =>
    simp only
    split_ifs
    · exact .throw _
    · exact (consume_counts path now).bind fun _ => (countsLines_setHandle path _).bind fun _ => hread
    · exact (countsLines_setHandle path _).bind fun _ => hread
    · exact consume_counts path now

theorem runPath_counts (path : String) (now : ℚ) : CountsLines (runPath path now) := by
  refine CountsLines.bind (.tryCatch ((pump_counts path now).bind fun _ => .pure true) fun exc => ?_) fun ok =>
    .modify fun _ => rfl
  split_ifs
  · exact .pure false
  · exact .throw exc

end GpuNodeHealth.Agent
