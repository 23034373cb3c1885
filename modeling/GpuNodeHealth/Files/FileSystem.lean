import GpuNodeHealth.Text.Lines
import Mathlib.Logic.Function.Basic

/-! Log files as their writers leave them: lines are appended to the file that a
path names at the time, the path may come to name a fresh file, the file may be
cut to nothing, the path may go. No file is ever at two paths. -/

namespace GpuNodeHealth.Files

open Text

/-- What tells files apart (`st_dev` and `st_ino`): of the files that have been at
a path, which one. -/
structure FileId where
  home : String
  serial : ℕ
  deriving DecidableEq, Repr

structure FileSystem where
  current : String → Option FileId
  content : FileId → List UInt8
  made : String → ℕ
  named : ∀ path file, current path = some file → file.home = path ∧ file.serial < made path

inductive FileEvent where
  | append (path : String) (ls : List Line)
  | rotate (path : String)
  | truncate (path : String)
  | remove (path : String)

def FileEvent.path : FileEvent → String
  | .append path _ => path
  | .rotate path => path
  | .truncate path => path
  | .remove path => path

def FileSystem.empty : FileSystem where
  current := fun _ => none
  content := fun _ => []
  made := fun _ => 0
  named := nofun

/-- The file at a path gets other content; without one nothing happens. -/
def FileSystem.edit (fs : FileSystem) (path : String) (change : List UInt8 → List UInt8) : FileSystem :=
  { fs with content := match fs.current path with
      | some file => Function.update fs.content file (change (fs.content file))
      | none => fs.content }

/-- A fresh file is put at a path; one that was there is aside, and stays as it is. -/
def FileSystem.rotate (fs : FileSystem) (path : String) : FileSystem where
  current := Function.update fs.current path (some ⟨path, fs.made path⟩)
  content := Function.update fs.content ⟨path, fs.made path⟩ []
  made := Function.update fs.made path (fs.made path + 1)
  named other file h := by
    by_cases heq : other = path
    · subst heq
      rw [Function.update_self, Option.some.injEq] at h
      subst h
      simp
    · rw [Function.update_of_ne heq] at h ⊢
      exact fs.named other file h

def FileSystem.remove (fs : FileSystem) (path : String) : FileSystem where
  current := Function.update fs.current path none
  content := fs.content
  made := fs.made
  named other file h := by
    by_cases heq : other = path
    · rw [heq, Function.update_self] at h
      cases h
    · rw [Function.update_of_ne heq] at h
      exact fs.named other file h

def FileSystem.apply (fs : FileSystem) : FileEvent → FileSystem
  | .append path ls => fs.edit path (· ++ written ls)
  | .rotate path => fs.rotate path
  | .truncate path => fs.edit path fun _ => []
  | .remove path => fs.remove path

/-- A file opened for reading: how far it has been read, and whether it is closed. -/
structure Handle where
  file : FileId
  pos : ℕ := 0
  closed : Bool := false
  deriving DecidableEq, Repr

variable {fs : FileSystem} {path : String} {file : FileId}

@[simp] theorem rotate_current : (fs.rotate path).current path = some ⟨path, fs.made path⟩ :=
  Function.update_self _ _ _

@[simp] theorem rotate_made : (fs.rotate path).made path = fs.made path + 1 := Function.update_self _ _ _

@[simp] theorem rotate_fresh : (fs.rotate path).content ⟨path, fs.made path⟩ = [] := Function.update_self _ _ _

theorem rotate_content (h : file ≠ ⟨path, fs.made path⟩) : (fs.rotate path).content file = fs.content file :=
  Function.update_of_ne h _ _

@[simp] theorem remove_current : (fs.remove path).current path = none := Function.update_self _ _ _

theorem edit_content (change : List UInt8 → List UInt8) (file : FileId) : (fs.edit path change).content file =
    if fs.current path = some file then change (fs.content file) else fs.content file := by
  unfold FileSystem.edit
  cases hcurrent : fs.current path with
  | none => simp
  | some f =>
    by_cases heq : file = f
    · simp [heq]
    · simp [heq, Ne.symm heq]

theorem edit_none (h : fs.current path = none) (change : List UInt8 → List UInt8) : fs.edit path change = fs := by
  simp [FileSystem.edit, h]

/-- Whatever happens at a path leaves the files of the others alone. -/
theorem apply_other {e : FileEvent} (h : e.path ≠ file.home) : (fs.apply e).content file = fs.content file ∧
    (fs.apply e).current file.home = fs.current file.home ∧ (fs.apply e).made file.home = fs.made file.home := by
  have hsame : ∀ change, (fs.edit e.path change).content file = fs.content file := fun change =>
    (edit_content change file).trans (if_neg fun hc => h (fs.named _ _ hc).1.symm)
  cases e with
  | append path ls => exact ⟨hsame (· ++ written ls), rfl, rfl⟩
  | truncate path => exact ⟨hsame fun _ => [], rfl, rfl⟩
  | rotate path =>
    have hfile : file ≠ ⟨path, fs.made path⟩ := fun heq => h (by rw [heq]; rfl)
    simp only [FileEvent.path] at h
    exact ⟨Function.update_of_ne hfile _ _, Function.update_of_ne h.symm _ _, Function.update_of_ne h.symm _ _⟩
  | remove path => exact ⟨rfl, Function.update_of_ne h.symm _ _, rfl⟩

end GpuNodeHealth.Files
