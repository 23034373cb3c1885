import GpuNodeHealth.Files.FileSystem

/-! What a reader still has ahead of it. A reader that keeps a handle on a log
catches up now and then; in between lines are appended, and at most once the file
is rotated away or else cut. The lines it has missed are then what its handle has
left, what the fresh file holds, or what the cut file holds. -/

namespace GpuNodeHealth.Files

open Text

/-- The books on one log: the lines a reader should have delivered by the last
time it caught up, those that came since and are not lost, and whether the file
was rotated or cut since. Nothing is owed before the reader is there. -/
structure Ledger where
  following : Bool := false
  due : List Line := []
  pending : List Line := []
  rotated : Bool := false
  truncated : Bool := false

/-- An event at the path of the log; lines need a file to go to. -/
def Ledger.record (ledger : Ledger) (present : Bool) (e : FileEvent) : Ledger :=
  if ledger.following then
    match e with
    | .append _ ls => if present then { ledger with pending := ledger.pending ++ ls } else ledger
    | .rotate _ => { ledger with rotated := true }
    | .truncate _ => if present then { ledger with pending := [], truncated := true } else ledger
    | .remove _ => ledger
  else ledger

def Ledger.catchUp (ledger : Ledger) : Ledger where
  following := true
  due := ledger.due ++ ledger.pending

/-- Between two moments the reader catches up: at most one rotation, and not both a
rotation and a cut. -/
def Ledger.Permits (ledger : Ledger) (e : FileEvent) : Prop :=
  ledger.following = true → match e with
    | .rotate _ => ledger.rotated = false ∧ ledger.truncated = false
    | .truncate _ => ledger.rotated = false
    | _ => True

instance (ledger : Ledger) (e : FileEvent) : Decidable (ledger.Permits e) := by
  unfold Ledger.Permits
  cases e <;> infer_instance

/-- The pending lines are those the reader has ahead of it. -/
inductive Unread (fs : FileSystem) (path : String) (h : Handle) : List Line → Bool → Bool → Prop where
  | same {pending : List Line} (hcurrent : ∀ file ∈ fs.current path, file = h.file)
      (hpos : h.pos ≤ (fs.content h.file).length)
      (hrest : (fs.content h.file).drop h.pos = written pending) : Unread fs path h pending false false
  | rotated {old new : List Line} {file : FileId} (hcurrent : ∀ f ∈ fs.current path, f = file)
      (hfile : file.home = path) (hmade : file.serial < fs.made path) (hne : h.file ≠ file)
      (hrest : (fs.content h.file).drop h.pos = written old)
      (hnew : fs.content file = written new) : Unread fs path h (old ++ new) true false
  | truncated {pending : List Line} (hcurrent : ∀ file ∈ fs.current path, file = h.file)
      (hnew : fs.content h.file = written pending) : Unread fs path h pending false true

/-- A handle on a file that has been at the path. -/
def Handle.On (h : Handle) (fs : FileSystem) (path : String) : Prop :=
  h.file.home = path ∧ h.file.serial < fs.made path

/-- The books agree with what the reader has ahead of it. -/
def Ledger.Agrees (ledger : Ledger) (fs : FileSystem) (path : String) (h : Handle) : Prop :=
  ledger.following = true ∧ h.On fs path ∧ Unread fs path h ledger.pending ledger.rotated ledger.truncated

variable {fs : FileSystem} {path : String} {h : Handle} {ledger : Ledger}

/-- Lines that come in are unread. -/
theorem Unread.append {pending : List Line} {rotated truncated : Bool}
    (hunread : Unread fs path h pending rotated truncated) {file : FileId} (hfile : fs.current path = some file)
    (ls : List Line) : Unread (fs.edit path (· ++ written ls)) path h (pending ++ ls) rotated truncated := by
  have hgrown : (fs.edit path (· ++ written ls)).content file = fs.content file ++ written ls := by
    rw [edit_content, if_pos hfile]
  cases hunread with
  | same hcurrent hpos hrest =>
    obtain rfl := hcurrent file hfile
    refine .same hcurrent ?_ ?_
    · rw [hgrown, List.length_append]
      omega
    · rw [hgrown, List.drop_append_of_le_length hpos, hrest, written_append]
  | rotated hcurrent hhome hmade hne hrest hnew =>
    obtain rfl := hcurrent file hfile
    have hold : (fs.edit path (· ++ written ls)).content h.file = fs.content h.file := by
      rw [edit_content, if_neg]
      rw [hfile]
      exact fun heq => hne (Option.some.inj heq).symm
    rw [List.append_assoc]
    exact .rotated hcurrent hhome hmade hne (hold ▸ hrest) (by rw [hgrown, hnew, written_append])
  | truncated hcurrent hnew =>
    obtain rfl := hcurrent file hfile
    exact .truncated hcurrent (by rw [hgrown, hnew, written_append])

/-- With a rotation what is unread is left to the handle, and the fresh file is empty. -/
theorem Unread.rotate {pending : List Line} (hunread : Unread fs path h pending false false) (hon : h.On fs path) :
    Unread (fs.rotate path) path h pending true false := by
  obtain ⟨-, hserial⟩ := hon
  cases hunread with
  | same hcurrent hpos hrest =>
    have hne : h.file ≠ ⟨path, fs.made path⟩ := fun heq => by simp [heq] at hserial
    have hold : ((fs.rotate path).content h.file).drop h.pos = written pending := by rwa [rotate_content hne]
    have hnow : ∀ f ∈ (fs.rotate path).current path, f = ⟨path, fs.made path⟩ := by simp
    have hunread := Unread.rotated hnow rfl (by simp) hne hold (rotate_fresh.trans written_nil.symm)
    rwa [List.append_nil] at hunread

/-- A cut loses what was unread. -/
theorem Unread.truncate {pending : List Line} {truncated : Bool} (hunread : Unread fs path h pending false truncated)
    {file : FileId} (hfile : fs.current path = some file) :
    Unread (fs.edit path fun _ => []) path h [] false true := by
  have hcut : (fs.edit path fun _ => []).content file = [] := by rw [edit_content, if_pos hfile]
  cases hunread with
  | same hnames _ _ =>
    obtain rfl := hnames file hfile
    exact .truncated hnames hcut
  | truncated hnames _ =>
    obtain rfl := hnames file hfile
    exact .truncated hnames hcut

theorem Unread.remove {pending : List Line} {rotated truncated : Bool}
    (hunread : Unread fs path h pending rotated truncated) :
    Unread (fs.remove path) path h pending rotated truncated := by
  have hgone : ∀ file, ∀ f ∈ (fs.remove path).current path, f = file := by simp
  cases hunread with
  | same _ hpos hrest => exact .same (hgone _) hpos hrest
  | rotated _ hfile hmade hne hrest hnew => exact .rotated (hgone _) hfile hmade hne hrest hnew
  | truncated _ hnew => exact .truncated (hgone _) hnew

/-- Every permitted event keeps the books in agreement. -/
theorem Ledger.Agrees.record (hagrees : ledger.Agrees fs path h) {e : FileEvent} (he : e.path = path)
    (hpermits : ledger.Permits e) :
    (ledger.record (fs.current path).isSome e).Agrees (fs.apply e) path h := by
  obtain ⟨following, due, pending, rotated, truncated⟩ := ledger
  obtain ⟨hfollowing, ⟨hhome, hserial⟩, hunread⟩ := hagrees
  have hpermits := hpermits hfollowing
  obtain rfl : following = true := hfollowing
  cases e with
  | append p ls =>
    obtain rfl : p = path := he
    cases hcurrent : fs.current p with
    | none =>
      rw [FileSystem.apply, edit_none hcurrent]
      exact ⟨rfl, ⟨hhome, hserial⟩, hunread⟩
    | some file => exact ⟨rfl, ⟨hhome, hserial⟩, hunread.append hcurrent ls⟩
  | rotate p =>
    obtain rfl : p = path := he
    obtain ⟨hrotated, htruncated⟩ := hpermits
    obtain rfl : rotated = false := hrotated
    obtain rfl : truncated = false := htruncated
    refine ⟨rfl, ⟨hhome, ?_⟩, hunread.rotate ⟨hhome, hserial⟩⟩
    rw [FileSystem.apply, rotate_made]
    omega
  | truncate p =>
    obtain rfl : p = path := he
    obtain rfl : rotated = false := hpermits
    cases hcurrent : fs.current p with
    | none =>
      rw [FileSystem.apply, edit_none hcurrent]
      exact ⟨rfl, ⟨hhome, hserial⟩, hunread⟩
    | some file => exact ⟨rfl, ⟨hhome, hserial⟩, hunread.truncate hcurrent⟩
  | remove p =>
    obtain rfl : p = path := he
    exact ⟨rfl, ⟨hhome, hserial⟩, hunread.remove⟩

/-- What happens at other paths does not matter. -/
theorem Ledger.Agrees.other (hagrees : ledger.Agrees fs path h) {e : FileEvent} (he : e.path ≠ path) :
    ledger.Agrees (fs.apply e) path h := by
  obtain ⟨following, due, pending, rotated, truncated⟩ := ledger
  obtain ⟨hfollowing, ⟨hhome, hserial⟩, hunread⟩ := hagrees
  have hother : ∀ file : FileId, file.home = path → (fs.apply e).content file = fs.content file ∧
      (fs.apply e).current path = fs.current path ∧ (fs.apply e).made path = fs.made path := by
    rintro file rfl
    exact apply_other he
  obtain ⟨hcontent, hnames, hmade⟩ := hother h.file hhome
  refine ⟨hfollowing, ⟨hhome, by rwa [hmade]⟩, ?_⟩
  cases hunread with
  | same hcurrent hpos hrest => exact .same (by rwa [hnames]) (by rwa [hcontent]) (by rwa [hcontent])
  | rotated hcurrent hfile hserial' hne hrest hnew =>
    exact .rotated (by rwa [hnames]) hfile (by rwa [hmade]) hne (by rwa [hcontent])
      (by rwa [(hother _ hfile).1])
  | truncated hcurrent hnew => exact .truncated (by rwa [hnames]) (by rwa [hcontent])

end GpuNodeHealth.Files
