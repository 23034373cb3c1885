import Mathlib.Data.List.Basic

/-! Text read from bytes: splitting into lines with universal newlines, and
decoding UTF-8 with a replacement character for what is malformed. -/

namespace GpuNodeHealth.Text

/-! ### Lines -/

/-- The lines of a text whose first line already has some bytes; each without its
end, and the last one also when it has none. -/
def linesAfter (start : List UInt8) : List UInt8 → List (List UInt8)
  | [] => if start.isEmpty then [] else [start]
  | 13 :: 10 :: rest => start :: linesAfter [] rest
  | b :: rest => if b = 10 ∨ b = 13 then start :: linesAfter [] rest else linesAfter (start ++ [b]) rest

def lines (text : List UInt8) : List (List UInt8) := linesAfter [] text

/-- A line as a writer means it: nothing in it ends it. -/
structure Line where
  bytes : List UInt8
  whole : ∀ b ∈ bytes, b ≠ 10 ∧ b ≠ 13
  deriving DecidableEq

/-- Lines in a file, each with a newline. -/
def written (ls : List Line) : List UInt8 := ls.flatMap fun l => l.bytes ++ [10]

theorem linesAfter_whole {bytes : List UInt8} (h : ∀ b ∈ bytes, b ≠ 10 ∧ b ≠ 13) (start rest : List UInt8) :
    linesAfter start (bytes ++ 10 :: rest) = (start ++ bytes) :: linesAfter [] rest := by
  induction bytes generalizing start with
  | nil => simp [linesAfter]
  | cons b bytes ih =>
    obtain ⟨hb, hbytes⟩ := List.forall_mem_cons.mp h
    rw [List.cons_append, linesAfter.eq_3, if_neg (by simp [hb]), ih hbytes]
    · simp
    · exact fun _ hcr _ => hb.2 hcr

@[simp] theorem written_nil : written [] = [] := rfl

theorem written_append (ls ls' : List Line) : written (ls ++ ls') = written ls ++ written ls' :=
  List.flatMap_append

/-- Reading what was written gives the lines back. -/
theorem lines_written (ls : List Line) : lines (written ls) = ls.map Line.bytes := by
  induction ls with
  | nil => rfl
  | cons l ls ih =>
    rw [written, List.flatMap_cons, List.append_assoc, List.singleton_append, lines, linesAfter_whole l.whole,
      List.map_cons]
    exact congrArg _ ih

/-- Whoever starts reading anywhere in what was written reads ends of its lines. -/
theorem lines_drop_written (ls : List Line) (n : ℕ) :
    ∀ bytes ∈ lines ((written ls).drop n), ∃ l ∈ ls, bytes <:+ l.bytes := by
  induction ls generalizing n with
  | nil => simp [lines, linesAfter]
  | cons l ls ih =>
    have hinto : ∀ m, ∀ bytes ∈ lines ((written ls).drop m), ∃ l' ∈ l :: ls, bytes <:+ l'.bytes := by
      intro m bytes hbytes
      obtain ⟨l', hl', hsuffix⟩ := ih m bytes hbytes
      exact ⟨l', List.mem_cons_of_mem _ hl', hsuffix⟩
    have htext : written (l :: ls) = l.bytes ++ 10 :: written ls := by simp [written]
    rw [htext]
    rcases Nat.lt_or_ge l.bytes.length n with hn | hn
    · obtain ⟨m, rfl⟩ := Nat.exists_eq_add_of_lt hn
      rw [Nat.add_assoc, List.drop_append, List.drop_of_length_le (Nat.le_add_right _ _), List.nil_append,
        Nat.add_sub_cancel_left, List.drop_succ_cons]
      exact hinto m
    · have hrest : ∀ b ∈ l.bytes.drop n, b ≠ 10 ∧ b ≠ 13 := fun b hb => l.whole b (List.mem_of_mem_drop hb)
      rw [List.drop_append_of_le_length hn, lines, linesAfter_whole hrest]
      exact List.forall_mem_cons.mpr ⟨⟨l, List.mem_cons_self, List.drop_suffix _ _⟩, hinto 0⟩

/-! ### Characters -/

/-- A sequence that has begun: its bits so far, how many bytes are to come, and
between which bounds the next one. -/
structure Begun where
  bits : ℕ
  left : ℕ
  low : ℕ := 0x80
  high : ℕ := 0xbf

/-- What a byte that starts a sequence begins; none if no sequence starts so. -/
def begin? (b : ℕ) : Option Begun :=
  if 0xc2 ≤ b ∧ b ≤ 0xdf then some ⟨b - 0xc0, 1, 0x80, 0xbf⟩
  else if b = 0xe0 then some ⟨0, 2, 0xa0, 0xbf⟩
  else if b = 0xed then some ⟨13, 2, 0x80, 0x9f⟩
  else if 0xe1 ≤ b ∧ b ≤ 0xef then some ⟨b - 0xe0, 2, 0x80, 0xbf⟩
  else if b = 0xf0 then some ⟨0, 3, 0x90, 0xbf⟩
  else if 0xf1 ≤ b ∧ b ≤ 0xf3 then some ⟨b - 0xf0, 3, 0x80, 0xbf⟩
  else if b = 0xf4 then some ⟨4, 3, 0x80, 0x8f⟩
  else none

def replacement : Char := Char.ofNat 0xfffd

/-- UTF-8 with `errors="replace"`: every maximal malformed piece becomes one
replacement character. -/
def decodeAfter : Option Begun → List UInt8 → List Char
  | none, [] => []
  | some _, [] => [replacement]
  | begun, b :: rest =>
    let fresh (_ : Unit) : List Char :=
      if b.toNat < 0x80 then Char.ofNat b.toNat :: decodeAfter none rest
      else match begin? b.toNat with
        | some begun => decodeAfter (some begun) rest
        | none => replacement :: decodeAfter none rest
    match begun with
    | none => fresh ()
    | some ⟨bits, left, low, high⟩ =>
      if low ≤ b.toNat ∧ b.toNat ≤ high then
        let bits' := bits * 64 + (b.toNat - 0x80)
        if left = 1 then Char.ofNat bits' :: decodeAfter none rest
        else decodeAfter (some ⟨bits', left - 1, 0x80, 0xbf⟩) rest
      else replacement :: fresh ()

def decode (bytes : List UInt8) : List Char := decodeAfter none bytes

/-- The bytes of an ASCII text. -/
def ascii (s : String) : List UInt8 := s.toList.map fun c => UInt8.ofNat c.toNat

/-- The bytes of ASCII characters. -/
def asciiBytes (text : List Char) : List UInt8 := text.map fun c => UInt8.ofNat c.toNat

theorem decode_asciiBytes {text : List Char} (h : ∀ c ∈ text, c.toNat < 0x80) : decode (asciiBytes text) = text := by
  induction text with
  | nil => rfl
  | cons c text ih =>
    obtain ⟨hc, htext⟩ := List.forall_mem_cons.mp h
    have hbyte : (UInt8.ofNat c.toNat).toNat = c.toNat := by
      rw [UInt8.toNat_ofNat']
      omega
    have hstep : decode (asciiBytes (c :: text)) = Char.ofNat c.toNat :: decode (asciiBytes text) := by
      simp only [decode, asciiBytes, List.map_cons, decodeAfter, hbyte, if_pos hc]
    rw [hstep, ih htext, Char.ofNat_toNat]

example : decode (ascii "ring" ++ [0xc3, 0xa9, 0xff, 0xe2, 0x82]) =
    "ring".toList ++ [Char.ofNat 0xe9, replacement, replacement] := by decide +kernel

end GpuNodeHealth.Text
