import Supercli.Lib.Utf8

/-!
# `Lib.TextLog` — a file to which lines are appended

A log is its lines, each followed by a line feed. Cutting a log gives the lines that were appended (`cutLines_logOf`), as
long as none of them has a line feed or a carriage return; printable text has neither (`Printable.not_mem_encodeUtf8`).
-/

open List

section Lines

variable {α : Type} [DecidableEq α] {lf cr : α} {ls : List (List α)}

/-- The log of some lines. -/
def logOf (lf : α) (ls : List (List α)) : List α := ls.flatMap (· ++ [lf])

theorem splitOn_logOf (h : ∀ l ∈ ls, lf ∉ l) : (logOf lf ls).splitOn lf = ls ++ [[]] := by
  induction ls with
  | nil => rfl
  | cons l ls ih =>
    have hcons : logOf lf (l :: ls) = l ++ lf :: logOf lf ls := by simp [logOf]
    rw [hcons, splitOn_append_cons_self_of_not_mem (h l mem_cons_self),
      ih fun m hm => h m (mem_cons_of_mem _ hm), cons_append]

/-- The lines of a log are determined by it. -/
theorem logOf_inj (h : ∀ l ∈ ls, lf ∉ l) (h' : ∀ l ∈ ls', lf ∉ l) (heq : logOf lf ls = logOf lf ls') : ls = ls' := by
  have hsplit := congrArg (splitOn lf) heq
  rw [splitOn_logOf h, splitOn_logOf h'] at hsplit
  exact append_cancel_right hsplit

/-- No piece between line feeds has one. -/
theorem not_mem_of_mem_splitOn {α : Type} [BEq α] [LawfulBEq α] {lf : α} {xs piece : List α}
    (h : piece ∈ xs.splitOn lf) : lf ∉ piece := by
  induction xs generalizing piece with
  | nil =>
    have : piece = [] := by simpa using h
    simp [this]
  | cons x xs ih =>
    rw [splitOn_cons_eq_if_modifyHead] at h
    by_cases hx : x == lf
    · rw [if_pos hx] at h
      rcases mem_cons.mp h with rfl | h
      · simp
      · exact ih h
    · rw [if_neg hx] at h
      cases hsplit : xs.splitOn lf with
      | nil => exact absurd hsplit (splitOn_ne_nil lf xs)
      | cons first more =>
        rw [hsplit, modifyHead_cons] at h
        rw [hsplit] at ih
        rcases mem_cons.mp h with rfl | h
        · have hfirst : lf ∉ first := ih mem_cons_self
          have hne : lf ≠ x := fun hax => hx (by simp [hax])
          simp [hfirst, hne]
        · exact ih (mem_cons_of_mem _ h)

/-- A line is a piece, perhaps without its last element. -/
theorem not_mem_of_mem_cutLines (h : ∀ piece ∈ pieces, lf ∉ piece) : ∀ l ∈ cutLines cr pieces, lf ∉ l := by
  induction pieces using cutLines.induct with
  | case1 | case2 => exact nofun
  | case3 last hlast =>
    rw [cutLines, if_neg hlast]
    exact h
  | case4 piece next rest ih =>
    rw [forall_mem_cons] at h
    rw [cutLines, forall_mem_cons]
    refine ⟨?_, ih h.2⟩
    split
    · exact fun hmem => h.1 (dropLast_subset _ hmem)
    · exact h.1

/-- **The lines of a log** are the lines it was made of. -/
theorem cutLines_logOf (h : ∀ l ∈ ls, lf ∉ l) (hcr : ∀ l ∈ ls, cr ∉ l) :
    cutLines cr ((logOf lf ls).splitOn lf) = ls := by
  rw [splitOn_logOf h]
  clear h
  induction ls with
  | nil => rfl
  | cons l ls ih =>
    rw [forall_mem_cons] at hcr
    have hl : l.getLast? ≠ some cr := fun hlast => hcr.1 (mem_of_getLast? hlast)
    cases ls with
    | nil => simp [cutLines, hl]
    | cons => rw [cons_append, cons_append, cutLines, if_neg hl, ← cons_append, ih hcr.2]

end Lines

/-- A text without control characters. -/
def Printable (text : Text) : Prop := ∀ c ∈ text, 32 ≤ c.toNat

instance (text : Text) : Decidable (Printable text) := decidableBAll _ text

theorem Printable.append (ha : Printable a) (hb : Printable b) : Printable (a ++ b) :=
  forall_mem_append.mpr ⟨ha, hb⟩

theorem Printable.cons (hc : 32 ≤ c.toNat) (h : Printable text) : Printable (c :: text) :=
  forall_mem_cons.mpr ⟨hc, h⟩

/-- A control byte encodes a control character. -/
theorem toNat_of_mem_utf8EncodeChar (h : b ∈ String.utf8EncodeChar c) (hb : b.toNat < 32) : c.toNat = b.toNat := by
  have hval : c.toNat = c.val.toNat := rfl
  unfold String.utf8EncodeChar at h
  grind [UInt8.toNat_ofNat']

/-- **Text without control characters has no control bytes.** -/
theorem Printable.not_mem_encodeUtf8 (h : Printable l) (hb : b.toNat < 32) : b ∉ encodeUtf8 l := by
  intro hmem
  obtain ⟨c, hc, hbyte⟩ := mem_flatMap.mp hmem
  have hprintable := h c hc
  rw [toNat_of_mem_utf8EncodeChar hbyte hb] at hprintable
  omega
