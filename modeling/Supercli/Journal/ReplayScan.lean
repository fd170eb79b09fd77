import Mathlib

/-!
# `Journal.ReplayScan` — where a replay of terminal output may begin

A replay that begins inside an escape sequence, or inside a UTF-8 rune, would garble the terminal. Two functions
look for a better place, and run the same little VT parser over a stretch of the journal: readers align the start
of a tail (`align_replay_tail_start`), and the writer looks for a floor below which it may give up the bytes
(`safe_output_retention_boundary`). They differ in what counts as a boundary in the ground state: the reader
takes line ends and the start of escapes, the writer every start of a rune.

What the rest of the development needs of them are bounds: the place found is never before where the scan began,
and never after the place that was asked for.
-/

namespace Supercli.Journal

inductive ReplayScanState
  | ground
  | escape
  | escapeIntermediate
  | csi
  | osc
  | oscEscape
  | dcs
  | dcsEscape
  | sosPmApc
  | sosPmApcEscape
deriving DecidableEq, Repr

def isUtf8ContinuationByte (byte : UInt8) : Bool := byte &&& 0xC0 == 0x80

/-- The parser and the last boundary it has passed. -/
structure Scan where
  state : ReplayScanState
  lastBoundary : Nat
deriving DecidableEq, Repr

/-- The end of a string that is closed by `ESC \`. -/
def Scan.closed (s : Scan) (absolute : Nat) (byte : UInt8) (inside : ReplayScanState) : Scan :=
  if byte = 0x5C then ⟨.ground, absolute + 1⟩ else { s with state := inside }

/-- One byte of the scan. `runes`: every start of a rune in the ground state is a boundary. -/
def Scan.byte (runes : Bool) (s : Scan) (absolute : Nat) (byte : UInt8) : Scan :=
  if byte = 0x18 ∨ byte = 0x1A then ⟨.ground, absolute + 1⟩
  else if byte = 0x1B ∧ (s.state = .escape ∨ s.state = .escapeIntermediate ∨ s.state = .csi) then ⟨.escape, absolute⟩
  else match s.state with
    | .ground =>
      if byte = 0x1B then ⟨.escape, absolute⟩
      else if byte = 0x0A ∨ byte = 0x0D then ⟨.ground, absolute + 1⟩
      else if runes && !isUtf8ContinuationByte byte then ⟨.ground, absolute⟩
      else s
    | .escape =>
      if byte = 0x5B then { s with state := .csi }
      else if byte = 0x5D then { s with state := .osc }
      else if byte = 0x50 then { s with state := .dcs }
      else if byte = 0x58 ∨ byte = 0x5E ∨ byte = 0x5F then { s with state := .sosPmApc }
      else if 0x20 ≤ byte ∧ byte ≤ 0x2F then { s with state := .escapeIntermediate }
      else ⟨.ground, absolute + 1⟩
    | .escapeIntermediate => if 0x30 ≤ byte ∧ byte ≤ 0x7E then ⟨.ground, absolute + 1⟩ else s
    | .csi => if 0x40 ≤ byte ∧ byte ≤ 0x7E then ⟨.ground, absolute + 1⟩ else s
    | .osc =>
      if byte = 0x07 then ⟨.ground, absolute + 1⟩
      else if byte = 0x1B then { s with state := .oscEscape }
      else s
    | .oscEscape => s.closed absolute byte .osc
    | .dcs => if byte = 0x1B then { s with state := .dcsEscape } else s
    | .dcsEscape => s.closed absolute byte .dcs
    | .sosPmApc => if byte = 0x1B then { s with state := .sosPmApcEscape } else s
    | .sosPmApcEscape => s.closed absolute byte .sosPmApc

/-- The scan of a stretch that begins at `absolute`. -/
def Scan.bytes (runes : Bool) : Scan → Nat → List UInt8 → Scan
  | s, _, [] => s
  | s, absolute, byte :: window => (s.byte runes absolute byte).bytes runes (absolute + 1) window

def replayTailAlignmentLookbackBytes : Nat := 16 * 1024

/-- Where `align_replay_tail_start` begins to look. -/
def alignmentScanStart (desiredStart retainedFrom : Nat) : Nat :=
  max (desiredStart - replayTailAlignmentLookbackBytes) retainedFrom

/-- `align_replay_tail_start`, once the window from `scanStart` to `desiredStart` has been read. -/
def alignReplayTailStart (scanStart desiredStart : Nat) (window : List UInt8) : Nat :=
  let initialIndex := (window.takeWhile isUtf8ContinuationByte).length
  let scan : Scan := ⟨.ground, scanStart + initialIndex⟩
  min (scan.bytes false (scanStart + initialIndex) (window.drop initialIndex)).lastBoundary desiredStart

def sessionOutputJournalControlSlackBytes : Nat := 64 * 1024

variable (byteAt : Nat → UInt8)

/-- The end of `safe_output_retention_boundary`: back from `desiredStart` over the continuation bytes of one rune,
    but not below `scanStart`. -/
def forcedBoundary (scanStart desiredStart : Nat) : Nat → Nat
  | 0 => if isUtf8ContinuationByte (byteAt scanStart) then desiredStart else scanStart
  | relative + 1 =>
    if isUtf8ContinuationByte (byteAt (scanStart + (relative + 1))) then
      forcedBoundary scanStart desiredStart relative
    else scanStart + (relative + 1)

/-- `safe_output_retention_boundary` of a file with the given bytes. -/
def safeOutputRetentionBoundary (safeStart desiredStart : Nat) : Nat :=
  if desiredStart ≤ safeStart then safeStart
  else
    let window := (List.range (desiredStart - safeStart)).map fun i => byteAt (safeStart + i)
    let lastBoundary := min ((⟨.ground, safeStart⟩ : Scan).bytes true safeStart window).lastBoundary desiredStart
    if desiredStart - lastBoundary ≤ sessionOutputJournalControlSlackBytes then lastBoundary
    else
      let scanStart := max (desiredStart - 3) safeStart
      forcedBoundary byteAt scanStart desiredStart (desiredStart - scanStart)

/-! ## Bounds -/

/-- **The boundary is not before the scan.** -/
theorem Scan.le_bytes : ∀ {s : Scan} {absolute : Nat}, start ≤ s.lastBoundary → start ≤ absolute →
      start ≤ (s.bytes runes absolute window).lastBoundary := by
  induction window with
  | nil => exact fun h _ => h
  | cons byte window ih =>
    intro s absolute hs ha
    refine ih ?_ (Nat.le_succ_of_le ha)
    -- the boundary stays, or is before or behind this byte
    unfold Scan.byte Scan.closed
    repeat' split
    all_goals first | exact hs | exact ha | exact Nat.le_succ_of_le ha

theorem alignReplayTailStart_bounds (h : scanStart ≤ desiredStart) (window : List UInt8) :
    scanStart ≤ alignReplayTailStart scanStart desiredStart window ∧
      alignReplayTailStart scanStart desiredStart window ≤ desiredStart := by
  refine ⟨Nat.le_min.mpr ⟨?_, h⟩, Nat.min_le_right _ _⟩
  exact Scan.le_bytes (Nat.le_add_right _ _) (Nat.le_add_right _ _)

theorem forcedBoundary_bounds (h : scanStart ≤ desiredStart)
    (relative : Nat) (hr : scanStart + relative ≤ desiredStart) :
    scanStart ≤ forcedBoundary byteAt scanStart desiredStart relative ∧
      forcedBoundary byteAt scanStart desiredStart relative ≤ desiredStart := by
  induction relative with
  | zero =>
    unfold forcedBoundary
    split
    · exact ⟨h, Nat.le_refl _⟩
    · exact ⟨Nat.le_refl _, h⟩
  | succ relative ih =>
    unfold forcedBoundary
    split
    · exact ih (by omega)
    · exact ⟨Nat.le_add_right _ _, hr⟩

theorem safeOutputRetentionBoundary_bounds (safeStart desiredStart : Nat) :
    safeStart ≤ safeOutputRetentionBoundary byteAt safeStart desiredStart ∧
      safeOutputRetentionBoundary byteAt safeStart desiredStart ≤ max safeStart desiredStart ∧
      desiredStart ≤
        safeOutputRetentionBoundary byteAt safeStart desiredStart + sessionOutputJournalControlSlackBytes := by
  unfold safeOutputRetentionBoundary
  split
  · exact ⟨Nat.le_refl _, Nat.le_max_left _ _, by omega⟩
  · rename_i hlt
    dsimp only
    split
    · refine ⟨Nat.le_min.mpr ⟨?_, by omega⟩, Nat.le_trans (Nat.min_le_right _ _) (Nat.le_max_right _ _), by omega⟩
      exact Scan.le_bytes (Nat.le_refl _) (Nat.le_refl _)
    · have hscan : max (desiredStart - 3) safeStart ≤ desiredStart := by omega
      have h := forcedBoundary_bounds byteAt hscan (desiredStart - max (desiredStart - 3) safeStart) (by omega)
      exact ⟨by omega, by omega, by unfold sessionOutputJournalControlSlackBytes; omega⟩

end Supercli.Journal
