import Mathlib

/-!
# `Output.QueryScanner` — terminal queries that the Host answers

What a hosted program prints goes through `OutputQueryScanner` first. A query that the Host answers itself is taken out
of the output; everything else is passed on. A sequence that is not complete at the end of a read is held until the next
one.

`scan_spec` says what the scanner does to a stream: what was held and what is read is cut into pieces, each passed on or
a query, and a rest that is held now.
-/

namespace Supercli.Output

open List

def queryScanMaxSequenceBytes : Nat := 32

inductive QueryScanState
  | ground
  | escape
  | csi
  | osc
  /-- Inside an OSC, after ESC (deciding ST terminator vs abort). -/
  | oscEscape
deriving DecidableEq, Repr

/-- A terminal query the host answered (and excised from the stream). -/
inductive HostAnsweredQuery
  /-- `CSI c` / `CSI 0 c` / `ESC Z` -/
  | da1
  /-- `CSI 6 n` -/
  | cursorPosition
  /-- `CSI ? u` -/
  | kittyFlags
  /-- `OSC 10/11 ; ?` -/
  | oscColor (code : Nat)
  /-- `OSC 4 ; <index> ; ?` -/
  | oscPalette (index : Nat)
deriving DecidableEq, Repr

structure OutputQueryScanner where
  state : QueryScanState
  /-- Bytes of the in-flight candidate sequence, starting with ESC. -/
  seq : List UInt8
deriving DecidableEq, Repr

def OutputQueryScanner.new : OutputQueryScanner := ⟨.ground, []⟩

/-! ## The queries -/

def isAsciiDigit (byte : UInt8) : Bool := 0x30 ≤ byte && byte ≤ 0x39

def isDa1Query (seq : List UInt8) : Bool :=
  match (seq.drop 2).getLast? with
  | none => false
  | some finalByte =>
    finalByte == 0x63 && (seq.drop 2).dropLast.all fun byte => isAsciiDigit byte || byte == 0x3b

def probeQuery (seq : List UInt8) : Option HostAnsweredQuery :=
  if seq.drop 2 = [0x36, 0x6e] then some .cursorPosition
  else if seq.drop 2 = [0x3f, 0x75] then some .kittyFlags
  else none

/-- `strip_suffix`. -/
def stripEnd (ending bytes : List UInt8) : Option (List UInt8) :=
  if ending <:+ bytes then some (bytes.take (bytes.length - ending.length)) else none

/-- `strip_prefix`. -/
def stripStart (start bytes : List UInt8) : Option (List UInt8) :=
  if start <+: bytes then some (bytes.drop start.length) else none

/-- `str::parse::<u16>` of at most three bytes: digits, after a plus sign or not. -/
def parseIndex (bytes : List UInt8) : Option Nat :=
  let digits := if bytes.head? = some 0x2b then bytes.tail else bytes
  if digits ≠ [] ∧ digits.all isAsciiDigit then
    some (digits.foldl (fun value digit => 10 * value + (digit.toNat - 0x30)) 0)
  else none

def oscColorQuery (seq : List UInt8) : Option HostAnsweredQuery := do
  let body ← stripEnd [0x07] (seq.drop 2) <|> stripEnd [0x1b, 0x5c] (seq.drop 2)
  if body = [0x31, 0x30, 0x3b, 0x3f] then return .oscColor 10
  if body = [0x31, 0x31, 0x3b, 0x3f] then return .oscColor 11
  let rest ← stripStart [0x34, 0x3b] body
  let indexBytes ← stripEnd [0x3b, 0x3f] rest
  if indexBytes = [] ∨ indexBytes.length > 3 then none
  else
    let index ← parseIndex indexBytes
    if index < 256 then return .oscPalette index else none

/-! ## Scanning -/

/-- The scanner after a byte, what it passes on, and the queries it has found. -/
structure Scanned where
  scanner : OutputQueryScanner
  out : List UInt8
  queries : List HostAnsweredQuery
deriving DecidableEq, Repr

/-- `flush_into`, after the byte was pushed. -/
def flushInto (seq : List UInt8) : Scanned := ⟨.new, seq, []⟩

/-- The sequence goes on. -/
def hold (state : QueryScanState) (seq : List UInt8) : Scanned := ⟨⟨state, seq⟩, [], []⟩

/-- The sequence was a query. -/
def answer (query : HostAnsweredQuery) : Scanned := ⟨.new, [], [query]⟩

section

variable (interceptProbes : Bool) (seq : List UInt8) (byte : UInt8)

/-- A byte in the state `Escape`. -/
def scanEscape : Scanned :=
  -- DECID: obsolete DA1 request, answered like CSI c.
  if byte = 0x5a then answer .da1
  else if byte = 0x5b then hold .csi (seq ++ [byte])
  else if byte = 0x5d ∧ interceptProbes = true then hold .osc (seq ++ [byte])
  -- ESC ESC: emit the first, keep scanning from the second.
  else if byte = 0x1b then ⟨⟨.escape, seq⟩, [0x1b], []⟩
  else flushInto (seq ++ [byte])

/-- A byte in the state `Csi`. -/
def scanCsi : Scanned :=
  -- Parameter and intermediate bytes.
  if 0x20 ≤ byte ∧ byte ≤ 0x3f then
    if (seq ++ [byte]).length > queryScanMaxSequenceBytes then flushInto (seq ++ [byte])
    else hold .csi (seq ++ [byte])
  -- Final byte terminates the CSI sequence.
  else if 0x40 ≤ byte ∧ byte ≤ 0x7e then
    if isDa1Query (seq ++ [byte]) then answer .da1
    else
      match if interceptProbes then probeQuery (seq ++ [byte]) else none with
      | some query => answer query
      | none => flushInto (seq ++ [byte])
  -- ESC aborts the CSI and starts a new sequence.
  else if byte = 0x1b then ⟨⟨.escape, [0x1b]⟩, seq, []⟩
  else flushInto (seq ++ [byte])

end

/-- The end of an OSC. -/
def scanOscEnd (seq : List UInt8) : Scanned :=
  match oscColorQuery seq with
  | some query => answer query
  | none => flushInto seq

/-- A byte in the state `Osc`. -/
def scanOsc (seq : List UInt8) (byte : UInt8) : Scanned :=
  if byte = 0x07 then scanOscEnd (seq ++ [byte])
  else if byte = 0x1b then hold .oscEscape (seq ++ [byte])
  else if (seq ++ [byte]).length > queryScanMaxSequenceBytes then flushInto (seq ++ [byte])
  else hold .osc (seq ++ [byte])

/-- A byte in the state `OscEscape`. -/
def scanOscEscape (interceptProbes : Bool) (seq : List UInt8) (byte : UInt8) : Scanned :=
  if byte = 0x5c then scanOscEnd (seq ++ [byte])
  else
    -- Not an ST: abort the OSC candidate, restart on ESC.
    let restarted := scanEscape interceptProbes [0x1b] byte
    { restarted with out := seq.take (seq.length - 1) ++ restarted.out }

def OutputQueryScanner.scanByte (interceptProbes : Bool) (scanner : OutputQueryScanner) (byte : UInt8) : Scanned :=
  match scanner.state with
  | .ground => if byte = 0x1b then hold .escape (scanner.seq ++ [byte]) else ⟨scanner, [byte], []⟩
  | .escape => scanEscape interceptProbes scanner.seq byte
  | .csi => scanCsi interceptProbes scanner.seq byte
  | .osc => scanOsc scanner.seq byte
  | .oscEscape => scanOscEscape interceptProbes scanner.seq byte

def OutputQueryScanner.scan (interceptProbes : Bool) : OutputQueryScanner → List UInt8 → Scanned
  | scanner, [] => ⟨scanner, [], []⟩
  | scanner, byte :: input =>
    let first := scanner.scanByte interceptProbes byte
    let rest := first.scanner.scan interceptProbes input
    ⟨rest.scanner, first.out ++ rest.out, first.queries ++ rest.queries⟩

def OutputQueryScanner.takePending (scanner : OutputQueryScanner) : OutputQueryScanner × List UInt8 :=
  (.new, scanner.seq)

/-! ## What scanning does to a stream -/

/-- A query, and the bytes it was asked in. -/
def IsQuery (bytes : List UInt8) (query : HostAnsweredQuery) : Prop :=
  (bytes = [0x1b, 0x5a] ∧ query = .da1) ∨
    ([0x1b, 0x5b] <+: bytes ∧ (isDa1Query bytes = true ∧ query = .da1 ∨ probeQuery bytes = some query)) ∨
    ([0x1b, 0x5d] <+: bytes ∧ oscColorQuery bytes = some query)

/-- A piece of the output: passed on, or a query. -/
inductive Piece
  | passed (bytes : List UInt8)
  | query (bytes : List UInt8) (found : HostAnsweredQuery)

def Piece.bytes : Piece → List UInt8
  | .passed bytes => bytes
  | .query bytes _ => bytes

def Piece.out : Piece → List UInt8
  | .passed bytes => bytes
  | .query _ _ => []

def Piece.queries : Piece → List HostAnsweredQuery
  | .passed _ => []
  | .query _ found => [found]

def Piece.Ok : Piece → Prop
  | .passed _ => True
  | .query bytes found => IsQuery bytes found

/-- `bytes` is cut into pieces and the rest that is held. -/
def Cut (bytes : List UInt8) (scanned : Scanned) : Prop :=
  ∃ pieces : List Piece, bytes = pieces.flatMap Piece.bytes ++ scanned.scanner.seq ∧
    scanned.out = pieces.flatMap Piece.out ∧ scanned.queries = pieces.flatMap Piece.queries ∧
    ∀ piece ∈ pieces, piece.Ok

/-- What is held in each state. -/
def OutputQueryScanner.Held (scanner : OutputQueryScanner) : Prop :=
  match scanner.state with
  | .ground => scanner.seq = []
  | .escape => scanner.seq = [0x1b]
  | .csi => [0x1b, 0x5b] <+: scanner.seq ∧ scanner.seq.length ≤ queryScanMaxSequenceBytes
  | .osc => [0x1b, 0x5d] <+: scanner.seq ∧ scanner.seq.length ≤ queryScanMaxSequenceBytes
  | .oscEscape => ∃ before, scanner.seq = before ++ [0x1b] ∧ [0x1b, 0x5d] <+: before ∧
      before.length ≤ queryScanMaxSequenceBytes

section Scan

variable {interceptProbes : Bool} {scanner : OutputQueryScanner} {seq bytes : List UInt8} {byte : UInt8}
  {scanned : Scanned} {state : QueryScanState} {query : HostAnsweredQuery}

theorem cut_flush : Cut seq (flushInto seq) :=
  ⟨[.passed seq], by simp [flushInto, Piece.bytes, OutputQueryScanner.new], by simp [flushInto, Piece.out], rfl, by
    simp [Piece.Ok]⟩

theorem cut_hold : Cut seq (hold state seq) :=
  ⟨[], rfl, rfl, rfl, by simp⟩

theorem cut_answer (h : IsQuery seq query) : Cut seq (answer query) :=
  ⟨[.query seq query], by simp [answer, Piece.bytes, OutputQueryScanner.new], rfl, rfl, by simpa [Piece.Ok] using h⟩

/-- What is passed on first stands before the pieces. -/
theorem Cut.passed (h : Cut bytes scanned) :
    Cut (before ++ bytes) { scanned with out := before ++ scanned.out } := by
  obtain ⟨pieces, hbytes, hout, hqueries, hok⟩ := h
  refine ⟨.passed before :: pieces, ?_, ?_, ?_, ?_⟩
  · rw [hbytes, flatMap_cons, append_assoc]
    rfl
  · show before ++ scanned.out = _
    rw [hout, flatMap_cons]
    rfl
  · rw [flatMap_cons]
    exact hqueries
  · exact forall_mem_cons.mpr ⟨trivial, hok⟩

theorem held_new : OutputQueryScanner.new.Held := rfl

variable (interceptProbes : Bool)

theorem scanEscape_spec (byte : UInt8) : (scanEscape interceptProbes [0x1b] byte).scanner.Held ∧
      Cut ([0x1b] ++ [byte]) (scanEscape interceptProbes [0x1b] byte) := by
  unfold scanEscape
  split
  · rename_i hz
    subst hz
    exact ⟨held_new, cut_answer (.inl ⟨rfl, rfl⟩)⟩
  · split
    · rename_i hcsi
      subst hcsi
      exact ⟨⟨prefix_rfl, by decide⟩, cut_hold⟩
    · split
      · rename_i hosc
        rw [hosc.1]
        exact ⟨⟨prefix_rfl, by decide⟩, cut_hold⟩
      · split
        · rename_i hesc
          subst hesc
          exact ⟨rfl, [.passed [0x1b]], rfl, rfl, rfl, by simp [Piece.Ok]⟩
        · exact ⟨held_new, cut_flush⟩

theorem scanCsi_spec (hseq : [0x1b, 0x5b] <+: seq) :
    (scanCsi interceptProbes seq byte).scanner.Held ∧ Cut (seq ++ [byte]) (scanCsi interceptProbes seq byte) := by
  have hmore : [0x1b, 0x5b] <+: seq ++ [byte] := hseq.trans (prefix_append _ _)
  unfold scanCsi
  split
  · split
    · exact ⟨held_new, cut_flush⟩
    · rename_i hlen
      exact ⟨⟨hmore, Nat.le_of_not_lt hlen⟩, cut_hold⟩
  · split
    · split
      · rename_i hda1
        exact ⟨held_new, cut_answer (.inr (.inl ⟨hmore, .inl ⟨hda1, rfl⟩⟩))⟩
      · split
        · rename_i query hprobe
          have hquery : probeQuery (seq ++ [byte]) = some query := by
            cases interceptProbes with
            | true => exact hprobe
            | false => cases hprobe
          exact ⟨held_new, cut_answer (.inr (.inl ⟨hmore, .inr hquery⟩))⟩
        · exact ⟨held_new, cut_flush⟩
    · split
      · rename_i hesc
        subst hesc
        refine ⟨rfl, [.passed seq], ?_, ?_, rfl, ?_⟩
        · simp [Piece.bytes]
        · simp [Piece.out]
        · simp [Piece.Ok]
      · exact ⟨held_new, cut_flush⟩

section

variable (hseq : [0x1b, 0x5d] <+: seq)

include hseq

theorem scanOscEnd_spec : (scanOscEnd seq).scanner.Held ∧ Cut seq (scanOscEnd seq) := by
  unfold scanOscEnd
  split
  · rename_i hquery
    exact ⟨held_new, cut_answer (.inr (.inr ⟨hseq, hquery⟩))⟩
  · exact ⟨held_new, cut_flush⟩

theorem scanOsc_spec (hlen : seq.length ≤ queryScanMaxSequenceBytes) :
    (scanOsc seq byte).scanner.Held ∧ Cut (seq ++ [byte]) (scanOsc seq byte) := by
  have hmore : [0x1b, 0x5d] <+: seq ++ [byte] := hseq.trans (prefix_append _ _)
  unfold scanOsc
  split
  · exact scanOscEnd_spec hmore
  · split
    · rename_i hesc
      subst hesc
      exact ⟨⟨seq, rfl, hseq, hlen⟩, cut_hold⟩
    · split
      · exact ⟨held_new, cut_flush⟩
      · rename_i hshort
        exact ⟨⟨hmore, Nat.le_of_not_lt hshort⟩, cut_hold⟩

theorem scanOscEscape_spec : (scanOscEscape interceptProbes (seq ++ [0x1b]) byte).scanner.Held ∧
      Cut (seq ++ [0x1b] ++ [byte]) (scanOscEscape interceptProbes (seq ++ [0x1b]) byte) := by
  unfold scanOscEscape
  split
  · exact scanOscEnd_spec (hseq.trans (by rw [append_assoc]; exact prefix_append _ _))
  · -- the OSC is passed on, and its ESC starts again
    have hrestarted := scanEscape_spec interceptProbes byte
    refine ⟨hrestarted.1, ?_⟩
    have htake : (seq ++ [0x1b]).take ((seq ++ [0x1b]).length - 1) = seq := by simp
    rw [htake, append_assoc]
    exact hrestarted.2.passed

end

/-- **One byte.** -/
theorem scanByte_spec (h : scanner.Held) (interceptProbes : Bool) (byte : UInt8) :
    (scanner.scanByte interceptProbes byte).scanner.Held ∧
      Cut (scanner.seq ++ [byte]) (scanner.scanByte interceptProbes byte) := by
  obtain ⟨state, seq⟩ := scanner
  cases state with
  | ground =>
    obtain rfl : seq = [] := h
    show (if byte = 0x1b then _ else _ : Scanned).scanner.Held ∧ Cut _ (if byte = 0x1b then _ else _)
    split
    · rename_i hesc
      subst hesc
      exact ⟨rfl, cut_hold⟩
    · exact ⟨rfl, cut_flush⟩
  | escape =>
    obtain rfl : seq = [0x1b] := h
    exact scanEscape_spec interceptProbes byte
  | csi => exact scanCsi_spec interceptProbes h.1
  | osc => exact scanOsc_spec h.1 h.2
  | oscEscape =>
    obtain ⟨before, hseq, hstart, -⟩ := h
    obtain rfl : seq = before ++ [0x1b] := hseq
    exact scanOscEscape_spec interceptProbes hstart

theorem Cut.append (h : Cut bytes first) (h' : Cut (first.scanner.seq ++ input) second) :
    Cut (bytes ++ input) ⟨second.scanner, first.out ++ second.out, first.queries ++ second.queries⟩ := by
  obtain ⟨pieces, hbytes, hout, hqueries, hok⟩ := h
  obtain ⟨pieces', hbytes', hout', hqueries', hok'⟩ := h'
  refine ⟨pieces ++ pieces', ?_, ?_, ?_, ?_⟩
  · rw [hbytes, append_assoc, hbytes', flatMap_append, append_assoc]
  · rw [flatMap_append, hout, hout']
  · rw [flatMap_append, hqueries, hqueries']
  · intro piece hpiece
    rcases mem_append.mp hpiece with hin | hin
    · exact hok piece hin
    · exact hok' piece hin

/-- **A read.** What was held and what was read is passed on, but for the queries and what is held now. -/
theorem scan_spec (h : scanner.Held) (interceptProbes : Bool) (input : List UInt8) :
    (scanner.scan interceptProbes input).scanner.Held ∧
      Cut (scanner.seq ++ input) (scanner.scan interceptProbes input) := by
  induction input generalizing scanner with
  | nil =>
    refine ⟨h, [], ?_, rfl, rfl, by simp⟩
    rw [append_nil]
    rfl
  | cons byte input ih =>
    obtain ⟨hheld, hcut⟩ := scanByte_spec h interceptProbes byte
    obtain ⟨hheld', hcut'⟩ := ih hheld
    refine ⟨hheld', ?_⟩
    rw [show scanner.seq ++ byte :: input = scanner.seq ++ [byte] ++ input by simp]
    exact hcut.append hcut'

/-- Nothing is passed on that was not read. -/
theorem Cut.length_out_le (h : Cut bytes scanned) : scanned.out.length ≤ bytes.length := by
  obtain ⟨pieces, hbytes, hout, -, -⟩ := h
  have hpieces : (pieces.flatMap Piece.out).length ≤ (pieces.flatMap Piece.bytes).length := by
    clear hbytes hout
    induction pieces with
    | nil => exact Nat.le_refl _
    | cons piece pieces ih =>
      rw [flatMap_cons, flatMap_cons, length_append, length_append]
      cases piece with
      | passed => exact Nat.add_le_add (Nat.le_refl _) ih
      | query => exact Nat.add_le_add (Nat.zero_le _) ih
  rw [hout, hbytes, length_append]
  exact Nat.le_add_right_of_le hpieces

theorem OutputQueryScanner.Held.length_le (h : scanner.Held) : scanner.seq.length ≤ queryScanMaxSequenceBytes + 1 := by
  obtain ⟨state, seq⟩ := scanner
  cases state with
  | ground =>
    obtain rfl : seq = [] := h
    exact Nat.zero_le _
  | escape =>
    obtain rfl : seq = [0x1b] := h
    decide
  | csi | osc => exact Nat.le_succ_of_le h.2
  | oscEscape =>
    obtain ⟨before, hseq, -, hlen⟩ := h
    obtain rfl : seq = before ++ [0x1b] := hseq
    show (before ++ [0x1b]).length ≤ _
    rw [length_append]
    exact Nat.succ_le_succ hlen

/-- A scanner that holds nothing is a new one. -/
theorem OutputQueryScanner.Held.eq_new (h : scanner.Held) (hseq : scanner.seq = []) : scanner = .new := by
  obtain ⟨state, seq⟩ := scanner
  obtain rfl : seq = [] := hseq
  cases state with
  | ground => rfl
  | escape => cases h
  | csi | osc => exact absurd h.1 (by decide)
  | oscEscape =>
    obtain ⟨before, hseq, -, -⟩ := h
    exact absurd hseq (by simp)

end Scan

end Supercli.Output
