import Supercli.Output.Handover

/-!
# `Output.Excision` — a Session's output through the query scanner

What one scanner does to all reads of a Session's output. No byte is lost: the output is the input, with the queries
taken out where they stood (`reads_conserved`).

What is passed on may still hold a query. An ESC inside a sequence gives the sequence up: it is passed on as far as it
was read, and the ESC begins the next one. If the next one is a query and is taken out, what follows it continues the
sequence that was given up (`joined_da1`). Where no query is taken out behind such a sequence, a scanner that reads the
output again finds nothing (`excised_quiet`).
-/

namespace Supercli.Output

open List OutputQueryScanner Handover OutputQueryScanner

/-! ## No byte is lost -/

section Reads

variable {scanner : OutputQueryScanner} {bytes : List UInt8} {scanned : Scanned}

theorem scanReads_spec (h : scanner.Held) (reads : List (List UInt8 × Bool)) : (scanReads scanner reads).scanner.Held ∧
      Cut (scanner.seq ++ reads.flatMap Prod.fst) (scanReads scanner reads) := by
  induction reads generalizing scanner with
  | nil =>
    refine ⟨h, [], ?_, rfl, rfl, by simp⟩
    rw [flatMap_nil, append_nil]
    rfl
  | cons read reads ih =>
    obtain ⟨hheld, hcut⟩ := scan_spec h read.2 read.1
    obtain ⟨hheld', hcut'⟩ := ih hheld
    refine ⟨hheld', ?_⟩
    rw [flatMap_cons, ← append_assoc]
    exact hcut.append hcut'

/-- **Every other byte is conserved**, over all reads and at every byte, since the last read may stop anywhere. What is
    held has room for the byte that is pushed next. -/
theorem reads_conserved (reads : List (List UInt8 × Bool)) : let scanned := scanReads .new reads
    scanned.scanner.seq.length + 1 ≤ queryScanMaxSequenceBytes + 2 ∧ ∃ pieces : List Piece,
        reads.flatMap Prod.fst = pieces.flatMap Piece.bytes ++ scanned.scanner.takePending.2 ∧
        scanned.out = pieces.flatMap Piece.out ∧ scanned.queries = pieces.flatMap Piece.queries ∧
        ∀ bytes query, .query bytes query ∈ pieces → IsQuery bytes query := by
  obtain ⟨hheld, pieces, hbytes, hout, hqueries, hok⟩ := scanReads_spec held_new reads
  refine ⟨Nat.succ_le_succ hheld.length_le, pieces, hbytes, hout, hqueries, ?_⟩
  intro bytes query hpiece
  exact hok _ hpiece

/-- Where no query was found, everything is passed on or held. -/
theorem Cut.eq_of_quiet (h : Cut bytes scanned) (hquiet : scanned.queries = []) :
    bytes = scanned.out ++ scanned.scanner.seq := by
  obtain ⟨pieces, hbytes, hout, hqueries, -⟩ := h
  rw [hbytes, hout]
  congr 1
  have hpassed : ∀ piece ∈ pieces, piece.queries = [] := flatMap_eq_nil_iff.mp (hqueries ▸ hquiet)
  refine flatMap_congr fun piece hpiece => ?_
  cases piece with
  | passed => rfl
  | query => cases hpassed _ hpiece

end Reads

/-! ## The queries that are taken out -/

/-- Whether a complete sequence is answered. -/
def isAnswered (interceptProbes : Bool) (bytes : List UInt8) : Bool :=
  bytes == [0x1b, 0x5a] || isDa1Query bytes || interceptProbes && (probeQuery bytes).isSome ||
    (oscColorQuery bytes).isSome

/-- The sequence that ends with a byte. An ESC in an OSC begins a new one, unless it is the start of ST. -/
def OutputQueryScanner.sequenceTo (scanner : OutputQueryScanner) (byte : UInt8) : List UInt8 :=
  if scanner.state = .oscEscape ∧ byte ≠ 0x5c then [0x1b, byte] else scanner.seq ++ [byte]

/-- Whether a byte belongs to a sequence that began in the ground state, and not on an ESC that gave up another one. -/
def OutputQueryScanner.begunAfresh (scanner : OutputQueryScanner) (afresh : Bool) (byte : UInt8) : Bool :=
  match scanner.state with
  | .ground => true
  | .escape | .csi => afresh && byte != 0x1b
  | .osc => afresh
  | .oscEscape => afresh && byte == 0x5c

/-- No query begins on an ESC that gave up another sequence. -/
def undisturbed : OutputQueryScanner → Bool → List (UInt8 × Bool) → Bool
  | _, _, [] => true
  | scanner, afresh, (byte, interceptProbes) :: input =>
    (scanner.begunAfresh afresh byte || !isAnswered interceptProbes (scanner.sequenceTo byte)) &&
      undisturbed (scanner.scanByte interceptProbes byte).scanner (scanner.begunAfresh afresh byte) input

/-- The bytes of all reads, each with the flag of its read. -/
def flaggedBytes (reads : List (List UInt8 × Bool)) : List (UInt8 × Bool) :=
  reads.flatMap fun read => read.1.map (·, read.2)

/-- The scanner of a second reading. One that does not intercept probes does not hold an OSC. -/
def OutputQueryScanner.again (interceptProbes : Bool) (scanner : OutputQueryScanner) : OutputQueryScanner :=
  match interceptProbes, scanner.state with
  | false, .osc => .new
  | false, .oscEscape => ⟨.escape, [0x1b]⟩
  | _, _ => scanner

section Byte

variable {probes flag afresh : Bool} {scanner : OutputQueryScanner} {byte : UInt8}

/-- A query that is found is answered, and the scanner begins anew. -/
theorem scanByte_answered (hheld : scanner.Held) (h : (scanner.scanByte flag byte).queries ≠ []) :
    isAnswered flag (scanner.sequenceTo byte) = true ∧ (scanner.scanByte flag byte).scanner = .new := by
  obtain ⟨state, seq⟩ := scanner
  cases state with
  | ground => grind [scanByte, hold]
  | escape => grind [scanByte, scanEscape, hold, answer, flushInto, isAnswered, sequenceTo, Held]
  | csi => grind [scanByte, scanCsi, hold, answer, flushInto, isAnswered, sequenceTo]
  | osc => grind [scanByte, scanOsc, scanOscEnd, hold, answer, flushInto, isAnswered, sequenceTo]
  | oscEscape =>
    grind [scanByte, scanOscEscape, scanEscape, scanOscEnd, hold, answer, flushInto, isAnswered, sequenceTo]

/-- A byte of a sequence that was begun afresh: nothing is passed on, or the whole sequence is. -/
theorem scanByte_afresh (hheld : scanner.Held) (h : scanner.begunAfresh afresh byte = true) :
    (scanner.scanByte flag byte).out = [] ∨
      (scanner.scanByte flag byte).scanner = .new ∧ (scanner.scanByte flag byte).queries = [] := by
  obtain ⟨state, seq⟩ := scanner
  cases state with
  | ground => grind [scanByte, hold, Held, new]
  | escape => grind [scanByte, scanEscape, hold, answer, flushInto, begunAfresh]
  | csi => grind [scanByte, scanCsi, hold, answer, flushInto, begunAfresh]
  | osc => grind [scanByte, scanOsc, scanOscEnd, hold, answer, flushInto]
  | oscEscape => grind [scanByte, scanOscEscape, scanOscEnd, hold, answer, flushInto, begunAfresh]

theorem again_new : new.again probes = .new := by
  cases probes <;> rfl

/-- A byte that completes no query is read as it was the first time. -/
theorem scanByte_again (hheld : scanner.Held) (hprobes : probes = true → flag = true)
    (h : (scanner.scanByte flag byte).queries = []) :
    ((scanner.again probes).scanByte probes byte).scanner = (scanner.scanByte flag byte).scanner.again probes ∧
      ((scanner.again probes).scanByte probes byte).queries = [] := by
  cases probes with
  | true =>
    obtain rfl := hprobes rfl
    simpa [again] using h
  | false =>
    obtain ⟨state, seq⟩ := scanner
    cases state with
    | ground => grind [scanByte, hold, again]
    | escape => grind [scanByte, scanEscape, hold, answer, flushInto, again, Held, new]
    | csi => grind [scanByte, scanCsi, hold, answer, flushInto, again, new]
    | osc => grind [scanByte, scanOsc, scanOscEnd, hold, answer, flushInto, again, new]
    | oscEscape =>
      grind [scanByte, scanOscEscape, scanEscape, scanOscEnd, hold, answer, flushInto, again, new]

end Byte

/-! ## Reading the output again -/

/-- What was passed on is scanned again. -/
def rescan (probes : Bool) (out : List UInt8) : Scanned := new.scan probes out

/-- What was passed on, read again with what is held, leaves the second scanner where the first one is, without a query;
    where the first holds a sequence that was begun afresh, what was passed on leaves the second in the ground state. -/
structure Quiet (probes : Bool) (out : List UInt8) (scanner : OutputQueryScanner) (afresh : Bool) : Prop where
  held : scanner.Held
  ends : (rescan probes (out ++ scanner.seq)).scanner = scanner.again probes
  queries : (rescan probes (out ++ scanner.seq)).queries = []
  ground : afresh = true → (rescan probes out).scanner = .new

section Again

variable {probes flag afresh : Bool} {scanner : OutputQueryScanner} {out : List UInt8} {byte : UInt8}

theorem rescan_append (probes : Bool) (out more : List UInt8) :
    (rescan probes (out ++ more)).scanner = ((rescan probes out).scanner.scan probes more).scanner ∧
      (rescan probes (out ++ more)).queries =
        (rescan probes out).queries ++ ((rescan probes out).scanner.scan probes more).queries := by
  unfold rescan
  generalize new = scanner
  induction out generalizing scanner with
  | nil => exact ⟨rfl, rfl⟩
  | cons byte out ih => simp [scan, ih, append_assoc]

section

variable (h : Quiet probes out scanner afresh)

include h

theorem Quiet.queries_out : (rescan probes out).queries = [] := by
  have hqueries := h.queries
  rw [(rescan_append _ _ _).2] at hqueries
  exact (append_eq_nil_iff.mp hqueries).1

/-- Where a sequence was begun afresh, the second scanner was in the ground state. -/
theorem Quiet.ground_of_begun (hbegun : scanner.begunAfresh afresh byte = true) :
    (rescan probes out).scanner = .new := by
  cases hstate : scanner.state with
  | ground =>
    have hseq : scanner.seq = [] := by simpa [Held, hstate] using h.held
    have hends := h.ends
    rwa [hseq, append_nil, h.held.eq_new hseq, again_new] at hends
  | _ => exact h.ground (by simp_all [begunAfresh])

/-- **A byte.** -/
theorem Quiet.step (hprobes : probes = true → flag = true)
    (hclean : scanner.begunAfresh afresh byte = true ∨ isAnswered flag (scanner.sequenceTo byte) = false) :
    Quiet probes (out ++ (scanner.scanByte flag byte).out) (scanner.scanByte flag byte).scanner
      (scanner.begunAfresh afresh byte) := by
  obtain ⟨hheld, hcut⟩ := scanByte_spec h.held flag byte
  by_cases hquiet : (scanner.scanByte flag byte).queries = []
  · have hbytes : out ++ (scanner.scanByte flag byte).out ++ (scanner.scanByte flag byte).scanner.seq =
        out ++ scanner.seq ++ [byte] := by
      rw [append_assoc, ← hcut.eq_of_quiet hquiet, append_assoc]
    obtain ⟨hends, hqueries⟩ := scanByte_again h.held hprobes hquiet
    rw [← h.ends] at hends hqueries
    have hrescan := rescan_append probes (out ++ scanner.seq) [byte]
    rw [← hbytes] at hrescan
    refine ⟨hheld, hrescan.1.trans hends, hrescan.2.trans ?_, ?_⟩
    · simp [scan, h.queries, hqueries]
    · intro hbegun
      rcases scanByte_afresh h.held hbegun with hout | ⟨hnew, -⟩
      · rw [hout, append_nil]
        exact h.ground_of_begun hbegun
      · have hground := hrescan.1.trans hends
        rwa [hnew, again_new, show new.seq = [] from rfl, append_nil] at hground
  · -- a query is taken out: it was begun afresh, and what was passed on before it stands alone
    obtain ⟨hanswered, hnew⟩ := scanByte_answered h.held hquiet
    have hbegun : scanner.begunAfresh afresh byte = true := hclean.resolve_right (by simp [hanswered])
    have hout := (scanByte_afresh h.held hbegun).resolve_right fun h => hquiet h.2
    have hground := h.ground_of_begun hbegun
    have hnil : out ++ new.seq = out := append_nil out
    rw [hnew, hout, append_nil]
    exact ⟨held_new, by rw [hnil, hground, again_new], by rw [hnil, h.queries_out], fun _ => hground⟩

/-- **A run.** -/
theorem Quiet.reads {reads : List (List UInt8 × Bool)} (hprobes : probes = true → ∀ read ∈ reads, read.2 = true)
    (hclean : undisturbed scanner afresh (flaggedBytes reads) = true) :
    (rescan probes (out ++ (scanReads scanner reads).out)).queries = [] := by
  induction reads generalizing scanner out afresh with
  | nil => simpa [scanReads] using h.queries_out
  | cons read reads ih =>
    obtain ⟨bytes, flag⟩ := read
    obtain ⟨hread, hreads⟩ : (probes = true → flag = true) ∧ (probes = true → ∀ read ∈ reads, read.2 = true) :=
      ⟨fun hp => hprobes hp _ mem_cons_self, fun hp read hread => hprobes hp read (mem_cons_of_mem _ hread)⟩
    clear hprobes
    simp only [scanReads]
    induction bytes generalizing scanner out afresh with
    | nil => exact ih h hreads hclean
    | cons byte bytes ihb =>
      simp only [flaggedBytes, flatMap_cons, map_cons, cons_append, undisturbed, Bool.and_eq_true, Bool.or_eq_true,
        Bool.not_eq_true'] at hclean
      simpa [scan] using ihb (h.step hread hclean.1) hclean.2

end

/-- **Where no query is taken out behind a sequence that was given up**, the output read again holds no query, and is
    passed on as it is: without the probes in any case, and with them if they were intercepted in all reads. -/
theorem excised_quiet (probes : Bool) (reads : List (List UInt8 × Bool))
    (hprobes : probes = true → ∀ read ∈ reads, read.2 = true)
    (hclean : undisturbed .new false (flaggedBytes reads) = true) :
    let again := rescan probes (scanReads .new reads).out
    again.queries = [] ∧ again.out ++ again.scanner.takePending.2 = (scanReads .new reads).out := by
  have hnew : Quiet probes [] .new false := ⟨held_new, again_new.symm, rfl, nofun⟩
  have hquiet := hnew.reads hprobes hclean
  exact ⟨hquiet, ((scan_spec held_new probes _).2.eq_of_quiet hquiet).symm⟩

/-- A sequence that is given up for another one, and queries begun afresh, in reads that cut both. -/
theorem excised_quiet_given_up : let reads : List (List UInt8 × Bool) :=
      [([0x1b, 0x5b, 0x31], true), ([0x1b, 0x5b, 0x6d, 0x1b, 0x5b], true), ([0x36, 0x6e, 0x41, 0x1b, 0x5a], true)]
    (scanReads .new reads).queries = [.cursorPosition, .da1] ∧
      (rescan true (scanReads .new reads).out).queries = [] ∧
        (scanReads .new reads).out = [0x1b, 0x5b, 0x31, 0x1b, 0x5b, 0x6d, 0x41] :=
  ⟨by decide, (excised_quiet true _ (by decide) (by decide)).1, by decide⟩

/-- `ESC [ ESC Z c` is passed on as `ESC [ c`, and with probes `ESC ] 10;? ESC Z BEL` as the OSC query. -/
theorem joined_da1 :
    (∀ flag, (rescan false (scanReads .new [([0x1b, 0x5b, 0x1b, 0x5a, 0x63], flag)]).out).queries = [.da1]) ∧
      (rescan true (scanReads .new [([0x1b, 0x5d, 0x31, 0x30, 0x3b, 0x3f, 0x1b, 0x5a, 0x07], true)]).out).queries =
        [.oscColor 10] := by
  decide

end Again

end Supercli.Output
