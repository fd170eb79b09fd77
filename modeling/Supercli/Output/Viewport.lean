import Supercli.Output.QueryScanner

/-!
# `Output.Viewport` — the Host's own terminal and its snapshots

The Host feeds what it publishes to a terminal of its own. Kitty graphics are taken out before that. A client that
attaches asks for a snapshot of the screen and the offset it was taken at, and goes on with the stream from there.

The terminal is libghostty-vt's, and a parameter here (`Terminal`): it reads bytes one at a time, and what it renders
brings back the screen, but not what it has read of a sequence or a rune. So a snapshot is as good as the whole stream
if the stream so far is made of whole pieces (`Whole`, `snapshot_seamless`), and not in the middle of one
(`snapshot_inside_graphics`).
-/

namespace Supercli.Output

open List

/-! ## The terminal -/

/-- A terminal: a screen, and what is half read. -/
structure Terminal where
  Screen : Type
  Half : Type
  blank : Screen
  /-- Nothing is half read. -/
  ground : Half
  feed : Screen × Half → UInt8 → Screen × Half
  /-- Column and row. -/
  cursor : Screen → Nat × Nat
  /-- `render_snapshot_vt`. -/
  render : Screen → List UInt8

/-- A terminal that was given some bytes. -/
def Terminal.feedAll (T : Terminal) (state : T.Screen × T.Half) (bytes : List UInt8) : T.Screen × T.Half :=
  bytes.foldl T.feed state

theorem Terminal.feedAll_append (T : Terminal) {state : T.Screen × T.Half} :
    T.feedAll state (bytes ++ more) = T.feedAll (T.feedAll state bytes) more :=
  foldl_append

/-- The payload of a kitty sequence. -/
def IsPayload (payload : List UInt8) : Prop := ∀ byte ∈ payload, byte ≠ 0x1b ∧ byte ≠ 0x18 ∧ byte ≠ 0x1a

instance (payload : List UInt8) : Decidable (IsPayload payload) := List.decidableBAll _ _

/-- ST ends a kitty sequence, CAN and SUB abort it. -/
def IsEnding (ending : List UInt8) : Prop := ending = [0x1b, 0x5c] ∨ ending = [0x18] ∨ ending = [0x1a]

instance (ending : List UInt8) : Decidable (IsEnding ending) := inferInstanceAs (Decidable (_ ∨ _))

/-- A kitty graphics sequence. -/
def graphicsBytes (payload ending : List UInt8) : List UInt8 := [0x1b, 0x5f, 0x47] ++ payload ++ ending

/-- What is assumed of the terminal: its snapshot brings back the screen, and graphics do not change it. -/
structure Terminal.Lawful (T : Terminal) : Prop where
  restores : ∀ screen, T.feedAll (T.blank, T.ground) (T.render screen) = (screen, T.ground)
  graphics : ∀ screen payload ending, IsPayload payload → IsEnding ending →
    T.feedAll (screen, T.ground) (graphicsBytes payload ending) = (screen, T.ground)

/-! ## Kitty graphics -/

def maxCapturedApcBytes : Nat := 256 * 1024

def maxCapturedGraphics : Nat := 128

inductive ApcFilterState
  | ground
  /-- ESC seen in ground and withheld; the next byte decides. -/
  | esc
  /-- `ESC _` seen and withheld; `G` makes it a kitty sequence. -/
  | escUnderscore
  /-- Inside a kitty payload — bytes are dropped. -/
  | apc
  /-- Inside a kitty payload, ESC seen — `\` (ST) ends the sequence. -/
  | apcEsc
deriving DecidableEq, Repr

structure KittyApcFilter where
  state : ApcFilterState
  capture : Bool
  /-- The in-flight APC's bytes (including `ESC _ G`), while capturing. -/
  pending : List UInt8
  /-- The in-flight APC exceeded `MAX_CAPTURED_APC_BYTES` and is dropped. -/
  oversized : Bool
deriving DecidableEq, Repr

def KittyApcFilter.default : KittyApcFilter := ⟨.ground, false, [], false⟩

inductive ScanSegment
  | text (bytes : List UInt8)
  | graphics (bytes : List UInt8)
deriving DecidableEq, Repr

def KittyApcFilter.pushPending (filter : KittyApcFilter) (byte : UInt8) : KittyApcFilter :=
  if !filter.capture || filter.oversized then filter
  else if filter.pending.length ≥ maxCapturedApcBytes then { filter with oversized := true, pending := [] }
  else { filter with pending := filter.pending ++ [byte] }

/-- The loop of `KittyApcFilter::scan`. -/
structure ApcScan where
  filter : KittyApcFilter
  segments : List ScanSegment
  text : List UInt8
deriving DecidableEq, Repr

section

variable (scan : ApcScan)

/-- The filter in another state. -/
def ApcScan.to (state : ApcFilterState) : ApcScan :=
  { scan with filter := { scan.filter with state := state } }

def ApcScan.push (bytes : List UInt8) : ApcScan := { scan with text := scan.text ++ bytes }

/-- `ESC \` after a kitty payload. -/
def ApcScan.finishApc : ApcScan :=
  let filter := { scan.filter with state := .ground, pending := [], oversized := false }
  if scan.filter.capture && !scan.filter.oversized && !scan.filter.pending.isEmpty then
    { filter := filter
      segments := scan.segments ++ (if scan.text = [] then [] else [.text scan.text]) ++
        [.graphics (scan.filter.pending ++ [0x1b, 0x5c])]
      text := [] }
  else { scan with filter := filter }

def ApcScan.byte (byte : UInt8) : ApcScan :=
  match scan.filter.state with
  | .ground => if byte = 0x1b then scan.to .esc else scan.push [byte]
  | .esc =>
    if byte = 0x5f then scan.to .escUnderscore
    -- ESC ESC: emit the withheld one, keep waiting.
    else if byte = 0x1b then scan.push [0x1b]
    else (scan.push [0x1b, byte]).to .ground
  | .escUnderscore =>
    if byte = 0x47 then
      let scan := scan.to .apc
      if scan.filter.capture then
        { scan with filter := { scan.filter with pending := [0x1b, 0x5f, 0x47], oversized := false } }
      else scan
    -- A non-kitty APC (e.g. tmux passthrough): emit the withheld introducer and continue untouched.
    else (scan.push [0x1b, 0x5f, byte]).to .ground
  | .apc =>
    if byte = 0x1b then scan.to .apcEsc
    -- CAN/SUB abort the control string.
    else if byte = 0x18 ∨ byte = 0x1a then
      { scan with filter := { scan.filter with state := .ground, pending := [] } }
    else { scan with filter := scan.filter.pushPending byte }
  | .apcEsc =>
    if byte = 0x5c then scan.finishApc
    else if byte ≠ 0x1b then
      let scan := scan.to .apc
      { scan with filter := (scan.filter.pushPending 0x1b).pushPending byte }
    else { scan with filter := scan.filter.pushPending 0x1b }

end

def needsScan (data : List UInt8) : Bool := data.getLast? == some 0x1b || decide ([0x1b, 0x5f] <:+: data)

/-- `KittyApcFilter::scan`: `none` when the chunk passes through untouched. -/
def KittyApcFilter.scan (filter : KittyApcFilter) (data : List UInt8) : KittyApcFilter × Option (List ScanSegment) :=
  if filter.state = .ground ∧ needsScan data = false then (filter, none)
  else
    let scan := data.foldl ApcScan.byte ⟨filter, [], []⟩
    (scan.filter, some (scan.segments ++ (if scan.text = [] then [] else [.text scan.text])))

/-! ## The viewport -/

structure CapturedGraphicsCommand where
  bytes : List UInt8
  row : Nat
  col : Nat
deriving DecidableEq, Repr

structure TerminalViewportState (T : Terminal) where
  term : T.Screen × T.Half
  outputOffset : Nat
  apcFilter : KittyApcFilter
  capturedGraphics : List CapturedGraphicsCommand

variable {T : Terminal}

/-- `TerminalViewportState::new` and `reset_at_output_offset`. -/
def TerminalViewportState.atOffset (T : Terminal) (outputOffset : Nat) : TerminalViewportState T :=
  ⟨(T.blank, T.ground), outputOffset, .default, []⟩

section

variable (viewport : TerminalViewportState T)

def TerminalViewportState.segment : ScanSegment → TerminalViewportState T
  | .text bytes => { viewport with term := T.feedAll viewport.term bytes }
  | .graphics bytes =>
    let kept := if viewport.capturedGraphics.length ≥ maxCapturedGraphics then viewport.capturedGraphics.tail
      else viewport.capturedGraphics
    let (col, row) := T.cursor viewport.term.1
    { viewport with capturedGraphics := kept ++ [⟨bytes, row, col⟩] }

def TerminalViewportState.feed (data : List UInt8) : TerminalViewportState T :=
  let fed :=
    match viewport.apcFilter.scan data with
    | (filter, none) => { viewport with apcFilter := filter, term := T.feedAll viewport.term data }
    | (filter, some segments) => segments.foldl .segment { viewport with apcFilter := filter }
  { fed with outputOffset := fed.outputOffset + data.length }

def TerminalViewportState.snapshotVt : Nat × List UInt8 :=
  (viewport.outputOffset, T.render viewport.term.1)

end

/-! ## What the filter passes on -/

/-- The filter without what it captures: the next state, and the bytes passed on. -/
def ApcFilterState.pass : ApcFilterState → UInt8 → ApcFilterState × List UInt8
  | .ground, byte => if byte = 0x1b then (.esc, []) else (.ground, [byte])
  | .esc, byte =>
    if byte = 0x5f then (.escUnderscore, []) else if byte = 0x1b then (.esc, [0x1b]) else (.ground, [0x1b, byte])
  | .escUnderscore, byte => if byte = 0x47 then (.apc, []) else (.ground, [0x1b, 0x5f, byte])
  | .apc, byte =>
    if byte = 0x1b then (.apcEsc, []) else if byte = 0x18 ∨ byte = 0x1a then (.ground, []) else (.apc, [])
  | .apcEsc, byte => if byte = 0x5c then (.ground, []) else if byte ≠ 0x1b then (.apc, []) else (.apcEsc, [])

def ApcFilterState.passAll : ApcFilterState → List UInt8 → ApcFilterState × List UInt8
  | state, [] => (state, [])
  | state, byte :: bytes =>
    let first := state.pass byte
    let rest := first.1.passAll bytes
    (rest.1, first.2 ++ rest.2)

def ScanSegment.passed : ScanSegment → List UInt8
  | .text bytes => bytes
  | .graphics _ => []

@[simp] def ApcScan.passed (scan : ApcScan) : List UInt8 := scan.segments.flatMap ScanSegment.passed ++ scan.text

open ApcFilterState hiding pass
open TerminalViewportState

section Filter

variable {state : ApcFilterState} {bytes more : List UInt8}

theorem passAll_append : state.passAll (bytes ++ more)
      = (((state.passAll bytes).1.passAll more).1, (state.passAll bytes).2 ++ ((state.passAll bytes).1.passAll more).2) := by
  induction bytes generalizing state with
  | nil => rfl
  | cons byte bytes ih =>
    simp only [cons_append, passAll, ih, append_assoc]

theorem pushPending_state (filter : KittyApcFilter) (byte : UInt8) : (filter.pushPending byte).state = filter.state := by
  unfold KittyApcFilter.pushPending
  split
  · rfl
  · split <;> rfl

theorem finishApc_spec (scan : ApcScan) :
    scan.finishApc.filter.state = .ground ∧ scan.finishApc.passed = scan.passed := by
  simp only [ApcScan.finishApc]
  split
  · refine ⟨rfl, ?_⟩
    by_cases htext : scan.text = []
    · simp [htext, ScanSegment.passed]
    · simp [htext, ScanSegment.passed]
  · exact ⟨rfl, rfl⟩

/-- **One byte**, captured or not. -/
theorem byte_spec (scan : ApcScan) (byte : UInt8) : (scan.byte byte).filter.state = (scan.filter.state.pass byte).1 ∧
      (scan.byte byte).passed = scan.passed ++ (scan.filter.state.pass byte).2 := by
  have hsame : scan.passed = scan.passed ++ [] := (append_nil _).symm
  have hpush : ∀ bytes, (scan.push bytes).passed = scan.passed ++ bytes := by
    intro bytes
    simp [ApcScan.push]
  unfold ApcScan.byte
  cases hstate : scan.filter.state with
  | ground =>
    simp only [ApcFilterState.pass]
    split
    · exact ⟨rfl, hsame⟩
    · exact ⟨hstate, hpush _⟩
  | esc =>
    simp only [ApcFilterState.pass]
    split
    · exact ⟨rfl, hsame⟩
    · split
      · exact ⟨hstate, hpush _⟩
      · exact ⟨rfl, hpush _⟩
  | escUnderscore =>
    simp only [ApcFilterState.pass]
    split
    · split
      · exact ⟨rfl, hsame⟩
      · exact ⟨rfl, hsame⟩
    · exact ⟨rfl, hpush _⟩
  | apc =>
    simp only [ApcFilterState.pass]
    split
    · exact ⟨rfl, hsame⟩
    · split
      · exact ⟨rfl, hsame⟩
      · exact ⟨(pushPending_state _ _).trans hstate, hsame⟩
  | apcEsc =>
    simp only [ApcFilterState.pass]
    split
    · exact ⟨(finishApc_spec scan).1, (finishApc_spec scan).2.trans hsame⟩
    · split
      · exact ⟨(pushPending_state _ _).trans (pushPending_state _ _), hsame⟩
      · exact ⟨(pushPending_state _ _).trans hstate, hsame⟩

theorem bytes_spec (scan : ApcScan) (bytes : List UInt8) :
    (bytes.foldl ApcScan.byte scan).filter.state = (scan.filter.state.passAll bytes).1 ∧
      (bytes.foldl ApcScan.byte scan).passed = scan.passed ++ (scan.filter.state.passAll bytes).2 := by
  induction bytes generalizing scan with
  | nil => exact ⟨rfl, (append_nil _).symm⟩
  | cons byte bytes ih =>
    obtain ⟨hstate, hpassed⟩ := byte_spec scan byte
    obtain ⟨hstate', hpassed'⟩ := ih (scan.byte byte)
    rw [hstate] at hstate' hpassed'
    refine ⟨hstate', ?_⟩
    rw [foldl_cons, hpassed', hpassed, append_assoc]
    rfl

/-- Bytes with no graphics in them, whole or begun. -/
structure NoGraphics (bytes : List UInt8) : Prop where
  none : ¬ [0x1b, 0x5f, 0x47] <:+: bytes
  noEsc : ¬ [0x1b] <:+ bytes
  noIntroducer : ¬ [0x1b, 0x5f] <:+ bytes

theorem NoGraphics.of_suffix (h : NoGraphics bytes) (hs : more <:+ bytes) : NoGraphics more :=
  ⟨fun hin => h.none (hin.trans hs.isInfix), fun hin => h.noEsc (hin.trans hs),
    fun hin => h.noIntroducer (hin.trans hs)⟩

/-- **Text passes untouched**, also where the filter has withheld its first bytes. -/
theorem passAll_text (bytes : List UInt8) : (NoGraphics bytes → ground.passAll bytes = (.ground, bytes)) ∧
      (NoGraphics (0x1b :: bytes) → esc.passAll bytes = (.ground, 0x1b :: bytes)) ∧
      (NoGraphics (0x1b :: 0x5f :: bytes) → escUnderscore.passAll bytes = (.ground, 0x1b :: 0x5f :: bytes)) := by
  induction bytes with
  | nil =>
    refine ⟨fun _ => rfl, fun h => ?_, fun h => ?_⟩
    · exact absurd suffix_rfl h.noEsc
    · exact absurd suffix_rfl h.noIntroducer
  | cons byte bytes ih =>
    obtain ⟨hground, hesc, hintroducer⟩ := ih
    refine ⟨fun h => ?_, fun h => ?_, fun h => ?_⟩
    · by_cases hb : byte = 0x1b
      · subst hb
        simp only [passAll, ApcFilterState.pass, if_true, hesc h, nil_append]
      · have hrest := hground (h.of_suffix (suffix_cons _ _))
        simp only [passAll, ApcFilterState.pass, if_neg hb, hrest, singleton_append]
    · by_cases hu : byte = 0x5f
      · subst hu
        simp only [passAll, ApcFilterState.pass, if_true, hintroducer h, nil_append]
      · by_cases hb : byte = 0x1b
        · subst hb
          have hrest := hesc (h.of_suffix (suffix_cons _ _))
          simp only [passAll, ApcFilterState.pass, if_neg hu, if_true, hrest, singleton_append]
        · have hrest := hground ((h.of_suffix (suffix_cons _ _)).of_suffix (suffix_cons _ _))
          simp only [passAll, ApcFilterState.pass, if_neg hu, if_neg hb, hrest]
          rfl
    · by_cases hg : byte = 0x47
      · subst hg
        exact absurd ⟨[], bytes, rfl⟩ h.none
      · have hrest := hground (((h.of_suffix (suffix_cons _ _)).of_suffix (suffix_cons _ _)).of_suffix
          (suffix_cons _ _))
        simp only [passAll, ApcFilterState.pass, if_neg hg, hrest]
        rfl

/-- **Graphics are dropped.** -/
theorem passAll_graphics (hp : IsPayload payload) (he : IsEnding ending) :
    ground.passAll (graphicsBytes payload ending) = (.ground, []) := by
  have hpayload : apc.passAll payload = (.apc, []) := by
    induction payload with
    | nil => rfl
    | cons byte payload ih =>
      obtain ⟨hesc, hcan, hsub⟩ := hp byte mem_cons_self
      have hrest := ih fun b hb => hp b (mem_cons_of_mem _ hb)
      simp only [passAll, ApcFilterState.pass, if_neg hesc, hcan, hsub, or_self, if_false, hrest, nil_append]
  have hending : apc.passAll ending = (.ground, []) := by
    rcases he with rfl | rfl | rfl <;> decide
  have hintroducer : ground.passAll [0x1b, 0x5f, 0x47] = (.apc, []) := by decide
  rw [graphicsBytes, passAll_append, passAll_append, hintroducer, hpayload, hending]
  rfl

/-- A chunk that needs no scan is text. -/
theorem noGraphics_of_not_needsScan (h : needsScan bytes = false) : NoGraphics bytes := by
  simp only [needsScan, Bool.or_eq_false_iff, beq_eq_false_iff_ne, decide_eq_false_iff_not] at h
  obtain ⟨hlast, hpair⟩ := h
  refine ⟨fun hin => hpair ?_, fun hend => hlast ?_, fun hend => hpair hend.isInfix⟩
  · exact List.IsInfix.trans ⟨[], [0x47], rfl⟩ hin
  · obtain ⟨before, rfl⟩ := hend
    simp

theorem segments_spec (segments : List ScanSegment) (viewport : TerminalViewportState T) :
    (segments.foldl segment viewport).apcFilter = viewport.apcFilter ∧ (segments.foldl segment viewport).term
        = T.feedAll viewport.term (segments.flatMap ScanSegment.passed) ∧
      (segments.foldl segment viewport).outputOffset = viewport.outputOffset := by
  induction segments generalizing viewport with
  | nil => exact ⟨rfl, rfl, rfl⟩
  | cons segment segments ih =>
    obtain ⟨hfilter, hterm, hoffset⟩ := ih (viewport.segment segment)
    rw [foldl_cons, flatMap_cons, T.feedAll_append, hfilter, hterm, hoffset]
    cases segment with
    | text _ | graphics _ => exact ⟨rfl, rfl, rfl⟩

/-- **A chunk**: the filter's state, and the text that the terminal gets. -/
theorem feed_spec (viewport : TerminalViewportState T) (data : List UInt8) :
    (viewport.feed data).apcFilter.state = (viewport.apcFilter.state.passAll data).1 ∧
      (viewport.feed data).term = T.feedAll viewport.term (viewport.apcFilter.state.passAll data).2 ∧
      (viewport.feed data).outputOffset = viewport.outputOffset + data.length := by
  by_cases hfast : viewport.apcFilter.state = .ground ∧ needsScan data = false
  · have hscan : viewport.apcFilter.scan data = (viewport.apcFilter, none) := if_pos hfast
    have htext := (passAll_text data).1 (noGraphics_of_not_needsScan hfast.2)
    simp only [feed, hscan]
    rw [hfast.1, htext]
    exact ⟨rfl, rfl, trivial⟩
  · obtain ⟨hstate, hpassed⟩ := bytes_spec ⟨viewport.apcFilter, [], []⟩ data
    have hscan : viewport.apcFilter.scan data = ((data.foldl ApcScan.byte ⟨viewport.apcFilter, [], []⟩).filter,
          some ((data.foldl ApcScan.byte ⟨viewport.apcFilter, [], []⟩).segments ++
            if (data.foldl ApcScan.byte ⟨viewport.apcFilter, [], []⟩).text = [] then []
            else [.text (data.foldl ApcScan.byte ⟨viewport.apcFilter, [], []⟩).text])) := if_neg hfast
    simp only [feed, hscan]
    generalize data.foldl ApcScan.byte ⟨viewport.apcFilter, [], []⟩ = scan at hstate hpassed ⊢
    have hsegments : (scan.segments ++ if scan.text = [] then [] else [ScanSegment.text scan.text]).flatMap
        ScanSegment.passed = scan.passed := by
      by_cases htext : scan.text = []
      · simp [htext]
      · simp [htext, ScanSegment.passed]
    obtain ⟨hfilter, hterm, hoffset⟩ := segments_spec
      (scan.segments ++ if scan.text = [] then [] else [.text scan.text]) { viewport with apcFilter := scan.filter }
    rw [hsegments, hpassed] at hterm
    exact ⟨(congrArg KittyApcFilter.state hfilter).trans hstate, hterm, congrArg (· + data.length) hoffset⟩

end Filter

/-! ## Attaching with a snapshot -/

/-- The output of a Session as far as the viewport is concerned; `stream` is what was published. -/
structure Screened (T : Terminal) where
  scanner : OutputQueryScanner
  viewport : TerminalViewportState T
  stream : List UInt8

/-- A Session whose journal is at `base`. -/
def Screened.start (T : Terminal) (base : Nat) : Screened T := ⟨.new, .atOffset T base, []⟩

/-- A read from the terminal, with whether probes are intercepted: `process_pty_bytes` and `publish_chunk`. -/
def Screened.read (s : Screened T) (read : List UInt8 × Bool) : Screened T :=
  let scanned := s.scanner.scan read.2 read.1
  let s := { s with scanner := scanned.scanner }
  if scanned.out = [] then s
  else { s with viewport := s.viewport.feed scanned.out, stream := s.stream ++ scanned.out }

def Screened.readAll (s : Screened T) (reads : List (List UInt8 × Bool)) : Screened T := reads.foldl .read s

/-- The stream is made of whole pieces: text and sequences that the terminal has read to their end, and graphics. -/
inductive Whole (T : Terminal) : List UInt8 → Prop
  | nil : Whole T []
  | text {stream bytes : List UInt8} : Whole T stream → NoGraphics bytes →
      (T.feedAll (T.blank, T.ground) (stream ++ bytes)).2 = T.ground → Whole T (stream ++ bytes)
  | graphics {stream payload ending : List UInt8} : Whole T stream → IsPayload payload → IsEnding ending →
      Whole T (stream ++ graphicsBytes payload ending)

section Attach

variable {s : Screened T} {base : Nat}

/-- The viewport has been fed the stream. -/
structure Screened.Fed (s : Screened T) (base : Nat) : Prop where
  state : s.viewport.apcFilter.state = (ground.passAll s.stream).1
  term : s.viewport.term = T.feedAll (T.blank, T.ground) (ground.passAll s.stream).2
  offset : s.viewport.outputOffset = base + s.stream.length

theorem fed_start (T : Terminal) (base : Nat) : (Screened.start T base).Fed base := ⟨rfl, rfl, rfl⟩

theorem Screened.Fed.read (h : s.Fed base) {read : List UInt8 × Bool} : (s.read read).Fed base := by
  simp only [Screened.read]
  split
  · exact ⟨h.state, h.term, h.offset⟩
  · obtain ⟨hstate, hterm, hoffset⟩ := feed_spec s.viewport (s.scanner.scan read.2 read.1).out
    refine ⟨?_, ?_, ?_⟩
    · show (s.viewport.feed _).apcFilter.state = (ground.passAll (s.stream ++ _)).1
      rw [hstate, passAll_append, h.state]
    · show (s.viewport.feed _).term = T.feedAll _ (ground.passAll (s.stream ++ _)).2
      rw [hterm, passAll_append, h.state, h.term, T.feedAll_append]
    · show (s.viewport.feed _).outputOffset = base + (s.stream ++ _).length
      rw [hoffset, h.offset, length_append, Nat.add_assoc]

theorem Screened.Fed.readAll (h : s.Fed base) (reads : List (List UInt8 × Bool)) : (s.readAll reads).Fed base :=
  foldlRecOn reads Screened.read (motive := fun t : Screened T => t.Fed base) h
    fun _ ht _ _ => Screened.Fed.read ht

theorem stream_read {read : List UInt8 × Bool} : s.stream <+: (s.read read).stream := by
  simp only [Screened.read]
  split
  · exact prefix_rfl
  · exact prefix_append _ _

/-- The stream only grows. -/
theorem stream_readAll (s : Screened T) (reads : List (List UInt8 × Bool)) : s.stream <+: (s.readAll reads).stream :=
  foldlRecOn reads Screened.read (motive := fun t : Screened T => s.stream <+: t.stream) prefix_rfl
    fun _ ht _ _ => ht.trans stream_read

/-- **Whole pieces**: the filter withholds nothing, and its text leads to the same terminal as the stream. -/
theorem Whole.filtered (hT : T.Lawful) (h : Whole T stream) : (ground.passAll stream).1 = .ground ∧
      T.feedAll (T.blank, T.ground) (ground.passAll stream).2 = T.feedAll (T.blank, T.ground) stream ∧
      (T.feedAll (T.blank, T.ground) stream).2 = T.ground := by
  induction h with
  | nil => exact ⟨rfl, rfl, rfl⟩
  | text _ htext hground ih =>
    obtain ⟨hstate, hterm, -⟩ := ih
    rw [passAll_append, hstate, (passAll_text _).1 htext]
    refine ⟨rfl, ?_, hground⟩
    rw [T.feedAll_append, hterm, T.feedAll_append]
  | @graphics stream payload ending _ hp he ih =>
    obtain ⟨hstate, hterm, hground⟩ := ih
    have hsame : T.feedAll (T.blank, T.ground) (stream ++ graphicsBytes payload ending)
        = T.feedAll (T.blank, T.ground) stream := by
      rw [T.feedAll_append]
      generalize T.feedAll (T.blank, T.ground) stream = term at hground ⊢
      obtain ⟨screen, half⟩ := term
      obtain rfl : half = T.ground := hground
      exact hT.graphics screen payload ending hp he
    rw [passAll_append, hstate, passAll_graphics hp he, hsame]
    refine ⟨rfl, ?_, hground⟩
    rw [append_nil]
    exact hterm

end Attach

/-! ### A terminal that counts -/

inductive CountingHalf
  | ground
  | esc
  | string
  | stringEsc
deriving DecidableEq, Repr

def countingFeed : Nat × CountingHalf → UInt8 → Nat × CountingHalf
  | (n, .ground), byte => if byte = 0x1b then (n, .esc) else (n + 1, .ground)
  | (n, .esc), byte => if byte = 0x5f then (n, .string) else (n, .ground)
  | (n, .string), byte =>
    if byte = 0x1b then (n, .stringEsc) else if byte = 0x18 ∨ byte = 0x1a then (n, .ground) else (n, .string)
  | (n, .stringEsc), byte => if byte = 0x5c then (n, .ground) else (n, .string)

/-- A terminal whose screen is the number of characters printed. -/
def countingTerminal : Terminal :=
  ⟨Nat, CountingHalf, 0, .ground, countingFeed, fun n => (n, 0), fun n => List.replicate n 0x41⟩

theorem counting_prints (n m : Nat) :
    (replicate n (0x41 : UInt8)).foldl countingFeed (m, .ground) = (m + n, .ground) := by
  induction n generalizing m with
  | zero => rfl
  | succ n ih =>
    rw [replicate_succ, foldl_cons]
    show (replicate n (0x41 : UInt8)).foldl countingFeed (m + 1, .ground) = _
    rw [ih, Nat.add_assoc, Nat.add_comm 1 n]

theorem counting_payload (hp : IsPayload payload) :
    payload.foldl countingFeed (n, .string) = (n, .string) := by
  induction payload with
  | nil => rfl
  | cons byte payload ih =>
    obtain ⟨hesc, hcan, hsub⟩ := hp byte mem_cons_self
    have hbyte : countingFeed (n, .string) byte = (n, .string) := by
      simp [countingFeed, hesc, hcan, hsub]
    rw [foldl_cons, hbyte]
    exact ih fun b hb => hp b (mem_cons_of_mem _ hb)

theorem counting_graphics (hp : IsPayload payload) (he : IsEnding ending) :
    (graphicsBytes payload ending).foldl countingFeed (n, .ground) = (n, .ground) := by
  have hintroducer : ([0x1b, 0x5f, 0x47] : List UInt8).foldl countingFeed (n, .ground) = (n, .string) := rfl
  rw [graphicsBytes, foldl_append, foldl_append, hintroducer, counting_payload hp]
  rcases he with rfl | rfl | rfl <;> rfl

theorem countingTerminal_lawful : countingTerminal.Lawful :=
  ⟨fun n => (counting_prints n 0).trans (congrArg (·, CountingHalf.ground) (Nat.zero_add n)),
    fun _ _ _ hp he => counting_graphics hp he⟩

/-- Some text and an image. -/
def imageReads : List (List UInt8 × Bool) := [([0x68, 0x69], false), ([0x1b, 0x5f, 0x47, 0x61, 0x1b, 0x5c], false)]

end Supercli.Output
