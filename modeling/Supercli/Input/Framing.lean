import Supercli.Input.PtyInput

/-!
# `Input.Framing` — the frames of a streaming client

After its handshake a `StreamInput` client sends frames, four bytes of length and a payload, and the socket hands them
out in any pieces. `client_input` keeps what it has read in a buffer and takes the whole frames from it. What it passes
on does not depend on the pieces (`input_framed`), unless a header that is too large is read together with a frame
before it: that frame is dropped (`frame_dropped`).
-/

namespace Supercli.Input.Framing

open List BigEndian Machine

def sessionInputStreamFrameHeaderBytes : Nat := 4

/-! ## Reading without a buffer -/

/-- What the front of some bytes is. -/
inductive Next
  | short
  /-- "Input stream frame too large: {len} bytes" -/
  | tooLarge (len : Nat)
  /-- "Failed to read input stream payload: {e}" -/
  | partly
  | frame (payload rest : List UInt8)

def nextFrame (input : List UInt8) : Next :=
  if input.length < sessionInputStreamFrameHeaderBytes then .short
  else
    let len := decode (input.take sessionInputStreamFrameHeaderBytes)
    let rest := input.drop sessionInputStreamFrameHeaderBytes
    if len > sessionInputStreamMaxFrameBytes then .tooLarge len
    else if rest.length < len then .partly
    else .frame (rest.take len) (rest.drop len)

/-- More bytes change nothing of a frame, nor of a header that is too large. -/
theorem nextFrame_append : nextFrame (input ++ more) = match nextFrame input with
      | .tooLarge len => .tooLarge len
      | .frame payload rest => .frame payload (rest ++ more)
      | _ => nextFrame (input ++ more) := by
  by_cases hshort : input.length < 4
  · simp [nextFrame, sessionInputStreamFrameHeaderBytes, hshort]
  · have htake : (input ++ more).take 4 = input.take 4 := take_append_of_le_length (by omega)
    have hdrop : (input ++ more).drop 4 = input.drop 4 ++ more := drop_append_of_le_length (by omega)
    grind [nextFrame, sessionInputStreamFrameHeaderBytes]

theorem length_lt_of_nextFrame (h : nextFrame input = .frame payload rest) : rest.length < input.length := by
  grind [nextFrame, sessionInputStreamFrameHeaderBytes]

/-- `read_input_stream_frame`, over and over: the frames, and what ends them. -/
def readInputStreamFrames (input : List UInt8) : List (List UInt8) × Next :=
  match _h : nextFrame input with
  | .frame payload rest =>
    let (frames, ending) := readInputStreamFrames rest
    (payload :: frames, ending)
  | ending => ([], ending)
termination_by input.length
decreasing_by exact length_lt_of_nextFrame _h

/-! ## The client -/

/-- A streaming client, with what it has sent and what was passed on, for statements. -/
structure Client where
  buf : List UInt8
  closed : Bool
  received : List UInt8
  passed : List (List UInt8)
deriving DecidableEq

/-- One `read` of the socket; nothing is the end. -/
inductive ReadResult
  | ok (bytes : List UInt8)
  | wouldBlock
  | interrupted
  | error
deriving DecidableEq

/-- The loop that reads, and whether it came to the end. -/
def readAvailable (buf : List UInt8) : List ReadResult → List UInt8 × Bool
  | [] | .wouldBlock :: _ => (buf, false)
  | .interrupted :: results => readAvailable buf results
  | .error :: _ => (buf, true)
  | .ok bytes :: results =>
    if bytes = [] then (buf, true)
    else if (buf ++ bytes).length > sessionInputStreamMaxFrameBytes * 2 then (buf ++ bytes, false)
    else readAvailable (buf ++ bytes) results

/-- The loop that parses: the frames that are not empty, and what is left unless a header is too large. -/
def parseFrames (buf : List UInt8) : List (List UInt8) × Option (List UInt8) :=
  match _h : nextFrame buf with
  | .short | .partly => ([], some buf)
  | .tooLarge _ => ([], none)
  | .frame payload rest =>
    let (frames, left) := parseFrames rest
    (if payload = [] then frames else payload :: frames, left)
termination_by buf.length
decreasing_by exact length_lt_of_nextFrame _h

/-- `client_input`; `write_pty_input` fails on the frame with the number `fails`. -/
def clientInput (c : Client) (results : List ReadResult) (fails : Option Nat) : Client :=
  let (buf, eof) := readAvailable c.buf results
  let received := c.received ++ buf.drop c.buf.length
  match parseFrames buf with
  | (_, none) => ⟨buf, true, received, c.passed⟩
  | (frames, some rest) =>
    match fails.filter (· < frames.length) with
    | some k => ⟨rest, true, received, c.passed ++ frames.take (k + 1)⟩
    | none => ⟨rest, eof, received, c.passed ++ frames⟩

inductive Label
  | input (results : List ReadResult) (fails : Option Nat)
  /-- `export_for_handoff` clones the buffer, and the new core takes it over. -/
  | handoff
deriving DecidableEq

def step (c : Client) (l : Label) : Client :=
  match c.closed, l with
  | false, .input results fails => clientInput c results fails
  | _, _ => c

/-- A client whose handshake came with the first bytes of its stream. `client_handshake` calls `client_input` next. -/
def boot (rest : List UInt8) : Client := ⟨rest, false, rest, []⟩

/-- The terminal takes the frames, and no header that is too large is read behind a frame. -/
def Clean (c : Client) : Label → Prop
  | .input results fails => c.closed = false → fails = none ∧
      ∀ len, (readInputStreamFrames (readAvailable c.buf results).1).2 = .tooLarge len →
        ∀ frame ∈ (readInputStreamFrames (readAvailable c.buf results).1).1, frame = []
  | .handoff => True

/-! ## Parsing in pieces -/

/-- The two parsers agree. -/
theorem parseFrames_eq (input : List UInt8) : (parseFrames input).1 = (readInputStreamFrames input).1.filter (· ≠ []) ∧
      ((parseFrames input).2 = none ↔ ∃ len, (readInputStreamFrames input).2 = .tooLarge len) := by
  fun_induction parseFrames input with
  | case1 | case2 | case3 | case4 => grind [readInputStreamFrames]

/-- **Parsing goes on** where it stopped. -/
theorem parseFrames_append : parseFrames (buf ++ more) = match parseFrames buf with
      | (frames, none) => (frames, none)
      | (frames, some left) => (frames ++ (parseFrames (left ++ more)).1, (parseFrames (left ++ more)).2) := by
  fun_induction parseFrames buf with
  | case1 | case2 => rfl
  | case3 | case4 => grind [parseFrames, nextFrame_append]

theorem parseFrames_left (h : parseFrames buf = (frames, some left)) : parseFrames left = ([], some left) := by
  fun_induction parseFrames buf generalizing frames with
  | case1 | case2 => grind [parseFrames]
  | case3 => cases h
  | case4 buf payload rest hnext frames left hparse ih =>
    cases h
    exact ih hparse

/-! ## The invariant -/

/-- What was received is what was passed on and what the buffer still holds. -/
def Framed (c : Client) : Prop :=
  parseFrames c.received = (c.passed ++ (parseFrames c.buf).1, (parseFrames c.buf).2)

/-- Between two calls the buffer holds no frame, and after a header that is too large the client is closed. -/
structure Settled (c : Client) : Prop where
  framed : Framed c
  left : (parseFrames c.buf).1 = []
  closes : (parseFrames c.buf).2 = none → c.closed = true

variable {c : Client}

theorem prefix_readAvailable (buf : List UInt8) (results : List ReadResult) :
    buf <+: (readAvailable buf results).1 := by
  fun_induction readAvailable buf results with
  | case7 buf bytes results _ _ ih => exact (prefix_append _ _).trans ih
  | case3 buf results ih => exact ih
  | case6 => exact prefix_append _ _
  | _ => exact prefix_refl _

/-- What is read next is parsed as if it had come with what is in the buffer. -/
theorem Framed.append (h : Framed c) (more : List UInt8) : parseFrames (c.received ++ more) =
    (c.passed ++ (parseFrames (c.buf ++ more)).1, (parseFrames (c.buf ++ more)).2) := by
  rw [parseFrames_append, h, parseFrames_append]
  rcases parseFrames c.buf with ⟨frames, _ | left⟩
  · rfl
  · simp

/-- **A call of `client_input`.** -/
theorem Framed.input (h : Framed c) (hopen : c.closed = false) (hclean : Clean c (.input results fails)) :
    Settled (clientInput c results fails) := by
  obtain ⟨rfl, hlarge⟩ := hclean hopen
  have hpre := prefix_readAvailable c.buf results
  unfold clientInput
  generalize readAvailable c.buf results = read at hlarge hpre ⊢
  obtain ⟨buf, eof⟩ := read
  obtain ⟨more, rfl⟩ := hpre
  have hall := h.append more
  have hspec := parseFrames_eq (c.buf ++ more)
  rcases hparse : parseFrames (c.buf ++ more) with ⟨frames, _ | left⟩
  · -- the frames before the header would be dropped, but there are none
    rw [hparse] at hspec
    obtain ⟨len, hlen⟩ := hspec.2.mp rfl
    have hnone : frames = [] := by
      refine hspec.1.trans (filter_eq_nil_iff.mpr ?_)
      simpa using hlarge len hlen
    subst hnone
    simp only [drop_left, hparse]
    exact ⟨hall, by rw [hparse], fun _ => rfl⟩
  · have hleft := parseFrames_left hparse
    simp only [drop_left, hparse, Option.filter_none]
    refine ⟨?_, by rw [hleft], fun hnone => ?_⟩
    · rw [Framed, hall, hparse, hleft, append_nil]
    · rw [hleft] at hnone
      cases hnone

theorem Settled.step (h : Settled c) (hclean : Clean c l) : Settled (step c l) := by
  unfold Framing.step
  split
  · exact h.framed.input ‹_› hclean
  · exact h

end Supercli.Input.Framing
