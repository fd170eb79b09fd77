import Supercli.Lib.BigEndian

/-!
# `Output.Frame` — frames of the live output stream

A chunk of output travels as a frame: four bytes of length, eight bytes of the offset after it, one byte of flags,
and the data. The reader refuses frames beyond `SESSION_OUTPUT_STREAM_MAX_FRAME_BYTES`, which tells a peer that
speaks another protocol from a Host.

`decodeFrames_encoded` is the round trip, and `decodeFrames_part` its form for a stream that breaks off anywhere, as
a connection does.
-/

namespace Supercli.Output

open List BigEndian

/-- `SessionOutputChunk`; `existing` is the field `exists`. -/
structure SessionOutputChunk where
  data : List UInt8
  nextOffset : Nat
  exited : Bool
  existing : Bool
deriving DecidableEq, Repr

def sessionOutputStreamFrameHeaderBytes : Nat := 13

def sessionOutputStreamMaxFrameBytes : Nat := 8 * 1024 * 1024

/-- The flags of a frame. -/
def SessionOutputChunk.flags (chunk : SessionOutputChunk) : UInt8 :=
  (if chunk.exited then 1 else 0) ||| (if chunk.existing then 2 else 0)

/-- `session_output_frame_bytes`. The length is cut to 32 bits, the offset has 64. -/
def sessionOutputFrameBytes (chunk : SessionOutputChunk) : List UInt8 :=
  encode 4 chunk.data.length ++ encode 8 chunk.nextOffset ++ [chunk.flags] ++ chunk.data

/-- What a reader finds after the bytes that are there: the connection is quiet, or closed. -/
inductive StreamEnd
  | quiet
  | closed
deriving DecidableEq, Repr

inductive OutputStreamRead
  | chunk (chunk : SessionOutputChunk)
  | timedOut
  | closed
deriving DecidableEq, Repr

/-- The errors of `read_output_stream_frame`. -/
inductive FrameError
  /-- "Output stream frame too large: {len} bytes" -/
  | tooLarge (len : Nat)
  /-- "Failed to read output stream payload: {e}" -/
  | payload
deriving DecidableEq, Repr

/-- `read_output_stream_frame`, and what is left of the input. -/
def readOutputStreamFrame (ending : StreamEnd) (input : List UInt8) :
    Except FrameError (OutputStreamRead × List UInt8) :=
  if input.length < sessionOutputStreamFrameHeaderBytes then
    .ok (match ending with | .quiet => .timedOut | .closed => .closed, [])
  else
    let header := input.take sessionOutputStreamFrameHeaderBytes
    let rest := input.drop sessionOutputStreamFrameHeaderBytes
    let len := decode (header.take 4)
    if len > sessionOutputStreamMaxFrameBytes then .error (.tooLarge len)
    else if rest.length < len then .error .payload
    else
      let flags := header.getD 12 0
      .ok (.chunk ⟨rest.take len, decode ((header.drop 4).take 8), flags &&& 1 != 0, flags &&& 2 != 0⟩,
        rest.drop len)

/-- A frame that is read is taken from the input. -/
theorem length_lt_of_read
    (h : readOutputStreamFrame ending input = .ok (.chunk chunk, rest)) : rest.length < input.length := by
  unfold readOutputStreamFrame at h
  split at h
  · cases ending <;> cases h
  · rename_i hlong
    dsimp only at h
    split at h
    · cases h
    · split at h
      · cases h
      · cases h
        simp only [length_drop, sessionOutputStreamFrameHeaderBytes] at hlong ⊢
        omega

/-- What a client decodes from the bytes it has received so far. -/
def decodeFrames (input : List UInt8) : List SessionOutputChunk :=
  match _h : readOutputStreamFrame .quiet input with
  | .ok (.chunk chunk, rest) => chunk :: decodeFrames rest
  | _ => []
termination_by input.length
decreasing_by exact length_lt_of_read _h

/-! ## The round trip -/

/-- A chunk that a frame can carry. -/
structure SessionOutputChunk.Fits (chunk : SessionOutputChunk) : Prop where
  data : chunk.data.length ≤ sessionOutputStreamMaxFrameBytes
  nextOffset : chunk.nextOffset < 2 ^ 64

open SessionOutputChunk

section RoundTrip

variable {chunk : SessionOutputChunk} {ending : StreamEnd}

section

variable (chunk : SessionOutputChunk)

theorem flags_exited : (chunk.flags &&& 1 != 0) = chunk.exited := by
  unfold flags
  cases chunk.exited <;> cases chunk.existing <;> decide

theorem flags_existing : (chunk.flags &&& 2 != 0) = chunk.existing := by
  unfold flags
  cases chunk.exited <;> cases chunk.existing <;> decide

/-- The header of a frame. -/
def SessionOutputChunk.header : List UInt8 :=
  encode 4 chunk.data.length ++ encode 8 chunk.nextOffset ++ [chunk.flags]

theorem sessionOutputFrameBytes_eq : sessionOutputFrameBytes chunk = chunk.header ++ chunk.data := rfl

@[simp] theorem length_header : chunk.header.length = 13 := by
  simp [header]

theorem length_frameBytes : (sessionOutputFrameBytes chunk).length = 13 + chunk.data.length := by
  rw [sessionOutputFrameBytes_eq, length_append, length_header]

/-- The length that a reader finds in a header. -/
theorem decode_header_length : decode (chunk.header.take 4) = chunk.data.length % 2 ^ 32 := by
  have htake : chunk.header.take 4 = encode 4 chunk.data.length := by
    rw [header, append_assoc, take_append_of_le_length (by simp)]
    exact take_of_length_le (by simp)
  rw [htake, decode_encode]
  rfl

theorem decode_header_nextOffset : decode ((chunk.header.drop 4).take 8) = chunk.nextOffset % 2 ^ 64 := by
  have hdrop : chunk.header.drop 4 = encode 8 chunk.nextOffset ++ [chunk.flags] := by
    rw [header, append_assoc]
    exact drop_left' (by simp)
  have htake : (encode 8 chunk.nextOffset ++ [chunk.flags]).take 8 = encode 8 chunk.nextOffset := take_left' (by simp)
  rw [hdrop, htake, decode_encode]
  rfl

theorem header_flags : chunk.header.getD 12 0 = chunk.flags := by
  simp [header, getD_eq_getElem?_getD]

end

/-- What a reader makes of a header and some bytes after it. -/
theorem read_header (hf : chunk.Fits) : readOutputStreamFrame ending (chunk.header ++ rest) =
      if rest.length < chunk.data.length then .error .payload
      else .ok (.chunk { chunk with data := rest.take chunk.data.length }, rest.drop chunk.data.length) := by
  have hlen : chunk.data.length % 2 ^ 32 = chunk.data.length := by
    have := hf.data
    simp only [sessionOutputStreamMaxFrameBytes] at this
    exact Nat.mod_eq_of_lt (by omega)
  have htake : (chunk.header ++ rest).take 13 = chunk.header := take_left' (length_header chunk)
  have hdrop : (chunk.header ++ rest).drop 13 = rest := drop_left' (length_header chunk)
  have hlong : ¬ (chunk.header ++ rest).length < 13 := by simp
  have hsmall : ¬ chunk.data.length > sessionOutputStreamMaxFrameBytes := Nat.not_lt.mpr hf.data
  simp only [readOutputStreamFrame, sessionOutputStreamFrameHeaderBytes, if_neg hlong, htake, hdrop,
    decode_header_length, hlen, if_neg hsmall, decode_header_nextOffset, Nat.mod_eq_of_lt hf.nextOffset,
    header_flags, flags_exited, flags_existing]

/-- **One frame comes back**, whatever follows it. -/
theorem read_frame (hf : chunk.Fits) :
    readOutputStreamFrame ending (sessionOutputFrameBytes chunk ++ rest) = .ok (.chunk chunk, rest) := by
  rw [sessionOutputFrameBytes_eq, append_assoc, read_header hf, if_neg (by simp)]
  simp

/-- A frame that breaks off is not taken for one. -/
theorem decodeFrames_incomplete (hf : chunk.Fits) (hp : part <+: sessionOutputFrameBytes chunk)
    (hlt : part.length < (sessionOutputFrameBytes chunk).length) : decodeFrames part = [] := by
  have hread : ∀ c rest, readOutputStreamFrame .quiet part ≠ .ok (.chunk c, rest) := by
    intro c rest h
    by_cases hshort : part.length < 13
    · simp [readOutputStreamFrame, sessionOutputStreamFrameHeaderBytes, hshort] at h
    · -- the header is there, and some of the data
      obtain ⟨tail, htail⟩ := hp
      have hheader : part.take 13 = chunk.header := by
        have := congrArg (take 13) htail
        rwa [take_append_of_le_length (by omega), sessionOutputFrameBytes_eq,
          take_left' (length_header chunk)] at this
      rw [← take_append_drop 13 part, hheader, read_header hf, if_pos] at h
      · cases h
      · rw [length_frameBytes] at hlt
        rw [length_drop]
        omega
  rw [decodeFrames]
  split
  · rename_i c rest h
    exact absurd h (hread c rest)
  · rfl

theorem decodeFrames_cons (hf : chunk.Fits) :
    decodeFrames (sessionOutputFrameBytes chunk ++ rest) = chunk :: decodeFrames rest := by
  rw [decodeFrames]
  split
  · rename_i c rest' h
    rw [read_frame hf] at h
    cases h
    rfl
  · rename_i h
    exact absurd (read_frame hf) (h _ _)

theorem decodeFrames_nil : decodeFrames [] = [] := by
  rw [decodeFrames]
  rfl

/-- **What has arrived of some frames** decodes to the first of them. -/
theorem decodeFrames_part (hf : ∀ c ∈ frames, c.Fits)
    (hp : part <+: frames.flatMap sessionOutputFrameBytes) : decodeFrames part <+: frames := by
  induction frames generalizing part with
  | nil =>
    rw [flatMap_nil, prefix_nil] at hp
    have hnone : decodeFrames part = [] := by
      rw [hp, decodeFrames_nil]
    exact hnone ▸ nil_prefix
  | cons chunk frames ih =>
    have hchunk := hf chunk mem_cons_self
    rw [flatMap_cons] at hp
    by_cases hlt : part.length < (sessionOutputFrameBytes chunk).length
    · have hfirst := prefix_of_prefix_length_le hp (prefix_append _ _) (hlt.le)
      rw [decodeFrames_incomplete hchunk hfirst hlt]
      exact nil_prefix
    · -- the first frame is there, and what follows it is of the others
      obtain ⟨more, rfl⟩ := prefix_of_prefix_length_le (prefix_append _ _) hp (Nat.le_of_not_lt hlt)
      have hmore := ih (fun c hc => hf c (mem_cons_of_mem _ hc)) ((prefix_append_right_inj _).mp hp)
      rw [decodeFrames_cons hchunk]
      exact cons_prefix_cons.mpr ⟨rfl, hmore⟩

/-- **The frames come back.** -/
theorem decodeFrames_encoded (hf : ∀ c ∈ frames, c.Fits) :
    decodeFrames (frames.flatMap sessionOutputFrameBytes) = frames := by
  induction frames with
  | nil => exact decodeFrames_nil
  | cons chunk frames ih =>
    rw [flatMap_cons, decodeFrames_cons (hf chunk mem_cons_self), ih fun c hc => hf c (mem_cons_of_mem _ hc)]

theorem read_tooLarge (hlarge : sessionOutputStreamMaxFrameBytes < chunk.data.length)
    (hlen : chunk.data.length < 2 ^ 32)  :
    readOutputStreamFrame ending (sessionOutputFrameBytes chunk ++ rest) = .error (.tooLarge chunk.data.length) := by
  have htake : (chunk.header ++ (chunk.data ++ rest)).take 13 = chunk.header := take_left' (length_header chunk)
  have hlong : ¬ (chunk.header ++ (chunk.data ++ rest)).length < 13 := by simp
  rw [sessionOutputFrameBytes_eq, append_assoc]
  simp only [readOutputStreamFrame, sessionOutputStreamFrameHeaderBytes, if_neg hlong, htake,
    decode_header_length, Nat.mod_eq_of_lt hlen, if_pos hlarge]

end RoundTrip

end Supercli.Output
