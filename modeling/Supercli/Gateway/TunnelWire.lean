import Supercli.Lib.Base64
import Supercli.Lib.BigEndian
import Supercli.Lib.Json

/-!
# `Gateway.TunnelWire` — the envelope of a request and the frames it travels in

Requests and responses are JSON envelopes (`relay_wire.rs`); over SSH each travels in a frame with a magic, a kind and a
length (`remote_stdio.rs`). A response is encoded within the budget of a frame (`length_encodeBoundedTunnelResponse`), so
it can always be written, and what is written is read back as it was, whatever follows (`readFrame_frameBytes`).
-/

namespace Supercli.Gateway

open List

/-! ## Envelopes -/

def maxFrameBytes : Nat := 512 * 1024

/-- `AEAD_OVERHEAD_BYTES`: an eight-byte counter and a 16-byte tag. -/
def aeadOverheadBytes : Nat := 8 + 16

def maxPlaintextBytes : Nat := maxFrameBytes - aeadOverheadBytes

def plaintextFrameFits (byteCount : Nat) : Bool := byteCount ≤ maxPlaintextBytes

structure TunnelRequest where
  id : Nat
  method : String
  path : String
  query : List (String × String)
  auth : Option String
  contentType : Option String
  body : Bytes
deriving DecidableEq

/-- The libraries requests are read with. -/
structure TunnelLibs where
  /-- `serde_json::from_slice`. -/
  parseJson : Bytes → Option Json
  /-- `unb64`. -/
  unb64 : String → Option Bytes

section Parse

variable (libs : TunnelLibs)

def optionalString (object : Json) (key : String) : Except String (Option String) :=
  match object.get key with
  | none | some .null => .ok none
  | some (.str value) => .ok (some value)
  | some _ => .error (key ++ " must be a string")

/-- The members of the query, which are all strings. -/
def queryStrings : List (String × Json) → Except String (List (String × String))
  | [] => .ok []
  | (key, value) :: rest =>
    match value.asStr with
    | none => .error "query values must be strings"
    | some s => (queryStrings rest).map ((key, s) :: ·)

def queryField (object : Json) : Except String (List (String × String)) :=
  match object.get "query" with
  | none | some .null => .ok []
  | some (.obj query) => queryStrings query
  | some _ => .error "query must be an object"

def bodyField (object : Json) : Except String Bytes := do
  match ← optionalString object "bodyB64" with
  | some value =>
    match libs.unb64 value with
    | some body => .ok body
    | none => .error "bodyB64 is not valid base64"
  | none => .ok []

/-- A field that must be there. -/
def requiredField {α : Type} (object : Json) (key : String) (read : Json → Option α) (message : String) : Except String α :=
  match (object.get key).bind read with
  | some a => .ok a
  | none => .error message

def parseTunnelRequestStrict (plaintext : Bytes) : Except String TunnelRequest := do
  match libs.parseJson plaintext with
  | none => .error "request is not valid JSON"
  | some value =>
    if value.asObject.isNone then .error "request envelope must be an object"
    else
      let query ← queryField value
      let body ← bodyField libs value
      let id ← requiredField value "id" Json.asU64 "id must be an unsigned integer"
      let method ← requiredField value "method" Json.asStr "method must be a string"
      let path ← requiredField value "path" Json.asStr "path must be a string"
      let auth ← optionalString value "auth"
      let contentType ← optionalString value "contentType"
      pure ⟨id, method, path, query, auth, contentType, body⟩

def parseableRequestId (payload : Bytes) : Option Nat :=
  (libs.parseJson payload).bind fun value => (value.get "id").bind Json.asU64

theorem lt_of_parseableRequestId {id : Nat} (h : parseableRequestId libs payload = some id) : id < 2 ^ 64 := by
  obtain ⟨value, -, hid⟩ := Option.bind_eq_some_iff.mp h
  obtain ⟨field, -, hfield⟩ := Option.bind_eq_some_iff.mp hid
  exact lt_of_asU64 hfield

/-- The strict parser finds the id that `parseable_request_id` finds. -/
theorem parseableRequestId_of_strict
    (h : parseTunnelRequestStrict libs plaintext = .ok request) : parseableRequestId libs plaintext = some request.id := by
  unfold parseTunnelRequestStrict at h
  cases hparse : libs.parseJson plaintext with
  | none => simp [hparse] at h
  | some =>
    simp only [hparse] at h
    split at h
    · cases h
    · obtain ⟨query, -, h⟩ := ok_of_bind h
      obtain ⟨body, -, h⟩ := ok_of_bind h
      obtain ⟨id, hid, h⟩ := ok_of_bind h
      obtain ⟨method, -, h⟩ := ok_of_bind h
      obtain ⟨path, -, h⟩ := ok_of_bind h
      obtain ⟨auth, -, h⟩ := ok_of_bind h
      obtain ⟨contentType, -, h⟩ := ok_of_bind h
      cases h
      unfold requiredField at hid
      split at hid
      · rename_i found hfound
        cases hid
        simp [parseableRequestId, hparse, hfound]
      · cases hid

end Parse

def encodeTunnelResponse (id status : Nat) (body : Bytes) : Bytes :=
  encodeUtf8 (Json.obj [
    ("bodyB64", if body = [] then .null else .str (String.ofList (Base64.encode body))),
    ("id", .nat id),
    ("status", .nat status)]).render

/-- The body of a response that stands for one that is too large. -/
def tooLargeBody : Bytes := encodeUtf8 "\x7b\"error\":\"response too large\"\x7d".toList

def encodeBoundedTunnelResponse (id status : Nat) (body : Bytes) : Bytes :=
  let response := encodeTunnelResponse id status body
  if plaintextFrameFits response.length then response else encodeTunnelResponse id 413 tooLargeBody

theorem length_toString_le (h : n < 2 ^ 64) : (toString n).toList.length ≤ 20 := by
  have hlt : n < 10 ^ 20 := h.trans (by decide)
  have hlist : (toString n).toList = Nat.toDigits 10 n := by
    simp [toString, Nat.repr]
  rw [hlist]
  exact Nat.toDigitsCore_length 10 _ n 20 (by decide) hlt

/-- **The replacement fits**, which the source asserts. -/
theorem length_replacement {id : Nat} (h : id < 2 ^ 64) :
    (encodeTunnelResponse id 413 tooLargeBody).length ≤ maxPlaintextBytes := by
  have hrender : (Json.obj [
      ("bodyB64", .str (String.ofList (Base64.encode tooLargeBody))), ("id", .nat id), ("status", .nat 413)]).render.length ≤
        200 := by
    have hbody : (Json.quote (String.ofList (Base64.encode tooLargeBody))).length ≤ 100 := by decide
    have hlead : (Json.quote "bodyB64").length ≤ 10 ∧ (Json.quote "id").length ≤ 10 ∧ (Json.quote "status").length ≤ 10 ∧
        (toString 413).toList.length ≤ 10 := by decide
    have hid := length_toString_le h
    simp only [Json.render, Json.renderMembers, length_append, length_cons, length_nil]
    omega
  have hne : tooLargeBody ≠ [] := by decide
  rw [encodeTunnelResponse, if_neg hne]
  refine (length_encodeUtf8_le _).trans ?_
  have hmax : maxPlaintextBytes = 524264 := by decide
  omega

theorem encodeTunnelResponse_ne_nil {id : Nat} : encodeTunnelResponse id status body ≠ [] := by
  have hcons : ∀ (c : Char) (text : Text), encodeUtf8 (c :: text) ≠ [] := by
    intro c text h
    have hchar := (append_eq_nil_iff.mp (flatMap_cons.symm.trans h)).1
    exact absurd (congrArg length hchar) (by simp [String.length_utf8EncodeChar, Nat.pos_iff_ne_zero.mp c.utf8Size_pos])
  exact hcons _ _

/-- **A response is encoded within the budget of a frame.** -/
theorem length_encodeBoundedTunnelResponse {id : Nat} (h : id < 2 ^ 64) (status : Nat) (body : Bytes) :
    encodeBoundedTunnelResponse id status body ≠ [] ∧
      (encodeBoundedTunnelResponse id status body).length ≤ maxPlaintextBytes := by
  unfold encodeBoundedTunnelResponse
  dsimp only
  split
  · rename_i hfits
    exact ⟨encodeTunnelResponse_ne_nil, by simpa [plaintextFrameFits] using hfits⟩
  · exact ⟨encodeTunnelResponse_ne_nil, length_replacement h⟩

/-! ## Frames -/

def frameMagic : Bytes := encodeUtf8 "UPL1".toList

def frameKindRequest : UInt8 := 1

def frameKindResponse : UInt8 := 2

def frameHeaderBytes : Nat := 12

def frameFlagsNone : UInt8 := 0

structure StdioFrame where
  kind : UInt8
  payload : Bytes
deriving DecidableEq

/-- What a reader finds after the bytes that are there. -/
inductive InputEnd
  | eof
  | failed (message : String)
deriving DecidableEq

/-- What `read_exact` says when the bytes run out. -/
def InputEnd.message : InputEnd → String
  | .eof => "failed to fill whole buffer"
  | .failed e => e

/-- `read_frame`, and what is left of the input; a read that is interrupted is made again. -/
def readFrame (ending : InputEnd) (input : Bytes) : Except String (Option (StdioFrame × Bytes)) :=
  if input = [] then
    match ending with
    | .eof => .ok none
    | .failed e => .error ("read frame header: " ++ e)
  else if input.length < frameHeaderBytes then .error ("truncated frame header: " ++ ending.message)
  else
    let header := input.take frameHeaderBytes
    let rest := input.drop frameHeaderBytes
    if header.take 4 ≠ frameMagic then .error "invalid SSH stdio frame magic or version"
    else if header.getD 5 0 ≠ frameFlagsNone ∨ header.getD 6 0 ≠ 0 ∨ header.getD 7 0 ≠ 0 then
      .error "unsupported SSH stdio frame flags"
    else
      let len := BigEndian.decode (header.drop 8)
      if len = 0 then .error "empty SSH stdio frame"
      else if maxPlaintextBytes < len then
        .error ("SSH stdio frame exceeds " ++ toString maxPlaintextBytes ++ " bytes")
      else if rest.length < len then .error ("truncated frame payload: " ++ ending.message)
      else .ok (some (⟨header.getD 4 0, rest.take len⟩, rest.drop len))

/-- The header that `write_frame` writes. -/
def frameHeader (kind : UInt8) (payload : Bytes) : Bytes :=
  frameMagic ++ [kind, frameFlagsNone, 0, 0] ++ BigEndian.encode 4 payload.length

/-- What `write_frame` refuses before it writes. -/
def writeFrameRefuses (payload : Bytes) : Option String :=
  if payload = [] ∨ maxPlaintextBytes < payload.length then some "invalid SSH stdio frame payload size" else none

def frameBytes (frame : StdioFrame) : Bytes := frameHeader frame.kind frame.payload ++ frame.payload

@[simp] theorem length_frameHeader : (frameHeader kind payload).length = 12 := by
  have hmagic : frameMagic.length = 4 := by decide
  simp [frameHeader, hmagic]

/-- **What is written is read back**, whatever follows. -/
theorem readFrame_frameBytes (hne : frame.payload ≠ [])
    (hlen : frame.payload.length ≤ maxPlaintextBytes) (ending : InputEnd) (rest : Bytes) :
    readFrame ending (frameBytes frame ++ rest) = .ok (some (frame, rest)) := by
  have hmagic : frameMagic = [85, 80, 76, 49] := by decide
  have hbytes : frameBytes frame ++ rest = frameHeader frame.kind frame.payload ++ (frame.payload ++ rest) := by
    rw [frameBytes, append_assoc]
  have htake : (frameBytes frame ++ rest).take frameHeaderBytes = frameHeader frame.kind frame.payload := by
    rw [hbytes]
    exact take_left' (by simp [frameHeaderBytes])
  have hdrop : (frameBytes frame ++ rest).drop frameHeaderBytes = frame.payload ++ rest := by
    rw [hbytes]
    exact drop_left' (by simp [frameHeaderBytes])
  have hcons : frameHeader frame.kind frame.payload =
      85 :: 80 :: 76 :: 49 :: frame.kind :: 0 :: 0 :: 0 :: BigEndian.encode 4 frame.payload.length := by
    rw [frameHeader, hmagic]
    rfl
  have hdecode : BigEndian.decode ((frameHeader frame.kind frame.payload).drop 8) = frame.payload.length := by
    rw [hcons]
    simp only [drop_succ_cons, drop_zero, BigEndian.decode_encode]
    refine Nat.mod_eq_of_lt (lt_of_le_of_lt hlen ?_)
    decide
  have hlong : ¬ (frameBytes frame ++ rest).length < frameHeaderBytes := by
    rw [hbytes, length_append, length_frameHeader]
    simp [frameHeaderBytes]
  have hsome : frameBytes frame ++ rest ≠ [] := by
    rw [hbytes, hcons]
    simp
  unfold readFrame
  rw [if_neg hsome, if_neg hlong, htake, hdrop]
  dsimp only
  rw [hdecode, if_neg (by rw [hcons, hmagic]; simp), if_neg (by rw [hcons]; simp [frameFlagsNone]),
    if_neg (by simpa using hne), if_neg (Nat.not_lt.mpr hlen), if_neg (by simp), take_left' rfl, drop_left' rfl, hcons]
  rfl

/-- A frame that is read is taken from the input. -/
theorem length_lt_of_readFrame
    (h : readFrame ending input = .ok (some (frame, rest))) : rest.length + frameHeaderBytes < input.length := by
  unfold readFrame at h
  split at h
  · cases ending <;> cases h
  · split at h
    · cases h
    · rename_i hlong
      dsimp only at h
      repeat' split at h
      all_goals cases h
      rename_i hpos _ hfull
      simp only [length_drop] at hfull ⊢
      omega

/-- The input is read as these frames, up to its end. -/
def ReadsAs : Bytes → List StdioFrame → Prop
  | input, [] => readFrame .eof input = .ok none
  | input, frame :: frames => ∃ rest, readFrame .eof input = .ok (some (frame, rest)) ∧ ReadsAs rest frames

/-- Frames one after the other are read as these frames. -/
theorem readsAs_flatMap (h : ∀ frame ∈ frames, frame.payload ≠ [] ∧ frame.payload.length ≤ maxPlaintextBytes) :
    ReadsAs (frames.flatMap frameBytes) frames := by
  induction frames with
  | nil => rfl
  | cons frame frames ih =>
    obtain ⟨hne, hlen⟩ := h frame mem_cons_self
    refine ⟨frames.flatMap frameBytes, ?_, ih fun f hf => h f (mem_cons_of_mem _ hf)⟩
    rw [flatMap_cons]
    exact readFrame_frameBytes hne hlen _ _

end Supercli.Gateway
