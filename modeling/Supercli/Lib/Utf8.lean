import Mathlib

/-!
# `Lib.Utf8` — bytes, characters and lines

Files are lists of bytes; texts are lists of characters. `encodeUtf8` and `decodeUtf8` are the two directions of UTF-8
and `lines` cuts a text as `str::lines` does.
-/

abbrev Bytes := List UInt8

/-- A text as its characters. -/
abbrev Text := List Char

def encodeUtf8 (text : Text) : Bytes := text.flatMap String.utf8EncodeChar

/-- `String::from_utf8`: `none` for bytes that are not UTF-8. -/
def decodeUtf8 (bytes : Bytes) : Option Text := bytes.toByteArray.utf8Decode?.map Array.toList

/-- **Round trip.** -/
@[simp] theorem decodeUtf8_encodeUtf8 : decodeUtf8 (encodeUtf8 text) = some text := by
  have h : (encodeUtf8 text).toByteArray = text.utf8Encode := rfl
  simp [decodeUtf8, h, List.utf8Decode?_utf8Encode]

/-- What is decoded is the encoding of the result. -/
theorem encodeUtf8_of_decodeUtf8 (h : decodeUtf8 bytes = some text) : encodeUtf8 text = bytes := by
  obtain ⟨chars, hchars, rfl⟩ := Option.map_eq_some_iff.mp h
  have hsome : bytes.toByteArray.utf8Decode?.isSome = true := by rw [hchars]; rfl
  have hencode := ByteArray.utf8Encode_get_utf8Decode? (h := hsome)
  simp only [hchars, Option.get_some] at hencode
  have hbytes := congrArg (·.data.toList) hencode
  simpa [encodeUtf8, List.utf8Encode] using hbytes

/-- A character has at most four bytes. -/
theorem length_encodeUtf8_le (text : Text) : (encodeUtf8 text).length ≤ 4 * text.length := by
  induction text with
  | nil => exact Nat.le_refl _
  | cons c text ih =>
    have hchar := c.utf8Size_le_four
    rw [encodeUtf8] at ih ⊢
    rw [List.flatMap_cons, List.length_append, String.length_utf8EncodeChar, List.length_cons]
    omega

/-- The lines among the pieces between line feeds: a carriage return before a line feed goes with it, and what follows
the last line feed is a line only if it is not empty. -/
def cutLines {α : Type} [DecidableEq α] (cr : α) : List (List α) → List (List α)
  | [] => []
  | [last] => if last = [] then [] else [last]
  | piece :: next :: rest =>
    (if piece.getLast? = some cr then piece.dropLast else piece) :: cutLines cr (next :: rest)

/-- `str::lines`. -/
def lines (text : Text) : List Text := cutLines '\r' (text.splitOn '\n')

/-- `char::is_whitespace` (Unicode `White_Space`). -/
def isWhite (c : Char) : Bool :=
  let n := c.toNat
  (9 ≤ n && n ≤ 13) || n = 32 || n = 0x85 || n = 0xA0 || n = 0x1680 || (0x2000 ≤ n && n ≤ 0x200A) ||
    n = 0x2028 || n = 0x2029 || n = 0x202F || n = 0x205F || n = 0x3000

/-- `str::trim`. -/
def trimText (text : Text) : Text := ((text.dropWhile isWhite).reverse.dropWhile isWhite).reverse

/-- `BufRead::lines`: each line is decoded on its own, and `none` is one that is not UTF-8. -/
def byteLines (bytes : Bytes) : List (Option Text) := (cutLines 13 (bytes.splitOn 10)).map decodeUtf8
