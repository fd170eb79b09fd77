import Supercli.Lib.BigEndian
import Supercli.Lib.Utf8

/-!
# `DirectPath.Probe` — the probe datagram

A probe is 38 bytes (magic, version, direction, path session, timestamp, nonce) and 16 bytes of their HMAC. Whatever
`verify_probe` accepts has the direction and the nonce it reads at fixed places of the 38 bytes, and their tag
(`verifyProbe_some`).
-/

namespace Supercli.DirectPath

open Option List

def probeMagic : Bytes := encodeUtf8 "UNPD".toList

def probeVersion : UInt8 := 1

def probeLen : Nat := 54

def probeTagLen : Nat := 16

def probeTimeWindowMs : Nat := 30000

/-- What the tag is made of. -/
def probeBodyLen : Nat := 38

inductive ProbeDirection
  | controllerToHost
  | hostToController
deriving DecidableEq

namespace ProbeDirection

def byte : ProbeDirection → UInt8
  | .controllerToHost => 0x01
  | .hostToController => 0x02

def fromByte (byte : UInt8) : Option ProbeDirection :=
  if byte = 0x01 then some .controllerToHost else if byte = 0x02 then some .hostToController else none

def flipped : ProbeDirection → ProbeDirection
  | .controllerToHost => .hostToController
  | .hostToController => .controllerToHost

theorem fromByte_byte : fromByte d.byte = some d := by cases d <;> rfl

theorem byte_of_fromByte (h : fromByte b = some d) : b = d.byte := by
  unfold fromByte at h
  split at h
  · cases h
    assumption
  · split at h
    · cases h
      assumption
    · cases h

theorem byte_injective {d d' : ProbeDirection} (h : d.byte = d'.byte) : d = d' := by
  have := congrArg fromByte h
  rw [fromByte_byte, fromByte_byte] at this
  exact some.inj this

@[simp] theorem flipped_ne {d : ProbeDirection} : d.flipped ≠ d := by cases d <;> decide

end ProbeDirection

/-- Eight bytes. -/
abbrev Nonce := { bytes : Bytes // bytes.length = 8 }

instance : LawfulBEq Nonce := inferInstance

/-- Sixteen bytes. -/
abbrev PathSession := { bytes : Bytes // bytes.length = 16 }

structure Probe where
  direction : ProbeDirection
  timestampMs : Nat
  nonce : Nonce

section

variable (sign : Bytes → Bytes → Bytes)

/-- The part of a probe before its tag. -/
def probeBody (pathSession : PathSession) (direction : ProbeDirection) (timestampMs : Nat) (nonce : Nonce) : Bytes :=
  probeMagic ++ [probeVersion, direction.byte] ++ pathSession.val ++ BigEndian.encode 8 timestampMs ++ nonce.val

/-- `hmac::sign`, cut. -/
def probeTag (key body : Bytes) : Bytes := (sign key body).take probeTagLen

def encodeProbe (key : Bytes) (pathSession : PathSession) (direction : ProbeDirection) (timestampMs : Nat)
    (nonce : Nonce) : Bytes :=
  probeBody pathSession direction timestampMs nonce ++ probeTag sign key (probeBody pathSession direction timestampMs nonce)

def constantTimeEq (a b : Bytes) : Bool :=
  if a.length ≠ b.length then false
  else (a.zip b).foldl (fun diff pair => diff ||| (pair.1 ^^^ pair.2)) 0 = 0

/-- `u64::abs_diff`. -/
def absDiff (a b : Nat) : Nat := (a - b) + (b - a)

/-- Eight bytes of a datagram at the place of the nonce, if there are as many. -/
def nonceAt (bytes : Bytes) : Option Nonce :=
  if h : ((bytes.drop 30).take 8).length = 8 then some ⟨(bytes.drop 30).take 8, h⟩ else none

/-- `verify_probe`, with the nonces that were seen afterwards. -/
def verifyProbe (bytes key : Bytes) (pathSession : PathSession) (expected : ProbeDirection) (nowMs : Nat)
    (seenNonces : List Nonce) : Option (Probe × List Nonce) :=
  if bytes.length ≠ probeLen ∨ bytes.take 4 ≠ probeMagic ∨ bytes.getD 4 0 ≠ probeVersion ∨
      (bytes.drop 6).take 16 ≠ pathSession.val then none
  else
    match ProbeDirection.fromByte (bytes.getD 5 0) with
    | none => none
    | some direction =>
      if direction ≠ expected then none
      else if !constantTimeEq (probeTag sign key (bytes.take probeBodyLen)) (bytes.drop probeBodyLen) then none
      else
        let timestampMs := BigEndian.decode ((bytes.drop 22).take 8)
        if probeTimeWindowMs < absDiff nowMs timestampMs then none
        else
          match nonceAt bytes with
          | none => none
          | some nonce =>
            if nonce ∈ seenNonces then none else some (⟨direction, timestampMs, nonce⟩, nonce :: seenNonces)

end

theorem foldl_diff {pairs : List (UInt8 × UInt8)} :
    pairs.foldl (fun diff pair => diff ||| (pair.1 ^^^ pair.2)) diff = 0 ↔ diff = 0 ∧ ∀ p ∈ pairs, p.1 = p.2 := by
  induction pairs generalizing diff with
  | nil => simp
  | cons p pairs ih =>
    rw [foldl_cons, ih, UInt8.or_eq_zero_iff, UInt8.xor_eq_zero_iff, forall_mem_cons, and_assoc]

theorem eq_of_constantTimeEq (h : constantTimeEq a b = true) : a = b := by
  unfold constantTimeEq at h
  split at h
  · cases h
  · rename_i hlen
    rw [decide_eq_true_eq, foldl_diff] at h
    refine ext_getElem (not_not.mp hlen) fun i hi hi' => ?_
    exact h.2 (a[i], b[i]) (mem_iff_getElem.mpr ⟨i, by simp [hi, hi'], getElem_zip⟩)

section

variable {sign : Bytes → Bytes → Bytes} (pathSession : PathSession) (direction : ProbeDirection) (timestampMs : Nat)

theorem length_probeBody :
    (probeBody pathSession direction timestampMs nonce).length = probeBodyLen := by
  have hmagic : probeMagic.length = 4 := by decide
  simp [probeBody, hmagic, pathSession.property, nonce.property, probeBodyLen]

/-- The 38 bytes of an encoded probe. -/
theorem take_encodeProbe {key : Bytes} {pathSession : PathSession} {direction : ProbeDirection} {timestampMs : Nat}
    {nonce : Nonce} :
    (encodeProbe sign key pathSession direction timestampMs nonce).take probeBodyLen =
      probeBody pathSession direction timestampMs nonce :=
  take_left' (length_probeBody ..)

/-- The direction in a body. -/
theorem getD_probeBody {nonce : Nonce} :
    (probeBody pathSession direction timestampMs nonce).getD 5 0 = direction.byte := by
  have hmagic : probeMagic = [85, 78, 80, 68] := by decide
  rw [probeBody, hmagic]
  rfl

/-- The nonce in a body. -/
theorem drop_probeBody {nonce : Nonce} : (probeBody pathSession direction timestampMs nonce).drop 30 = nonce.val := by
  have hmagic : probeMagic.length = 4 := by decide
  exact drop_left' (by simp [hmagic, pathSession.property])

/-- **What is accepted** has the expected direction at its place, the nonce at its, and the right tag. -/
theorem verifyProbe_some {pathSession : PathSession}
    (h : verifyProbe sign bytes key pathSession expected nowMs seen = some (probe, seen')) :
    bytes.drop probeBodyLen = probeTag sign key (bytes.take probeBodyLen) ∧
      (bytes.take probeBodyLen).getD 5 0 = expected.byte ∧ (bytes.take probeBodyLen).drop 30 = probe.nonce.val := by
  rw [verifyProbe] at h
  obtain ⟨-, h⟩ := ite_none_left_eq_some.mp h
  split at h
  · cases h
  · rename_i direction hdirection
    obtain ⟨hexpected, h⟩ := ite_none_left_eq_some.mp h
    obtain ⟨htag, h⟩ := ite_none_left_eq_some.mp h
    dsimp only at h
    obtain ⟨-, h⟩ := ite_none_left_eq_some.mp h
    split at h
    · cases h
    · rename_i nonce hnonce
      obtain ⟨-, ⟨⟩⟩ := ite_none_left_eq_some.mp h
      refine ⟨?_, ?_, ?_⟩
      · exact (eq_of_constantTimeEq (by simpa using htag)).symm
      · rw [getD_eq_getElem?_getD, getElem?_take_of_lt (by decide), ← getD_eq_getElem?_getD, ← not_not.mp hexpected]
        exact ProbeDirection.byte_of_fromByte hdirection
      · unfold nonceAt at hnonce
        split at hnonce
        · cases hnonce
          exact drop_take
        · cases hnonce

end

end Supercli.DirectPath
