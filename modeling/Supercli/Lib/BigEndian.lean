import Mathlib

/-!
# `Lib.BigEndian` — numbers as a fixed number of bytes

`encode w n` are the `w` lowest bytes of `n`, the highest first; `decode` reads such bytes back. What does not fit
is cut off, so the round trip is `n % 256 ^ w`.
-/

namespace BigEndian

open List

def encode : Nat → Nat → List UInt8
  | 0, _ => []
  | w + 1, n => UInt8.ofNat (n / 256 ^ w) :: encode w n

def decode (bytes : List UInt8) : Nat := bytes.foldl (fun acc byte => acc * 256 + byte.toNat) 0

@[simp] theorem length_encode : (encode w n).length = w := by
  induction w with
  | zero => rfl
  | succ w ih => rw [encode, length_cons, ih]

/-- The accumulator of `decode` moves up by `w` bytes. -/
theorem foldl_encode : ∀ acc : Nat,
    (encode w n).foldl (fun acc byte => acc * 256 + byte.toNat) acc = acc * 256 ^ w + n % 256 ^ w := by
  induction w with
  | zero => intro acc; simp [encode, Nat.mod_one]
  | succ w ih =>
    intro acc
    have hbyte : (UInt8.ofNat (n / 256 ^ w)).toNat = n / 256 ^ w % 256 := UInt8.toNat_ofNat'
    have hmod : n % 256 ^ (w + 1) = n % 256 ^ w + 256 ^ w * (n / 256 ^ w % 256) := by
      rw [Nat.pow_succ, Nat.mod_mul]
    rw [encode, foldl_cons, ih, hbyte, hmod]
    ring

theorem decode_encode (w : Nat) : decode (encode w n) = n % 256 ^ w := by
  rw [decode, foldl_encode, Nat.zero_mul, Nat.zero_add]

theorem decode_lt (bytes : List UInt8) : decode bytes < 256 ^ bytes.length := by
  have hfold : ∀ acc : Nat,
      bytes.foldl (fun acc byte => acc * 256 + byte.toNat) acc < (acc + 1) * 256 ^ bytes.length := by
    induction bytes with
    | nil => intro acc; simp
    | cons byte bytes ih =>
      intro acc
      have hbyte : byte.toNat < 256 := byte.toNat_lt
      calc _ < (acc * 256 + byte.toNat + 1) * 256 ^ bytes.length := ih _
        _ ≤ (acc + 1) * 256 * 256 ^ bytes.length := Nat.mul_le_mul_right _ (by omega)
        _ = (acc + 1) * 256 ^ (byte :: bytes).length := by rw [length_cons, Nat.pow_succ]; ring
  simpa [decode] using hfold 0

end BigEndian
