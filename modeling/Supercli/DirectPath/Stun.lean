import Supercli.Browser.Loopback
import Supercli.DirectPath.Probe

/-!
# `DirectPath.Stun` — the reply of a STUN server

`parse_stun_response` looks for the first XOR-MAPPED-ADDRESS attribute of a binding success, and at little else: every
well-formed reply is read, and any other datagram is refused only if that attribute is short or of no known family
(`parseStunResponse_exact_iff`).
-/

namespace Supercli.DirectPath

open List BigEndian
open Browser (SocketAddr)

/-- Twelve bytes. -/
abbrev Transaction := { bytes : Bytes // bytes.length = 12 }

def magicCookie : Nat := 0x2112A442

/-- What an IPv6 address is masked with. -/
def v6Mask (transaction : Transaction) : Bytes := encode 4 magicCookie ++ transaction.val

section

variable (transaction : Transaction)

/-- The address in the value of a XOR-MAPPED-ADDRESS attribute; `none` is a panic. -/
def xorMappedAddress (value : Bytes) : Option (Except String SocketAddr) :=
  if value.length < 8 then some (.error "short xor-mapped-address")
  else
    let port := decode ((value.drop 2).take 2) ^^^ 0x2112
    let family := value.getD 1 0
    if family = 1 then some (.ok ⟨.v4 (.ofNat 32 (decode ((value.drop 4).take 4) ^^^ magicCookie)), port⟩)
    else if family = 2 then
      -- the slice `value[4..20]` is taken before its length is looked at
      if value.length < 20 then none
      else
        let raw := zipWith (· ^^^ ·) ((value.drop 4).take 16) (v6Mask transaction)
        some (.ok ⟨.v6 (.ofNat 128 (decode raw)), port⟩)
    else some (.error "unknown stun address family")

/-- The loop over the attributes. -/
def parseAttributes (bytes : Bytes) : Option (Except String SocketAddr) :=
  match bytes with
  | k₁ :: k₂ :: l₁ :: l₂ :: rest =>
    let length := decode [l₁, l₂]
    if rest.length < length then some (.error "truncated stun attribute")
    else if decode [k₁, k₂] = 0x20 then xorMappedAddress transaction (rest.take length)
    else parseAttributes (rest.drop ((length + 3) / 4 * 4))
  | _ => some (.error "no xor-mapped-address attribute")
termination_by bytes.length
decreasing_by simp; omega

def parseStunResponse (bytes : Bytes) : Option (Except String SocketAddr) :=
  if bytes.length < 20 ∨ bytes.take 2 ≠ [1, 1] then some (.error "not a stun binding success")
  else if (bytes.drop 8).take 12 ≠ transaction.val then some (.error "stun transaction mismatch")
  else parseAttributes transaction (bytes.drop 20)

/-- Attributes, by kind and value, and their bytes. -/
inductive Attributes : List (Nat × Bytes) → Bytes → Prop
  | nil : Attributes [] []
  | cons (hlength : decode [l₁, l₂] = value.length)
      (hpadding : value.length + padding.length = (value.length + 3) / 4 * 4) (h : Attributes attributes bytes) :
      Attributes ((decode [k₁, k₂], value) :: attributes) (k₁ :: k₂ :: l₁ :: l₂ :: (value ++ padding ++ bytes))

/-- The value of a XOR-MAPPED-ADDRESS attribute after its first byte, which is reserved. -/
def xorMapped (addr : SocketAddr) : Bytes :=
  match addr.ip with
  | .v4 octets => 1 :: (encode 2 (addr.port ^^^ 0x2112) ++ encode 4 (octets.toNat ^^^ magicCookie))
  | .v6 octets =>
    2 :: (encode 2 (addr.port ^^^ 0x2112) ++ zipWith (· ^^^ ·) (encode 16 octets.toNat) (v6Mask transaction))

/-- A binding success whose first XOR-MAPPED-ADDRESS is the address. -/
def WellFormed (addr : SocketAddr) (bytes : Bytes) : Prop :=
  addr.port < 2 ^ 16 ∧ ∃ l₁ l₂ reserved attributes body, Attributes attributes body ∧ decode [l₁, l₂] = body.length ∧
    attributes.lookup 0x20 = some (reserved :: xorMapped transaction addr) ∧
    bytes = [1, 1, l₁, l₂] ++ encode 4 magicCookie ++ transaction.val ++ body

/-- Well-formed replies are read, and everything else is an error. -/
def Exact (bytes : Bytes) : Prop :=
  (∀ addr, WellFormed transaction addr bytes → parseStunResponse transaction bytes = some (.ok addr)) ∧
    ((∀ addr, ¬ WellFormed transaction addr bytes) → ∃ e, parseStunResponse transaction bytes = some (.error e))

/-- The first XOR-MAPPED-ADDRESS after whole attributes of other kinds has the value. -/
inductive Mentions : Bytes → Bytes → Prop
  | here (hlength : decode [l₁, l₂] ≤ rest.length) (hkind : decode [k₁, k₂] = 0x20) :
      Mentions (k₁ :: k₂ :: l₁ :: l₂ :: rest) (rest.take (decode [l₁, l₂]))
  | later (hlength : decode [l₁, l₂] ≤ rest.length) (hkind : decode [k₁, k₂] ≠ 0x20)
      (h : Mentions (rest.drop ((decode [l₁, l₂] + 3) / 4 * 4)) value) : Mentions (k₁ :: k₂ :: l₁ :: l₂ :: rest) value

end

section

variable {t : Transaction}

theorem parseAttributes_lookup (h : Attributes attributes bytes) (hlookup : attributes.lookup 0x20 = some value) :
    parseAttributes t bytes = xorMappedAddress t value := by
  induction h with
  | nil => cases hlookup
  | @cons _ _ _ _ k₁ k₂ _ _ hlength hpadding _ ih =>
    rw [parseAttributes, hlength, if_neg (by simp)]
    by_cases hkind : decode [k₁, k₂] = 0x20
    · simp_all
    · rw [lookup_cons, beq_false_of_ne (Ne.symm hkind)] at hlookup
      rw [if_neg hkind, ← hpadding, drop_left' length_append, ih hlookup]

theorem parseAttributes_mentions (h : Mentions bytes value) : parseAttributes t bytes = xorMappedAddress t value := by
  induction h with
  | here hlength hkind => rw [parseAttributes, if_neg hlength.not_gt, if_pos hkind]
  | later hlength hkind _ ih => rw [parseAttributes, if_neg hlength.not_gt, if_neg hkind, ih]

theorem parseAttributes_cases (bytes : Bytes) :
    (∃ e, parseAttributes t bytes = some (.error e)) ∨ ∃ value, Mentions bytes value := by
  fun_induction parseAttributes t bytes with
  | case1 | case4 => exact .inl ⟨_, rfl⟩
  | case2 _ _ _ _ _ _ hlength hkind => exact .inr ⟨_, .here (not_lt.mp hlength) hkind⟩
  | case3 _ _ _ _ _ _ hlength hkind ih => exact ih.imp_right fun ⟨_, h⟩ => ⟨_, .later (not_lt.mp hlength) hkind h⟩

theorem decode_xor (hn : n < 2 ^ (8 * w)) (hm : m < 2 ^ (8 * w)) : decode (encode w (n ^^^ m)) ^^^ m = n := by
  have hlt : n ^^^ m < 256 ^ w := by simpa [Nat.pow_mul] using Nat.xor_lt_two_pow hn hm
  rw [decode_encode, Nat.mod_eq_of_lt hlt, Nat.xor_assoc, Nat.xor_self, Nat.xor_zero]

theorem zipWith_xor : ∀ bytes mask : Bytes, bytes.length ≤ mask.length →
    zipWith (· ^^^ ·) (zipWith (· ^^^ ·) bytes mask) mask = bytes
  | [], _, _ => by simp
  | _ :: bytes, _ :: mask, h => by simp [zipWith_xor bytes mask (Nat.le_of_succ_le_succ h)]

theorem xorMappedAddress_xorMapped (hport : addr.port < 2 ^ 16) :
    xorMappedAddress t (reserved :: xorMapped t addr) = some (.ok addr) := by
  have hport' := decode_xor (w := 2) (m := 0x2112) hport (by decide)
  obtain ⟨ip, port⟩ := addr
  cases ip with
  | v4 octets =>
    have hoctets := decode_xor (w := 4) (m := magicCookie) octets.isLt (by decide)
    simp [-BitVec.ofNat_xor, xorMappedAddress, xorMapped, drop_append, take_of_length_le, hport', hoctets]
  | v6 octets =>
    have hmask : (v6Mask t).length = 16 := by simp [v6Mask, t.2]
    have hbytes := zipWith_xor (encode 16 octets.toNat) (v6Mask t) (by simp [hmask])
    have hoctets : decode (encode 16 octets.toNat) = _ := (decode_encode ..).trans (Nat.mod_eq_of_lt octets.isLt)
    simp [xorMappedAddress, xorMapped, hmask, drop_append, take_of_length_le, hport', hbytes, hoctets]

theorem xorMappedAddress_error_iff :
    (∃ e, xorMappedAddress t value = some (.error e)) ↔
      value.length < 8 ∨ value.getD 1 0 ≠ 1 ∧ value.getD 1 0 ≠ 2 := by
  simp only [xorMappedAddress]
  split_ifs <;> simp_all

theorem parseStunResponse_mentions (htype : bytes.take 2 = [1, 1]) (hid : (bytes.drop 8).take 12 = t.val)
    (h : Mentions (bytes.drop 20) value) : parseStunResponse t bytes = xorMappedAddress t value := by
  have hlength := congrArg length hid
  rw [length_take, length_drop, t.2] at hlength
  rw [parseStunResponse, if_neg (by simp [htype]; omega), if_neg (by simp [hid]), parseAttributes_mentions h]

theorem parseStunResponse_wellFormed (h : WellFormed t addr bytes) : parseStunResponse t bytes = some (.ok addr) := by
  obtain ⟨hport, l₁, l₂, reserved, attributes, body, hattributes, -, hlookup, rfl⟩ := h
  have hcookie : encode 4 magicCookie = [0x21, 0x12, 0xA4, 0x42] := by decide
  simp [hcookie, parseStunResponse, t.2, take_left' t.2, drop_left' t.2, parseAttributes_lookup hattributes hlookup,
    xorMappedAddress_xorMapped hport]

end

/-- **Which datagrams are read as they should be**: the well-formed replies, and of the others those whose first
    XOR-MAPPED-ADDRESS, if there is one, is short or of no known family. -/
theorem parseStunResponse_exact_iff (t : Transaction) (bytes : Bytes) :
    Exact t bytes ↔ (∃ addr, WellFormed t addr bytes) ∨
      (bytes.take 2 = [1, 1] → (bytes.drop 8).take 12 = t.val → ∀ value, Mentions (bytes.drop 20) value →
        value.length < 8 ∨ value.getD 1 0 ≠ 1 ∧ value.getD 1 0 ≠ 2) := by
  constructor
  · rintro ⟨-, herror⟩
    refine or_iff_not_imp_left.mpr fun hnot htype hid value hvalue => ?_
    have he := herror (not_exists.mp hnot)
    rw [parseStunResponse_mentions htype hid hvalue] at he
    exact xorMappedAddress_error_iff.mp he
  · refine fun h => ⟨fun _ => parseStunResponse_wellFormed, fun hnot => ?_⟩
    replace h := h.resolve_left (not_exists.mpr hnot)
    unfold parseStunResponse
    split
    · exact ⟨_, rfl⟩
    · split
      · exact ⟨_, rfl⟩
      · rename_i htype hid
        rcases parseAttributes_cases (bytes.drop 20) with herror | ⟨value, hvalue⟩
        · exact herror
        · rw [parseAttributes_mentions hvalue]
          exact xorMappedAddress_error_iff.mpr (h (not_not.mp (not_or.mp htype).2) (not_not.mp hid) value hvalue)

/-- **An IPv6 attribute of eight bytes** is neither read nor refused. -/
theorem parseStunResponse_panics :
    ¬ Exact ⟨replicate 12 0, rfl⟩ ([1, 1] ++ replicate 18 0 ++ [0, 0x20, 0, 8, 0, 2] ++ replicate 6 0) := by
  simp [Exact, parseStunResponse, parseAttributes, xorMappedAddress, decode]

end Supercli.DirectPath
