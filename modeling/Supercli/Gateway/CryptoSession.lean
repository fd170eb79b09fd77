import Supercli.Gateway.TunnelWire
import Supercli.Lib.Machine

/-!
# `Gateway.CryptoSession` — the sealed channel between a host and its client

`CryptoSession` of `relay_crypto.rs`: each direction has a key and a tag, and the counter of a frame is the rest of its
nonce. A `Channel` is the two sessions of one handshake and everything between them: who holds the wire hands either
side whatever frame they like (`Move.deliver`), which covers frames that are dropped, repeated, reordered, cut or made
up. The AEAD is ideal: it opens only what was sealed.

`relay_channel_integrity`: what one side opens is a subsequence of what the other sealed, no nonce is used twice under
one key, and a refusal leaves the session as it was.
-/

namespace Supercli.Gateway

open List Function Option BigEndian

/-- One use of the sealing function: under which key and nonce, and what became of what. -/
structure Sealed where
  key : Bytes
  nonce : Bytes
  ciphertext : Bytes
  plaintext : Bytes
deriving DecidableEq

/-- An ideal AEAD. Opening depends on what has been sealed and succeeds on nothing else; what fits a frame can be
    sealed (AES-GCM refuses only what is longer than 2^36 - 32 bytes). -/
structure Aead where
  /-- `seal_in_place_append_tag` of a key, a nonce and a plaintext. -/
  sealInPlace : Bytes → Bytes → Bytes → Option Bytes
  /-- `open_in_place` of a key, a nonce and a ciphertext. -/
  openInPlace : List Sealed → Bytes → Bytes → Bytes → Option Bytes
  sealInPlace_of_fits : ∀ key nonce {plaintext}, plaintextFrameFits plaintext.length = true →
    ∃ body, sealInPlace key nonce plaintext = some body
  ideal : ∀ {uses key nonce ciphertext plaintext}, openInPlace uses key nonce ciphertext = some plaintext →
    ⟨key, nonce, ciphertext, plaintext⟩ ∈ uses

structure CryptoSession where
  sendKey : Bytes
  receiveKey : Bytes
  sendTag : Bytes
  receiveTag : Bytes
  sendCounter : Nat
  lastReceived : Nat
deriving DecidableEq

/-- The tag of the frames a side sends: `h2c!` or `c2h!`. -/
def sideTag (isHost : Bool) : Bytes := if isHost then [0x68, 0x32, 0x63, 0x21] else [0x63, 0x32, 0x68, 0x21]

namespace CryptoSession

/-- `CryptoSession::new`, over `derive_key` of key material, salt and label. -/
def new (deriveKey : Bytes → Bytes → String → Bytes) (e2eKey shared clientSalt hostSalt : Bytes) (isHost : Bool) :
    Except String CryptoSession :=
  if e2eKey.length ≠ 32 ∨ shared.length ≠ 32 ∨ clientSalt.length ≠ 16 ∨ hostSalt.length ≠ 16 then
    .error "handshake failed"
  else
    let c2h := deriveKey (e2eKey ++ shared) (clientSalt ++ hostSalt) "supercli-relay-v2:c2h"
    let h2c := deriveKey (e2eKey ++ shared) (clientSalt ++ hostSalt) "supercli-relay-v2:h2c"
    let send := if isHost then h2c else c2h
    let recv := if isHost then c2h else h2c
    -- `UnboundKey::new` takes 32 bytes
    if send.length ≠ 32 ∨ recv.length ≠ 32 then .error "bad key"
    else .ok ⟨send, recv, sideTag isHost, sideTag !isHost, 0, 0⟩

/-- `nonce`: the tag and the counter, big-endian. -/
def nonce (tag : Bytes) (counter : Nat) : Bytes := tag ++ encode 8 counter

variable (A : Aead)

/-- `seal`: what it returns, the session after it and the uses of the sealing function. The counter is counted up before
    the AEAD is asked. -/
def sealFrame (s : CryptoSession) (uses : List Sealed) (plaintext : Bytes) :
    Except String Bytes × CryptoSession × List Sealed :=
  if !plaintextFrameFits plaintext.length then (.error "relay plaintext frame too large", s, uses)
  else if 2 ^ 64 ≤ s.sendCounter + 1 then (.error "counter exhausted", s, uses)
  else
    let s' := { s with sendCounter := s.sendCounter + 1 }
    match A.sealInPlace s'.sendKey (nonce s'.sendTag s'.sendCounter) plaintext with
    | none => (.error "seal failed", s', uses)
    | some body =>
      (.ok (encode 8 s'.sendCounter ++ body), s',
        uses ++ [⟨s'.sendKey, nonce s'.sendTag s'.sendCounter, body, plaintext⟩])

/-- `open`, given everything that was sealed so far. -/
def openFrame (s : CryptoSession) (uses : List Sealed) (frame : Bytes) : Except String Bytes × CryptoSession :=
  if frame.length < 8 + 16 then (.error "open failed", s)
  else
    let counter := decode (frame.take 8)
    if counter ≤ s.lastReceived then (.error "replay detected", s)
    else match A.openInPlace uses s.receiveKey (nonce s.receiveTag counter) (frame.drop 8) with
      | none => (.error "open failed", s)
      | some plaintext => (.ok plaintext, { s with lastReceived := counter })

variable {A} {s : CryptoSession} {uses : List Sealed}

/-- What `seal` can do: refuse and change nothing, or use the next counter. -/
theorem sealFrame_cases (s : CryptoSession) (uses : List Sealed) (plaintext : Bytes) :
    (∃ e, s.sealFrame A uses plaintext = (.error e, s, uses)) ∨ ∃ body, s.sendCounter + 1 < 2 ^ 64 ∧
      s.sealFrame A uses plaintext = (.ok (encode 8 (s.sendCounter + 1) ++ body),
        { s with sendCounter := s.sendCounter + 1 },
        uses ++ [⟨s.sendKey, nonce s.sendTag (s.sendCounter + 1), body, plaintext⟩]) := by
  unfold sealFrame
  by_cases hfits : plaintextFrameFits plaintext.length = true
  · by_cases hmax : 2 ^ 64 ≤ s.sendCounter + 1
    · exact .inl ⟨_, by rw [hfits, if_neg (by decide), if_pos hmax]⟩
    · obtain ⟨body, hbody⟩ := A.sealInPlace_of_fits s.sendKey (nonce s.sendTag (s.sendCounter + 1)) hfits
      refine .inr ⟨body, Nat.not_le.mp hmax, ?_⟩
      rw [hfits, if_neg (by decide), if_neg hmax]
      dsimp only
      rw [hbody]
  · exact .inl ⟨_, by rw [if_pos (by simpa using hfits)]⟩

/-- What `open` can do: refuse and change nothing, or return what was sealed with a counter that is new. -/
theorem openFrame_cases (s : CryptoSession) (uses : List Sealed) (frame : Bytes) :
    (∃ e, s.openFrame A uses frame = (.error e, s)) ∨
    ∃ use ∈ uses, ∃ counter < 2 ^ 64, s.lastReceived < counter ∧ use.nonce = nonce s.receiveTag counter ∧
      s.openFrame A uses frame = (.ok use.plaintext, { s with lastReceived := counter }) := by
  unfold openFrame
  by_cases hlen : frame.length < 8 + 16
  · exact .inl ⟨_, if_pos hlen⟩
  · rw [if_neg hlen]
    dsimp only
    by_cases hold : decode (frame.take 8) ≤ s.lastReceived
    · exact .inl ⟨_, if_pos hold⟩
    · rw [if_neg hold]
      cases hopen : A.openInPlace uses s.receiveKey (nonce s.receiveTag (decode (frame.take 8)))
          (frame.drop 8) with
      | none => exact .inl ⟨_, rfl⟩
      | some =>
        have hlt := decode_lt (frame.take 8)
        rw [length_take, Nat.min_eq_left (by omega)] at hlt
        exact .inr ⟨_, A.ideal hopen, _, hlt, Nat.not_le.mp hold, rfl, rfl⟩

end CryptoSession

/-! ## The channel -/

/-- Two sessions (`true` is the host's), and for each side how it used the sealing function and what it opened. -/
structure Channel where
  session : Bool → CryptoSession
  uses : Bool → List Sealed
  opened : Bool → List Bytes

/-- What may happen: a side sends, or is handed any frame at all. -/
inductive Move
  | send (isHost : Bool) (plaintext : Bytes)
  | deliver (isHost : Bool) (frame : Bytes)
deriving DecidableEq

namespace Channel

/-- Everything that was sealed. -/
def allUses (c : Channel) : List Sealed := c.uses true ++ c.uses false

/-- A channel after the handshake. -/
def start (host client : CryptoSession) : Channel :=
  ⟨fun isHost => if isHost then host else client, fun _ => [], fun _ => []⟩

def step (A : Aead) (c : Channel) : Move → Channel
  | .send isHost plaintext =>
    let r := (c.session isHost).sealFrame A (c.uses isHost) plaintext
    { c with session := update c.session isHost r.2.1, uses := update c.uses isHost r.2.2 }
  | .deliver isHost frame =>
    let r := (c.session isHost).openFrame A c.allUses frame
    { c with
      session := update c.session isHost r.2
      opened := update c.opened isHost (c.opened isHost ++ r.1.toOption.toList) }

open CryptoSession

/-- One side: it has used the counters up to its own, in order, and has opened some of what the other side sealed with the
    counters up to the last one it received. -/
structure SideInv (side : Bool) (s : CryptoSession) (own theirs : List Sealed) (opened : List Bytes) : Prop where
  sendTag : s.sendTag = sideTag side
  receiveTag : s.receiveTag = sideTag !side
  bound : s.sendCounter < 2 ^ 64
  counter : own.length = s.sendCounter
  nonce : ∀ i use, own[i]? = some use → use.nonce = nonce (sideTag side) (i + 1)
  opened : Sublist opened ((theirs.take s.lastReceived).map Sealed.plaintext)

/-- Both sides. -/
def Inv (c : Channel) : Prop := ∀ side, SideInv side (c.session side) (c.uses side) (c.uses !side) (c.opened side)

variable {A : Aead} {c : Channel} {side other : Bool} {use use' : Sealed} {i j n k : Nat}

/-- A nonce says whose it is and with which counter. -/
theorem nonce_inj (hn : n < 2 ^ 64) (hk : k < 2 ^ 64)
    (h : nonce (sideTag side) n = nonce (sideTag other) k) : side = other ∧ n = k := by
  obtain ⟨htag, hcounter⟩ := append_inj h (by cases side <;> cases other <;> rfl)
  refine ⟨?_, ?_⟩
  · revert htag
    cases side <;> cases other <;> decide
  · have hdecode := congrArg decode hcounter
    rw [decode_encode, decode_encode] at hdecode
    omega

namespace Inv

variable (h : c.Inv)

include h

/-- The counters of the uses do not wrap. -/
theorem index_lt (huse : (c.uses side)[i]? = some use) : i + 1 < 2 ^ 64 := by
  have hi := (List.getElem?_eq_some_iff.mp huse).1
  have hcounter := (h side).counter
  have hbound := (h side).bound
  omega

/-- **A nonce is used once**, whatever the keys are. -/
theorem use_inj (huse : (c.uses side)[i]? = some use) (huse' : (c.uses other)[j]? = some use')
    (hnonce : use.nonce = use'.nonce) : side = other ∧ i = j := by
  rw [(h side).nonce i use huse, (h other).nonce j use' huse'] at hnonce
  obtain ⟨hside, hij⟩ := nonce_inj (h.index_lt huse) (h.index_lt huse') hnonce
  exact ⟨hside, Nat.succ.inj hij⟩

/-- A use with a side's tag is that side's, at the place its counter says. -/
theorem use_at (huse : use ∈ c.allUses) (hn : n < 2 ^ 64)
    (hnonce : use.nonce = nonce (sideTag side) n) : ∃ i, n = i + 1 ∧ (c.uses side)[i]? = some use := by
  have hmem : ∃ other, use ∈ c.uses other := (mem_append.mp huse).elim (⟨true, ·⟩) (⟨false, ·⟩)
  obtain ⟨other, hmem⟩ := hmem
  obtain ⟨i, hi⟩ := mem_iff_getElem?.mp hmem
  obtain ⟨rfl, rfl⟩ := nonce_inj hn (h.index_lt hi) (hnonce.symm.trans ((h other).nonce i use hi))
  exact ⟨i, rfl, hi⟩

/-- **No pair of a key and a nonce is used twice.** -/
theorem nodup : (c.allUses.map fun use => (use.key, use.nonce)).Nodup := by
  have hside : ∀ side, (c.uses side).Pairwise fun use use' => use.nonce ≠ use'.nonce := by
    intro side
    rw [pairwise_iff_getElem]
    intro i j hi hj hij hnonce
    have hindex := (h.use_inj (getElem?_eq_getElem hi) (getElem?_eq_getElem hj) hnonce).2
    omega
  have hall : c.allUses.Pairwise fun use use' => use.nonce ≠ use'.nonce := by
    refine pairwise_append.mpr ⟨hside true, hside false, fun use huse use' huse' hnonce => ?_⟩
    obtain ⟨i, hi⟩ := mem_iff_getElem?.mp huse
    obtain ⟨j, hj⟩ := mem_iff_getElem?.mp huse'
    exact absurd (h.use_inj hi hj hnonce).1 (by decide)
  exact pairwise_map.mpr (hall.imp fun hne heq => hne (congrArg Prod.snd heq))

end Inv

theorem inv_start (hhost : new deriveKey e2eKey shared clientSalt hostSalt true = .ok host)
    (hclient : new deriveKey e2eKey shared clientSalt hostSalt false = .ok client) :
    (start host client).Inv := by
  have hnew : ∀ side s, new deriveKey e2eKey shared clientSalt hostSalt side = .ok s →
      SideInv side s [] [] [] := by
    intro side s hs
    unfold new at hs
    dsimp only at hs
    repeat' split at hs
    all_goals cases hs
    all_goals exact ⟨rfl, rfl, Nat.two_pow_pos 64, rfl, nofun, nil_sublist _⟩
  exact Bool.rec (hnew false client hclient) (hnew true host hhost)

namespace SideInv

variable {s : CryptoSession} {own theirs : List Sealed} {opened : List Bytes} (h : SideInv side s own theirs opened)

include h

theorem seals (hlt : s.sendCounter + 1 < 2 ^ 64)
    (hnonce : use.nonce = CryptoSession.nonce s.sendTag (s.sendCounter + 1)) :
    SideInv side { s with sendCounter := s.sendCounter + 1 } (own ++ [use]) theirs opened := by
  refine ⟨h.sendTag, h.receiveTag, hlt, by simp [h.counter], fun i use' huse' => ?_, h.opened⟩
  by_cases hi : i < own.length
  · rw [getElem?_append_left hi] at huse'
    exact h.nonce i use' huse'
  · rw [getElem?_append_right (Nat.not_lt.mp hi), getElem?_singleton] at huse'
    obtain ⟨hzero, ⟨⟩⟩ := ite_none_right_eq_some.mp huse'
    have hlast : i = s.sendCounter := by
      have hcounter := h.counter
      omega
    rw [hnonce, h.sendTag, hlast]

theorem hears : SideInv side s own (theirs ++ [use]) opened := by
  have hgrow : Sublist (theirs.take s.lastReceived) ((theirs ++ [use]).take s.lastReceived) := by
    rw [take_append]
    exact sublist_append_left _ _
  exact { h with opened := h.opened.trans (hgrow.map _) }

/-- The side opens a frame that is past what it received. -/
theorem opens (hnew : s.lastReceived < i + 1) (huse : theirs[i]? = some use) :
    SideInv side { s with lastReceived := i + 1 } own theirs (opened ++ [use.plaintext]) := by
  have hgrow : Sublist (theirs.take s.lastReceived ++ [use]) (theirs.take (i + 1)) := by
    rw [take_add_one, huse]
    exact (take_sublist_take_left (Nat.le_of_lt_succ hnew)).append_right _
  have hmap := hgrow.map Sealed.plaintext
  rw [map_append] at hmap
  exact { h with opened := (h.opened.append_right [use.plaintext]).trans hmap }

end SideInv

theorem inv_step (c : Channel) (m : Move) (h : c.Inv) : (c.step A m).Inv := by
  intro side
  cases m with
  | send isHost plaintext =>
    obtain ⟨e, hseal⟩ | ⟨body, hlt, hseal⟩ := (c.session isHost).sealFrame_cases (A := A) (c.uses isHost) plaintext
    · simp only [step, hseal, update_eq_self]
      exact h side
    · simp only [step, hseal]
      by_cases hs : side = isHost
      · subst hs
        simpa using (h side).seals hlt rfl
      · obtain rfl : isHost = !side := by cases side <;> cases isHost <;> simp_all
        simpa using (h side).hears
  | deliver isHost frame =>
    obtain ⟨e, hopen⟩ | ⟨use, huse, n, hn, hnew, hnonce, hopen⟩ :=
      (c.session isHost).openFrame_cases (A := A) c.allUses frame
    · simp only [step, hopen, update_eq_self, Except.toOption, toList, append_nil]
      exact h side
    · simp only [step, hopen]
      by_cases hs : side = isHost
      · subst hs
        rw [(h side).receiveTag] at hnonce
        obtain ⟨i, rfl, hi⟩ := Inv.use_at h huse hn hnonce
        simpa [Except.toOption] using (h side).opens hnew hi
      · simpa [hs] using h side

/-- **The channel keeps its invariant.** -/
theorem inv_run (h : c.Inv) : (Machine.run (step A) c moves).Inv :=
  Machine.invariant_of_forall inv_step h moves

end Channel

/-- **What a side opens the other has sealed**, in order and once; no nonce is used twice under a key; and a frame that is
    refused, to be sealed or to be opened, leaves the session as it was. -/
theorem relay_channel_integrity (A : Aead) (deriveKey : Bytes → Bytes → String → Bytes)
    (e2eKey shared clientSalt hostSalt : Bytes) (host client : CryptoSession)
    (hhost : CryptoSession.new deriveKey e2eKey shared clientSalt hostSalt true = .ok host)
    (hclient : CryptoSession.new deriveKey e2eKey shared clientSalt hostSalt false = .ok client) (moves : List Move) :
    let c := Machine.run (Channel.step A) (Channel.start host client) moves
    (∀ side, Sublist (c.opened side) ((c.uses !side).map Sealed.plaintext)) ∧
      (c.allUses.map fun use => (use.key, use.nonce)).Nodup ∧
      (∀ side plaintext e, ((c.session side).sealFrame A (c.uses side) plaintext).1 = .error e →
        ((c.session side).sealFrame A (c.uses side) plaintext).2.1 = c.session side) ∧
      ∀ side frame e, ((c.session side).openFrame A c.allUses frame).1 = .error e →
        ((c.session side).openFrame A c.allUses frame).2 = c.session side := by
  intro c
  have hinv : c.Inv := Channel.inv_run (Channel.inv_start hhost hclient)
  refine ⟨fun side => (hinv side).opened.trans ((take_sublist _ _).map _), hinv.nodup, ?_, ?_⟩
  · intro side plaintext e herror
    obtain ⟨e', hseal⟩ | ⟨body, -, hseal⟩ := (c.session side).sealFrame_cases (A := A) (c.uses side) plaintext
    · rw [hseal]
    · rw [hseal] at herror
      cases herror
  · intro side frame e herror
    obtain ⟨e', hopen⟩ | ⟨use, -, n, -, -, -, hopen⟩ := (c.session side).openFrame_cases (A := A) c.allUses frame
    · rw [hopen]
    · rw [hopen] at herror
      cases herror

/-- An AEAD that hides nothing and opens what was sealed. -/
def Aead.plain : Aead where
  sealInPlace _ _ plaintext := some (plaintext ++ replicate 16 0)
  openInPlace uses key nonce ciphertext :=
    (uses.find? fun use => use.key == key && use.nonce == nonce && use.ciphertext == ciphertext).map Sealed.plaintext
  sealInPlace_of_fits _ _ _ _ := ⟨_, rfl⟩
  ideal h := by
    obtain ⟨use, hfind, rfl⟩ := map_eq_some_iff.mp h
    have hsame := find?_some hfind
    simp only [Bool.and_eq_true, beq_iff_eq] at hsame
    obtain ⟨⟨rfl, rfl⟩, rfl⟩ := hsame
    exact mem_of_find?_eq_some hfind

/-- Of two frames in the wrong order the second is a replay. -/
theorem relay_channel_integrity_reordered :
    let c := Machine.run (Channel.step .plain)
      (Channel.start ⟨replicate 32 1, replicate 32 1, sideTag true, sideTag false, 0, 0⟩
        ⟨replicate 32 1, replicate 32 1, sideTag false, sideTag true, 0, 0⟩)
      [.send true [7], .send true [8], .deliver false (encode 8 2 ++ 8 :: replicate 16 0),
        .deliver false (encode 8 1 ++ 7 :: replicate 16 0)]
    c.opened false = [[8]] ∧ c.opened false <+ (c.uses true).map Sealed.plaintext :=
  ⟨by decide, (relay_channel_integrity .plain (fun _ _ _ => replicate 32 1) (replicate 32 0) (replicate 32 0)
    (replicate 16 0) (replicate 16 0) _ _ rfl rfl _).1 false⟩

end Supercli.Gateway
