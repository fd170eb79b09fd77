import Supercli.Lib.Json
import Supercli.Lib.TextLog

/-!
# `Lib.JsonRecord` — the text of a flat JSON object

A record is an object whose members are scalars, the usual line of a JSON log. Strings and scalars can be told from what
follows them (`quote_inj`, `scalar_inj`), so a record is determined by its text (`record_inj`). That
text has no control characters (`printable_record`), so a record is one line.
-/

namespace Json

open List Char

/-! ## Strings -/

def hexValue (c : Char) : Nat := if c.isDigit then c.toNat - 48 else c.toNat - 87

/-- The character that a backslash and `c` stand for. -/
def unescape (c : Char) : Char :=
  if c = 'b' then ofNat 8
  else if c = 't' then ofNat 9
  else if c = 'n' then ofNat 10
  else if c = 'f' then ofNat 12
  else if c = 'r' then ofNat 13
  else c

/-- The characters up to the closing quote, and what follows it. -/
def readChars : Text → Option (Text × Text)
  | [] => none
  | c :: rest =>
    if c.toNat = 34 then some ([], rest)
    else if c.toNat = 92 then
      match rest with
      | 'u' :: '0' :: '0' :: a :: b :: rest =>
        (readChars rest).map fun r => (ofNat (hexValue a * 16 + hexValue b) :: r.1, r.2)
      | d :: rest => (readChars rest).map fun r => (unescape d :: r.1, r.2)
      | [] => none
    else (readChars rest).map fun r => (c :: r.1, r.2)

/-- The two digits of a control character give it back. -/
theorem hexValue_hexDigit : ∀ n < 32, hexValue (hexDigit (n / 16)) * 16 + hexValue (hexDigit (n % 16)) = n := by decide

/-- The characters that are written as a backslash and one other. -/
theorem readChars_short : ∀ n ∈ [34, 92, 8, 9, 10, 12, 13], ∀ rest : Text,
    readChars (escape (ofNat n) ++ rest) = (readChars rest).map fun r => (ofNat n :: r.1, r.2) := by
  intro n hn rest
  simp only [mem_cons, not_mem_nil, or_false] at hn
  rcases hn with rfl | rfl | rfl | rfl | rfl | rfl | rfl <;> rfl

theorem readChars_escape :
    readChars (escape c ++ rest) = (readChars rest).map fun r => (c :: r.1, r.2) := by
  by_cases hshort : c.toNat ∈ [34, 92, 8, 9, 10, 12, 13]
  · have h := readChars_short c.toNat hshort rest
    rwa [ofNat_toNat] at h
  have hback : (ofNat 92).toNat = 92 := by decide
  simp only [mem_cons, not_mem_nil, or_false, not_or] at hshort
  obtain ⟨h34, h92, h8, h9, h10, h12, h13⟩ := hshort
  unfold escape
  simp only [h34, h92, h8, h9, h10, h12, h13, if_false]
  split
  · -- any other control character is written by its code
    rename_i h
    have hcode := hexValue_hexDigit _ h
    simp only [cons_append, nil_append, readChars, hback, hcode, ofNat_toNat]
    rfl
  · rw [cons_append, nil_append, readChars.eq_def]
    dsimp only
    rw [if_neg h34, if_neg h92]

/-- **A quoted string is read back.** -/
theorem readChars_quote :
    readChars (s.flatMap escape ++ ofNat 34 :: rest) = some (s, rest) := by
  induction s with
  | nil =>
    rw [flatMap_nil, nil_append, readChars.eq_def]
    exact if_pos (by decide)
  | cons c s ih => rw [flatMap_cons, append_assoc, readChars_escape, ih, Option.map_some]

theorem quote_append :
    quote s ++ rest = ofNat 34 :: (s.toList.flatMap escape ++ ofNat 34 :: rest) := by simp [quote]

variable {rest' rest : Text} {ms' ms : List (String × Json)}

/-- **A string ends at its closing quote.** -/
theorem quote_inj (h : quote s ++ rest = quote s' ++ rest') : s = s' ∧ rest = rest' := by
  rw [quote_append, quote_append] at h
  have hread := congrArg readChars (cons.inj h).2
  rw [readChars_quote, readChars_quote] at hread
  obtain ⟨hs, hrest⟩ := Prod.mk.inj (Option.some.inj hread)
  exact ⟨String.toList_inj.mp hs, hrest⟩

/-! ## Scalars and records -/

/-- Neither an array nor an object, and no number of its own spelling. -/
def scalar : Json → Bool
  | .null | .bool _ | .nat _ | .str _ => true
  | _ => false

@[simp] theorem scalar_str : (Json.str s).scalar = true := rfl

@[simp] theorem scalar_nat : (Json.nat n).scalar = true := rfl

theorem toList_toString : (toString n).toList = Nat.toDigits 10 n := by simp

theorem isDigit_of_mem_toString {n : Nat} (hc : c ∈ (toString n).toList) : c.isDigit = true :=
  Nat.isDigit_of_mem_toDigits (by decide) (by decide) (toList_toString ▸ hc)

/-- **A number ends with its digits.** -/
theorem digits_inj {n : Nat} (hd : d.isDigit = false) (hd' : d'.isDigit = false)
    (h : (toString n).toList ++ d :: rest = (toString n').toList ++ d' :: rest') :
    n = n' ∧ d :: rest = d' :: rest' := by
  have htake {n : Nat} {d : Char} (hd : d.isDigit = false) (rest : Text) :
      ((toString n).toList ++ d :: rest).takeWhile isDigit = (toString n).toList := by
    rw [takeWhile_append_of_pos fun c hc => isDigit_of_mem_toString hc, takeWhile_cons_of_neg (by simp [hd]),
      append_nil]
  have hdigits := congrArg (takeWhile isDigit) h
  rw [htake hd, htake hd'] at hdigits
  have hvalue := congrArg (Nat.ofDigitChars 10 · 0) hdigits
  simp only [toList_toString, Nat.ofDigitChars_toDigits (b := 10) (by decide) (by decide)] at hvalue
  rw [hdigits] at h
  exact ⟨hvalue, append_cancel_left h⟩

/-- **A scalar ends before what is no digit.** -/
theorem scalar_inj (hv : v.scalar = true) (hv' : v'.scalar = true) (hd : d.isDigit = false)
    (hd' : d'.isDigit = false) (h : render v ++ d :: rest = render v' ++ d' :: rest') :
    v = v' ∧ d :: rest = d' :: rest' := by
  -- what the first character says
  have hnat (n : Nat) : ∃ c ds, (toString n).toList = c :: ds ∧ c.isDigit = true := by
    cases hds : (toString n).toList with
    | nil => exact absurd (toList_toString ▸ hds) Nat.toDigits_ne_nil
    | cons c ds => exact ⟨c, ds, rfl, isDigit_of_mem_toString (hds ▸ mem_cons_self)⟩
  have hword (n : Nat) {c : Char} (hc : c.isDigit = false) {text rest : Text} :
      (toString n).toList ++ rest ≠ c :: text := by
    obtain ⟨c', ds, hds, hdigit⟩ := hnat n
    rintro heq
    rw [hds, cons_append] at heq
    rw [(cons.inj heq).1, hc] at hdigit
    cases hdigit
  have hquote (s : String) {c : Char} (hc : c.toNat ≠ 34) {text rest : Text} : quote s ++ rest ≠ c :: text := fun heq =>
    hc (congrArg toNat (cons.inj (quote_append ▸ heq)).1.symm)
  cases v with
  | null =>
    cases v' with
    | null => exact ⟨rfl, append_cancel_left h⟩
    | bool b => cases b <;> cases h
    | nat n => exact absurd h.symm (hword n rfl)
    | str s => exact absurd h.symm (hquote s (by decide))
    | _ => cases hv'
  | bool b =>
    cases v' with
    | null => cases b <;> cases h
    | bool b' => cases b <;> cases b' <;> first | exact ⟨rfl, append_cancel_left h⟩ | cases h
    | nat n => cases b <;> exact absurd h.symm (hword n rfl)
    | str s => cases b <;> exact absurd h.symm (hquote s (by decide))
    | _ => cases hv'
  | nat n =>
    cases v' with
    | null | str _ => exact absurd h (hword n rfl)
    | bool b => cases b <;> exact absurd h (hword n rfl)
    | nat =>
      obtain ⟨rfl, hrest⟩ := digits_inj hd hd' h
      exact ⟨rfl, hrest⟩
    | _ => cases hv'
  | str s =>
    cases v' with
    | null => exact absurd h (hquote s (by decide))
    | bool b => cases b <;> exact absurd h (hquote s (by decide))
    | nat n => exact absurd h.symm (hword n rfl)
    | str =>
      obtain ⟨rfl, hrest⟩ := quote_inj h
      exact ⟨rfl, hrest⟩
    | _ => cases hv'
  | _ => cases hv

section

variable (hne : ms ≠ []) (hne' : ms' ≠ []) (hs : ∀ m ∈ ms, m.2.scalar = true) (hs' : ∀ m ∈ ms', m.2.scalar = true)

include hne hne' hs hs'

theorem renderMembers_inj (h : renderMembers ms ++ [ofNat 125] = renderMembers ms' ++ [ofNat 125]) : ms = ms' := by
  -- a comma says that there is a next member
  induction ms generalizing ms' with
  | nil => exact absurd rfl hne
  | cons m ms ih =>
    obtain ⟨key, v⟩ := m
    cases ms' with
    | nil => exact absurd rfl hne'
    | cons m' ms' =>
      obtain ⟨key', v'⟩ := m'
      have hv := hs (key, v) mem_cons_self
      have hv' := hs' (key', v') mem_cons_self
      have hfirst {d d' : Char} (hd : d.isDigit = false) (hd' : d'.isDigit = false) {rest rest' : Text}
          (h : quote key ++ ':' :: render v ++ d :: rest = quote key' ++ ':' :: render v' ++ d' :: rest') :
          (key, v) = (key', v') ∧ d :: rest = d' :: rest' := by
        rw [append_assoc, append_assoc] at h
        obtain ⟨rfl, htail⟩ := quote_inj h
        obtain ⟨rfl, hrest⟩ := scalar_inj hv hv' hd hd' (cons.inj htail).2
        exact ⟨rfl, hrest⟩
      cases ms with
      | nil =>
        cases ms' with
        | nil => rw [(hfirst rfl rfl h).1]
        | cons =>
          rw [renderMembers, renderMembers, append_assoc _ (',' :: _)] at h
          exact absurd (cons.inj (hfirst rfl rfl h).2).1 (by decide)
      | cons =>
        rw [renderMembers, append_assoc _ (',' :: _)] at h
        cases ms' with
        | nil => exact absurd (cons.inj (hfirst rfl rfl h).2).1 (by decide)
        | cons =>
          rw [renderMembers, append_assoc _ (',' :: _)] at h
          obtain ⟨heq, hrest⟩ := hfirst rfl rfl h
          rw [heq, ih (cons_ne_nil _ _) (cons_ne_nil _ _) (fun m hm => hs m (mem_cons_of_mem _ hm))
            (fun m hm => hs' m (mem_cons_of_mem _ hm)) (cons.inj hrest).2]

/-- **Records with the same text have the same members.** -/
theorem record_inj (h : render (.obj ms) = render (.obj ms')) : ms = ms' :=
  renderMembers_inj hne hne' hs hs' (cons.inj h).2

end

/-! ## No control characters -/

theorem printable_escape : Printable (escape c) := by
  have hback : 32 ≤ (ofNat 92).toNat := by decide
  have hpair {d : Char} (hd : 32 ≤ d.toNat) : Printable [ofNat 92, d] := .cons hback (.cons hd (by decide))
  have hhex : ∀ n < 16, 32 ≤ (hexDigit n).toNat := by decide
  unfold escape
  dsimp only
  split_ifs with h34 h92
  · exact hpair (by omega)
  · exact hpair (by omega)
  · exact hpair (by decide)
  · exact hpair (by decide)
  · exact hpair (by decide)
  · exact hpair (by decide)
  · exact hpair (by decide)
  · have hcode : Printable [hexDigit (c.toNat / 16), hexDigit (c.toNat % 16)] :=
      .cons (hhex _ (by omega)) (.cons (hhex _ (by omega)) (by decide))
    exact (show Printable [ofNat 92, 'u', '0', '0'] by decide).append hcode
  · exact .cons (by omega) (by decide)

theorem printable_quote (s : String) : Printable (quote s) := by
  have hchars : Printable (s.toList.flatMap escape) := fun d hd => by
    obtain ⟨c, _, hmem⟩ := mem_flatMap.mp hd
    exact printable_escape d hmem
  exact (Printable.cons (by decide) hchars).append (by decide)

theorem printable_scalar (hv : v.scalar = true) : Printable (render v) := by
  cases v with
  | null => decide
  | bool b => cases b <;> decide
  | nat =>
    intro c hc
    have hrange := isDigit_iff_toNat.mp (isDigit_of_mem_toString hc)
    have hzero : '0'.toNat = 48 := by decide
    omega
  | str s => exact printable_quote s
  | number _ | arr _ | obj _ => cases hv

/-- **A rendered record has no control character**: those of its strings are escaped. -/
theorem printable_record (h : ∀ m ∈ members, m.2.scalar = true) : Printable (render (.obj members)) := by
  have hmembers : Printable (renderMembers members) := by
    induction members with
    | nil => decide
    | cons m members ih =>
      obtain ⟨key, v⟩ := m
      have hfirst : Printable (quote key ++ ':' :: render v) :=
        (printable_quote key).append (.cons (by decide) (printable_scalar (h (key, v) mem_cons_self)))
      have hrest := ih fun n hn => h n (mem_cons_of_mem _ hn)
      cases members with
      | nil => exact hfirst
      | cons => exact hfirst.append (.cons (by decide) hrest)
  exact (Printable.cons (by decide) hmembers).append (by decide)

end Json
