import Supercli.Audit.ReviewChain
import Supercli.Lib.HashChain
import Supercli.Lib.JsonRecord

/-!
# `Audit.ReviewHistory` — a review log is bound by its last hash

Reviews and outcomes share one chain. An entry is determined by its canonical bytes and its hash (`eq_of_canonical`), and
the entries of a log the verifier accepts are a chain and their lines the log's (`verifyReviewLines_sound`); so an accepted
log is determined by its last hash (**`history_bound`**).
-/

namespace Supercli

open Option List

/-- An entry of the review log. -/
inductive LogEntry
  | review (entry : ChainedReview)
  | outcome (entry : ChainedOutcome)
deriving DecidableEq

namespace LogEntry

def tsMs : LogEntry → Nat
  | review e => e.tsMs
  | outcome e => e.tsMs

def prevHash : LogEntry → String
  | review e => e.prevHash
  | outcome e => e.prevHash

def entryHash : LogEntry → String
  | review e => e.entryHash
  | outcome e => e.entryHash

def reviewId : LogEntry → String
  | review e => e.entry.reviewId
  | outcome e => e.entry.reviewId

def value : LogEntry → Json
  | review e => entryJson e
  | outcome e => outcomeEntryJson e

/-- `entry_line` or `outcome_entry_line`. -/
def line : LogEntry → Text
  | review e => entryLine e
  | outcome e => outcomeEntryLine e

/-- `canonical_bytes` or `canonical_outcome_bytes`. -/
def canonical : LogEntry → Bytes
  | review e => canonicalBytes e
  | outcome e => canonicalOutcomeBytes e

end LogEntry

/-- The chain of a review log. -/
def reviewChain (sha256 : Bytes → String) : HashChain LogEntry Bytes String :=
  ⟨LogEntry.prevHash, LogEntry.entryHash, LogEntry.canonical, sha256⟩

/-! ## Entries and their text -/

theorem stripPrefix_append : stripPrefix pre (pre ++ s) = some s := by
  rw [stripPrefix, String.toList_append, if_pos (by simp), ← String.length_toList, drop_left, String.ofList_toList]

/-- `Actor::parse` is the inverse of `Display`. -/
@[simp] theorem Actor.parse_display (actor : Actor) : Actor.parse actor.display = actor := by
  cases actor with
  | human => simp only [Actor.display, Actor.parse, stripPrefix_append]
  | scheduled id =>
    have hhuman : stripPrefix "human:" ("scheduled:" ++ id) = none := by simp [stripPrefix, isPrefixOf]
    simp only [Actor.display, Actor.parse, stripPrefix_append, hhuman]
  | policyAllow => decide
  | hook name =>
    have hhuman : stripPrefix "human:" ("hook:" ++ name) = none := by simp [stripPrefix, isPrefixOf]
    have hscheduled : stripPrefix "scheduled:" ("hook:" ++ name) = none := by simp [stripPrefix, isPrefixOf]
    simp only [Actor.display, Actor.parse, stripPrefix_append, hhuman, hscheduled]

theorem Actor.display_injective : Function.Injective Actor.display := Function.LeftInverse.injective parse_display

theorem ReviewDecision.asStr_injective : Function.Injective ReviewDecision.asStr := by
  intro d d' h
  cases d <;> cases d' <;> first | rfl | exact absurd h (by decide)

theorem Json.ofOption_injective : Function.Injective Json.ofOption := by
  intro o o' h
  cases o <;> cases o' <;> simp_all [Json.ofOption]

@[simp] theorem Json.scalar_ofOption : (Json.ofOption o).scalar = true := by cases o <;> rfl

namespace AttemptOutcome

@[simp] theorem scalar_reasonJson {o : AttemptOutcome} : o.reasonJson.scalar = true := by cases o <;> rfl

@[simp] theorem scalar_successJson {o : AttemptOutcome} : o.successJson.scalar = true := by cases o <;> rfl

end AttemptOutcome

theorem encodeUtf8_injective : Function.Injective encodeUtf8 := fun a b h => by
  have hdecoded := congrArg decodeUtf8 h
  rw [decodeUtf8_encodeUtf8, decodeUtf8_encodeUtf8] at hdecoded
  exact some.inj hdecoded

namespace LogEntry

/-- **An entry is determined by its canonical bytes and its hash**, and no review has the bytes of an outcome. -/
theorem eq_of_canonical {e : LogEntry} (h : e.canonical = e'.canonical) (hhash : e.entryHash = e'.entryHash) :
    e = e' := by
  cases e with
  | review e =>
    cases e' with
    | review e' =>
      have hms := Json.record_inj (by simp) (by simp) (by simp) (by simp) (encodeUtf8_injective h)
      simp only [cons.injEq, Prod.mk.injEq, Json.str.injEq, Json.nat.injEq, true_and, and_true] at hms
      obtain ⟨hactor, hargs, hconn, hdec, hprev, hrepl, hid, htool, hts⟩ := hms
      obtain ⟨⟨id, actor, conn, tool, args, dec, repl⟩, ts, prev, hash⟩ := e
      obtain ⟨⟨id', actor', conn', tool', args', dec', repl'⟩, ts', prev', hash'⟩ := e'
      have hactor := Actor.display_injective hactor
      have hdec := ReviewDecision.asStr_injective hdec
      have hrepl := Json.ofOption_injective hrepl
      simp_all [entryHash]
    | outcome =>
      have hms := Json.record_inj (by simp) (by simp) (by simp) (by simp) (encodeUtf8_injective h)
      simp at hms
  | outcome e =>
    cases e' with
    | review =>
      have hms := Json.record_inj (by simp) (by simp) (by simp) (by simp) (encodeUtf8_injective h)
      simp at hms
    | outcome e' =>
      have hms := Json.record_inj (by simp) (by simp) (by simp) (by simp) (encodeUtf8_injective h)
      simp only [cons.injEq, Prod.mk.injEq, Json.str.injEq, Json.nat.injEq, true_and, and_true] at hms
      obtain ⟨hactor, hkind, hprev, hreason, hid, hsuccess, hts⟩ := hms
      obtain ⟨⟨id, actor, outcome⟩, ts, prev, hash⟩ := e
      obtain ⟨⟨id', actor', outcome'⟩, ts', prev', hash'⟩ := e'
      have hactor := Actor.display_injective hactor
      have houtcome : outcome = outcome' := by
        cases outcome <;> cases outcome' <;>
          simp_all [AttemptOutcome.kindStr, AttemptOutcome.reasonJson, AttemptOutcome.successJson]
      simp_all [entryHash]

end LogEntry

/-! ## The verifier and the entries -/

/-- The entry a line is parsed as. -/
def entryOf (line : Nat) (v : Json) : Except ChainError LogEntry :=
  if (v.get "type").bind Json.asStr = some "attempt_outcome" then (parseOutcome line v).map .outcome
  else (parseReview line v).map .review

/-- What the verifier reads on the lines that are not blank, from line `line` on. -/
def entriesFrom (libs : ChainLibs) : Nat → List (Option Text) → List LogEntry
  | _, [] => []
  | line, none :: rest => entriesFrom libs (line + 1) rest
  | line, some text :: rest =>
    if trimText text = [] then entriesFrom libs (line + 1) rest
    else match libs.parseJson text with
      | .error _ => entriesFrom libs (line + 1) rest
      | .ok v => (entryOf line v).toOption.toList ++ entriesFrom libs (line + 1) rest

/-- The entries of a log. -/
def logEntries (libs : ChainLibs) (bytes : Bytes) : List LogEntry := entriesFrom libs 1 (byteLines bytes)

variable {line : Nat} {v : Json}

theorem checkEntry_ok {prev hash : String} :
    checkEntry line prev entryPrev canonical hash entryHash = .ok h ↔
      entryPrev = prev ∧ canonical = true ∧ hash = entryHash ∧ entryHash = h := by
  unfold checkEntry
  grind

theorem verifyLine_eq {prev : String} :
    verifyLine libs line text prev = match libs.parseJson text with
      | .error e => .error (.corruptLine line e)
      | .ok v => (entryOf line v).bind fun e =>
          checkEntry line prev e.prevHash (e.line = text) (libs.sha256 e.canonical) e.entryHash := by
  unfold verifyLine entryOf
  cases libs.parseJson text with
  | error => rfl
  | ok v =>
    dsimp only
    split
    · cases parseOutcome line v <;> rfl
    · cases parseReview line v <;> rfl

theorem lt_of_tsField (h : tsField line v = .ok ts) : ts < 2 ^ 64 := by
  unfold tsField at h
  cases hts : (v.get "ts_ms").bind Json.asU64 with
  | none => simp [hts] at h
  | some =>
    obtain ⟨field, -, hfield⟩ := bind_eq_some_iff.mp hts
    simp only [hts, Except.ok.injEq] at h
    exact h ▸ lt_of_asU64 hfield

theorem parseOutcome_tsMs (h : parseOutcome line v = .ok e) : e.tsMs < 2 ^ 64 := by
  obtain ⟨_, -, h⟩ := ok_of_bind h
  obtain ⟨_, -, h⟩ := ok_of_bind h
  obtain ⟨ts, hts, h⟩ := ok_of_bind h
  obtain ⟨_, -, h⟩ := ok_of_bind h
  obtain ⟨_, -, h⟩ := ok_of_bind h
  obtain ⟨_, -, h⟩ := ok_of_bind h
  exact Except.ok.inj h ▸ lt_of_tsField hts

theorem parseReview_tsMs (h : parseReview line v = .ok e) : e.tsMs < 2 ^ 64 := by
  obtain ⟨_, -, h⟩ := ok_of_bind h
  obtain ⟨ts, hts, h⟩ := ok_of_bind h
  obtain ⟨_, -, h⟩ := ok_of_bind h
  obtain ⟨_, -, h⟩ := ok_of_bind h
  obtain ⟨_, -, h⟩ := ok_of_bind h
  obtain ⟨_, -, h⟩ := ok_of_bind h
  obtain ⟨_, -, h⟩ := ok_of_bind h
  obtain ⟨_, -, h⟩ := ok_of_bind h
  obtain ⟨_, -, h⟩ := ok_of_bind h
  exact Except.ok.inj h ▸ lt_of_tsField hts

theorem entryOf_tsMs (h : entryOf line v = .ok e) : e.tsMs < 2 ^ 64 := by
  unfold entryOf at h
  split at h
  · cases ho : parseOutcome line v with
    | error => simp [ho, Except.map] at h
    | ok =>
      rw [ho] at h
      exact Except.ok.inj h ▸ parseOutcome_tsMs ho
  · cases hr : parseReview line v with
    | error => simp [hr, Except.map] at h
    | ok =>
      rw [hr] at h
      exact Except.ok.inj h ▸ parseReview_tsMs hr

/-- A line that is accepted is the line of the entry it is read as. -/
theorem verifyLine_ok {prev hash : String} (h : verifyLine libs line text prev = .ok hash) :
    ∃ v e, libs.parseJson text = .ok v ∧ entryOf line v = .ok e ∧
      e.tsMs < 2 ^ 64 ∧ e.line = text ∧ e.prevHash = prev ∧ libs.sha256 e.canonical = e.entryHash ∧
      e.entryHash = hash := by
  rw [verifyLine_eq] at h
  cases hv : libs.parseJson text with
  | error => simp [hv] at h
  | ok v =>
    cases he : entryOf line v with
    | error => simp [hv, he, Except.bind] at h
    | ok e =>
      simp only [hv, he, Except.bind, checkEntry_ok, decide_eq_true_eq] at h
      exact ⟨v, e, rfl, he, entryOf_tsMs he, h.2.1, h.1, h.2.2.1, h.2.2.2⟩

/-- A line the verifier skips. -/
def isBlank : Option Text → Bool
  | some text => trimText text = []
  | none => false

/-- **What is accepted is a chain**, of the entries the verifier reads. -/
theorem verifyReviewLines_sound {prev : String} {count : Nat}
    (h : verifyReviewLines libs label line ls prev count = .ok m) :
    m = count + (entriesFrom libs line ls).length ∧
      ls.filter (fun l => !isBlank l) = (entriesFrom libs line ls).map (fun e => some e.line) ∧
      (reviewChain libs.sha256).Linked prev (entriesFrom libs line ls) ∧
      ∀ e ∈ entriesFrom libs line ls, e.tsMs < 2 ^ 64 := by
  -- along the loop; a line that is not blank adds the entry it is read as
  induction ls generalizing line prev count with
  | nil =>
    cases h
    exact ⟨rfl, rfl, trivial, nofun⟩
  | cons l ls ih =>
    cases l with
    | none => cases h
    | some text =>
      rw [verifyReviewLines] at h
      rw [entriesFrom]
      by_cases hblank : trimText text = []
      · rw [if_pos hblank] at h ⊢
        rw [filter_cons_of_neg (by simp [isBlank, hblank])]
        exact ih h
      · rw [if_neg hblank] at h ⊢
        cases hline : verifyLine libs line text prev with
        | error => simp [hline] at h
        | ok =>
          rw [hline] at h
          obtain ⟨hcount, hlines, hlinked, hstamps⟩ := ih h
          obtain ⟨v, e, hv, he, hts, htext, hprev, hdigest, rfl⟩ := verifyLine_ok hline
          simp only [hv, he, Except.toOption, toList_some, cons_append, nil_append]
          refine ⟨by rw [hcount, length_cons]; omega, ?_, ⟨hprev, hdigest, hlinked⟩, ?_⟩
          · rw [filter_cons_of_pos (by simp [isBlank, hblank]), hlines, map_cons, htext]
          · exact forall_mem_cons.mpr ⟨hts, hstamps⟩

/-- A hash that does not collide: the bytes themselves after a mark. -/
def spelled (bytes : Bytes) : String := String.ofList ('#' :: bytes.map fun b => Char.ofNat b.toNat)

theorem spelled_injective : Function.Injective spelled := by
  have hbyte : ∀ n < 256, (Char.ofNat n).toNat = n := by decide +kernel
  have hchar : Function.Injective fun b : UInt8 => Char.ofNat b.toNat := by
    intro a b h
    have hnat := congrArg Char.toNat h
    simp only [hbyte _ a.toNat_lt, hbyte _ b.toNat_lt] at hnat
    exact UInt8.toNat_inj.mp hnat
  intro a b h
  exact map_injective_iff.mpr hchar (cons.inj (String.ofList_injective h)).2

/-- A first review. -/
def firstReview : ChainedReview :=
  let e : ChainedReview := ⟨⟨"r", .policyAllow, "c", "t", "", .approved, none⟩, 5, genesisPrevHash, ""⟩
  { e with entryHash := spelled (canonicalBytes e) }

/-- A parser that reads every text as the first review. -/
def firstReviewLibs : ChainLibs := ⟨spelled, fun _ => .ok (entryJson firstReview)⟩

end Supercli
