import Supercli.Lib.Machine

/-!
# `PtyCore.Handoff` — moving every Session from one core to another

A new core connects to the running one and asks for its Sessions. The old core stops reading, flushes every
journal, describes every Session, sends the descriptions with the file descriptors, and waits for the word of
the new core: on a commit it forgets the Sessions, on anything else (a refusal, a timeout, a closed connection)
it resumes them. The new core rebuilds and registers the Sessions one by one as they arrive, writes its record,
and sends the commit.

Terminals and journals are shared between the two processes: what one core reads from a terminal the other will
not see, and both append to one file. A Session is read by the new core from the moment it is registered, which
is before the commit, so the two halves of the protocol do not add up: `all_or_nothing` holds as long as the
old core, once it has begun to send, gives up only after the new core is gone and has read nothing.
-/

namespace Supercli.PtyCore.Handoff

open List Function

abbrev Byte := UInt8

/-! ## The two cores and what is between them -/

/-- One Session: its terminal, its journal, and the old core's part of it. -/
structure Terminal where
  /-- Everything the PTY has emitted. -/
  emitted : List Byte
  /-- What is in the kernel and was read by no one. -/
  unread : List Byte
  /-- The file. -/
  journal : List Byte
  /-- What the old core has read; its stream offset is the length. -/
  seen : List Byte
  /-- Read by the old core, and on its way to the file. -/
  pending : List Byte
deriving DecidableEq, Repr

/-- A Session in the table of the new core. -/
structure Adopted where
  nextOffset : Nat
  /-- Read by the new core, and on its way to the file. -/
  pending : List Byte
deriving DecidableEq, Repr

/-- A message of the old core. -/
inductive ToNew
  | header (sessions : Nat)
  | session (id journalNextOffset : Nat)
  | refusal
deriving DecidableEq, Repr

/-- A message of the new core. -/
inductive ToOld
  | request
  | commit
  | refusal
deriving DecidableEq, Repr

/-- Where `Reactor::handoff` is; `idle` is the reactor's loop. The Sessions in `paused` are those to resume. -/
inductive OldPhase
  | idle
  | quiescing (paused todo : List Nat)
  | exporting (paused : List Nat) (exports : List (Nat × Nat)) (todo : List Nat)
  | sending (paused sent : List Nat) (todo : List ToNew)
  | awaiting (paused sent : List Nat)
deriving DecidableEq, Repr

/-- Where `run_takeover` is. -/
inductive NewPhase
  | awaitingHeader
  /-- So many Sessions have yet to come. -/
  | adopting (missing : Nat)
  | committing
  | serving
deriving DecidableEq, Repr

structure NewCore where
  phase : NewPhase
  adopted : Nat → Option Adopted

structure State where
  terminals : Nat → Terminal
  /-- The table of the old core. -/
  hosted : List Nat
  old : OldPhase
  /-- The process of the new core, if there is one. -/
  new : Option NewCore
  toNew : List ToNew
  toOld : List ToOld
  /-- For statements: Sessions whose terminal the new core has read. -/
  taken : List Nat
  /-- For statements: Sessions that an abandoned handoff has resumed and the old core has not read since. -/
  resumed : List Nat

section

variable (s : State)

@[simp] def State.setTerminal (i : Nat) (t : Terminal) : State :=
  { s with terminals := Function.update s.terminals i t }

/-! ### The old core -/

def OldPhase.paused : OldPhase → List Nat
  | .idle => []
  | .quiescing paused _ => paused
  | .exporting paused _ _ => paused
  | .sending paused _ _ => paused
  | .awaiting paused _ => paused

/-- The Sessions whose descriptions the new core has, or will find. -/
def OldPhase.sent : OldPhase → List Nat
  | .sending _ sent _ => sent
  | .awaiting _ sent => sent
  | _ => []

def ToNew.ids : ToNew → List Nat
  | .session id _ => [id]
  | _ => []

/-- What reaches a process that is there. -/
def State.tellNew (m : ToNew) : State :=
  { s with toNew := if s.new.isSome then s.toNew ++ [m] else s.toNew }

/-- The journal writer has written everything of this Session. -/
def Terminal.flush (t : Terminal) : Terminal := { t with journal := t.journal ++ t.pending, pending := [] }

/-- The end of `handoff` without a commit: a refusal, and every paused Session is resumed. -/
def State.abandon : State := { s.tellNew .refusal with old := .idle, resumed := s.old.paused }

/-- The end of `handoff` with a commit: the Sessions are forgotten. -/
def State.committed : State :=
  { s with old := .idle, hosted := s.hosted.filter (· ∉ s.old.sent), toOld := s.toOld.tail }

/-- Whether the next step of `handoff` finds a `failure`. `ok` is the environment's word: the journal is flushed
    and the timer jobs are retired in time, the Session can be exported, the message can be written in time,
    the reply is there in time. -/
def State.fails (ok : Bool) : Bool :=
  match s.old with
  | .quiescing _ (_ :: _) | .exporting _ _ (_ :: _) => !ok
  | .sending _ _ (_ :: _) => !ok || s.new.isNone
  | .awaiting _ _ =>
    match s.toOld with
    | [] => !ok || s.new.isNone
    | .commit :: _ => !ok
    | _ :: _ => true
  | _ => false

/-- One step of `handoff`. -/
def oldStep (ok : Bool) : State :=
  if s.fails ok then s.abandon
  else match s.old with
    | .idle => s
    | .quiescing paused [] => { s with old := .exporting paused [] paused }
    | .quiescing paused (i :: todo) =>
      { s.setTerminal i (s.terminals i).flush with old := .quiescing (paused ++ [i]) todo }
    | .exporting paused exports [] =>
      { s with old := .sending paused [] (.header exports.length :: exports.map fun e => .session e.1 e.2) }
    | .exporting paused exports (i :: todo) =>
      { s with old := .exporting paused (exports ++ [(i, (s.terminals i).seen.length)]) todo }
    | .sending paused sent [] => { s with old := .awaiting paused sent }
    | .sending paused sent (m :: todo) => { s.tellNew m with old := .sending paused (sent ++ m.ids) todo }
    | .awaiting _ _ => if s.toOld = [] then s else s.committed

/-! ### The new core -/

/-- The process is gone, and with it what it had not written. -/
def State.newGone : State := { s with new := none, toNew := [] }

/-- `run_takeover` fails: a refusal, and the process exits. -/
def State.refuse : State := { s.newGone with toOld := s.toOld ++ [.refusal] }

/-- One step of `run_takeover`. `ok` is the environment's word: a message that is not there yet will be in time,
    the Session can be rebuilt and registered, the record can be written, the commit can be sent. -/
def newStep (ok : Bool) : State :=
  match s.new with
  | none => s
  | some c =>
    match c.phase, s.toNew with
    | .awaitingHeader, [] => if ok then s else s.newGone
    | .awaitingHeader, .header n :: ms => { s with new := some { c with phase := .adopting n }, toNew := ms }
    | .awaitingHeader, _ :: _ => s.newGone
    | .adopting 0, _ => if ok then { s with new := some { c with phase := .committing } } else s.refuse
    | .adopting (_ + 1), [] => if ok then s else s.refuse
    | .adopting (n + 1), .session i offset :: ms =>
      -- `RetainedOutputWriter::reopen` wants the file to end at the offset
      if ok && (s.terminals i).journal.length == offset then
        { s with new := some ⟨.adopting n, Function.update c.adopted i (some ⟨offset, []⟩)⟩, toNew := ms }
      else s.refuse
    | .adopting (_ + 1), _ :: _ => s.refuse
    | .committing, _ =>
      if ok then { s with new := some { c with phase := .serving }, toOld := s.toOld ++ [.commit] } else s.newGone
    | .serving, _ => s

/-! ### The machine -/

inductive Label
  /-- A program writes to its terminal. -/
  | emit (i : Nat) (bytes : List Byte)
  /-- The old core's reactor reads a terminal. -/
  | oldRead (i n : Nat)
  /-- The old core's journal writer writes. -/
  | oldWrite (i n : Nat)
  /-- A new core is started, connects and sends its request. -/
  | takeover
  /-- The old core's reactor begins to serve the request. -/
  | handoff
  | old (ok : Bool)
  | new (ok : Bool)
  | newRead (i n : Nat)
  | newWrite (i n : Nat)
  /-- The new core's process dies. -/
  | newExits
  /-- The oldest message to the new core, or to the old one, is lost. -/
  | loseToNew
  | loseToOld
deriving DecidableEq, Repr

def step : Label → State
  | .emit i bytes =>
    let t := s.terminals i
    s.setTerminal i { t with emitted := t.emitted ++ bytes, unread := t.unread ++ bytes }
  | .oldRead i n =>
    if s.old = .idle ∧ i ∈ s.hosted then
      let t := s.terminals i
      { s.setTerminal i { t with
          unread := t.unread.drop n, seen := t.seen ++ t.unread.take n, pending := t.pending ++ t.unread.take n } with
        resumed := s.resumed.filter (· ≠ i) }
    else s
  | .oldWrite i n =>
    let t := s.terminals i
    s.setTerminal i { t with journal := t.journal ++ t.pending.take n, pending := t.pending.drop n }
  | .takeover =>
    -- while a handoff is going on, and while another core is there, a request is refused at the gate
    if s.old = .idle ∧ s.new.isNone then
      { s with new := some ⟨.awaitingHeader, fun _ => none⟩, toNew := [], toOld := [.request], taken := [] }
    else s
  | .handoff =>
    if s.old = .idle ∧ s.toOld.head? = some .request then
      { s with old := .quiescing [] s.hosted, toOld := s.toOld.tail, resumed := [] }
    else s
  | .old ok => oldStep s ok
  | .new ok => newStep s ok
  | .newRead i n =>
    match s.new with
    | none => s
    | some c =>
      match c.adopted i with
      | none => s
      | some a =>
        let t := s.terminals i
        let bytes := t.unread.take n
        if bytes = [] then s
        else { s.setTerminal i { t with unread := t.unread.drop n } with
          new := some { c with
            adopted := Function.update c.adopted i (some ⟨a.nextOffset + bytes.length, a.pending ++ bytes⟩) }
          taken := i :: s.taken }
  | .newWrite i n =>
    match s.new with
    | none => s
    | some c =>
      match c.adopted i with
      | none => s
      | some a =>
        let t := s.terminals i
        { s.setTerminal i { t with journal := t.journal ++ a.pending.take n } with
          new := some { c with
            adopted := Function.update c.adopted i (some { a with pending := a.pending.drop n }) } }
  | .newExits => s.newGone
  | .loseToNew => { s with toNew := s.toNew.tail }
  | .loseToOld => { s with toOld := s.toOld.tail }

/-- A core that hosts some Sessions and has read nothing yet. -/
def boot (hosted : List Nat) : State := ⟨fun _ => ⟨[], [], [], [], []⟩, hosted, .idle, none, [], [], [], []⟩

/-! ## What is promised, and when it holds -/

/-- The old core reads the Session's terminal. -/
def OldServes (i : Nat) : Prop := s.old = .idle ∧ i ∈ s.hosted

/-- The new core reads the Session's terminal, and appends to its journal. -/
def NewServes (i : Nat) : Prop := ∃ c a, s.new = some c ∧ c.adopted i = some a

/-- The old core has, or will read, every byte; the journal has what it read, but for what is on its way. -/
structure Terminal.Whole (t : Terminal) : Prop where
  read : t.seen ++ t.unread = t.emitted
  journaled : t.journal ++ t.pending = t.seen

/-- **All or nothing.** -/
structure Intact : Prop where
  /-- One core at most reads a terminal or appends to its journal. -/
  exclusive : ∀ i, NewServes s i → ¬ OldServes s i ∧ (s.terminals i).pending = []
  /-- What the old core serves, it serves without a gap. -/
  whole : ∀ i, OldServes s i → (s.terminals i).Whole
  /-- Where the old core has resumed, the journal ends at its stream offset. -/
  resumed : ∀ i ∈ s.resumed, (s.terminals i).journal.length = (s.terminals i).seen.length

/-- The old core gives up before it has begun to send, or after the new core is gone without having read. -/
def GivesUpInTime : Label → Prop
  | .old ok =>
    match s.old with
    | .sending _ _ _ | .awaiting _ _ => s.fails ok = true → s.new.isNone = true ∧ s.taken = []
    | _ => True
  | _ => True

instance (l : Label) : Decidable (GivesUpInTime s l) := by
  unfold GivesUpInTime
  split
  · split <;> infer_instance
  · infer_instance

/-! ## The invariant -/

/-- The lists of a phase: what is yet to be paused is hosted, what is exported or sent was paused. -/
def OldPhase.Orderly (hosted : List Nat) : OldPhase → Prop
  | .idle => True
  | .quiescing paused todo => ∀ i ∈ paused ++ todo, i ∈ hosted
  | .exporting paused exports todo => (∀ i ∈ paused, i ∈ hosted) ∧ ∀ i ∈ exports.map Prod.fst ++ todo, i ∈ paused
  | .sending paused sent todo =>
    (∀ i ∈ paused, i ∈ hosted) ∧ ∀ i ∈ sent ++ todo.flatMap ToNew.ids, i ∈ paused
  | .awaiting paused sent => (∀ i ∈ paused, i ∈ hosted) ∧ ∀ i ∈ sent, i ∈ paused

/-- The new core has the Session, or will find it among its messages. -/
def Offered (i : Nat) : Prop := (∃ m ∈ s.toNew, i ∈ m.ids) ∨ NewServes s i

structure Inv : Prop where
  orderly : s.old.Orderly s.hosted
  whole : ∀ i ∈ s.hosted, i ∉ s.taken → (s.terminals i).Whole
  flushed : ∀ i ∈ s.old.paused, (s.terminals i).pending = []
  offered : ∀ i, Offered s i → (i ∈ s.old.sent ∨ i ∉ s.hosted) ∧ (s.terminals i).pending = []
  taken : ∀ i ∈ s.taken, i ∈ s.old.sent ∨ i ∉ s.hosted
  untouched : ∀ c i a, s.new = some c → c.adopted i = some a → i ∉ s.taken → a.pending = []
  gone : s.new.isNone = true → s.toNew = []
  resumed : ∀ i ∈ s.resumed, OldServes s i ∧ (s.terminals i).pending = []

end

section Steps

variable {s : State}

theorem OldPhase.Orderly.paused {p : OldPhase} (h : p.Orderly hosted) : ∀ i ∈ p.paused, i ∈ hosted := by
  cases p with
  | idle => exact fun i hi => absurd hi not_mem_nil
  | quiescing => exact fun i hi => h i (mem_append_left _ hi)
  | exporting | sending | awaiting => exact h.1

variable {toNew : List ToNew} {i : Nat}

/-- What the old core serves it has given to no one. -/
theorem OldServes.kept (h : OldServes s i) : ¬ (i ∈ s.old.sent ∨ i ∉ s.hosted) := by
  rw [h.1]
  rintro (hsent | hhosted)
  · exact not_mem_nil hsent
  · exact hhosted h.2

/-- The invariant says what is wanted. -/
theorem Inv.intact (hI : Inv s) : Intact s := by
  have hwhole : ∀ i, OldServes s i → (s.terminals i).Whole := fun i h =>
    hI.whole i h.2 fun htaken => h.kept (hI.taken i htaken)
  refine ⟨fun i hnew => ?_, hwhole, fun i hi => ?_⟩
  · obtain ⟨hwhere, hpending⟩ := hI.offered i (.inr hnew)
    exact ⟨fun h => h.kept hwhere, hpending⟩
  · obtain ⟨hserves, hpending⟩ := hI.resumed i hi
    have h := (hwhole i hserves).journaled
    rw [hpending, append_nil] at h
    rw [h]

/-! ### Terminals and journals -/

/-- What happens to one terminal outside a read of the old core: nothing is put on the way to the file, and what
    was whole stays whole unless the new core has taken part. -/
theorem Inv.setTerminal (hI : Inv s) (hpending : (s.terminals i).pending = [] → t.pending = [])
    (hwhole : i ∉ s.taken → (s.terminals i).Whole → t.Whole) : Inv (s.setTerminal i t) := by
  have hp : ∀ k, (s.terminals k).pending = [] → ((s.setTerminal i t).terminals k).pending = [] := by
    intro k hk
    by_cases hki : k = i
    · subst hki
      simpa using hpending hk
    · simpa [update_of_ne hki] using hk
  refine ⟨hI.orderly, ?_, fun k hk => hp k (hI.flushed k hk), fun k hk => ?_, hI.taken, hI.untouched, hI.gone,
    fun k hk => ⟨(hI.resumed k hk).1, hp k (hI.resumed k hk).2⟩⟩
  · intro k hk htaken
    by_cases hki : k = i
    · subst hki
      simpa using hwhole htaken (hI.whole k hk htaken)
    · simpa [update_of_ne hki] using hI.whole k hk htaken
  · exact ⟨(hI.offered k hk).1, hp k (hI.offered k hk).2⟩

theorem inv_emit (hI : Inv s) : Inv (step s (.emit i bytes)) := by
  refine hI.setTerminal (fun h => h) fun _ h => ⟨?_, h.journaled⟩
  show (s.terminals i).seen ++ ((s.terminals i).unread ++ bytes) = (s.terminals i).emitted ++ bytes
  rw [← append_assoc, h.read]

theorem inv_oldWrite (hI : Inv s) : Inv (step s (.oldWrite i n)) := by
  refine hI.setTerminal (fun h => by simp [h]) fun _ h => ⟨h.read, ?_⟩
  show (s.terminals i).journal ++ (s.terminals i).pending.take n ++ (s.terminals i).pending.drop n = _
  rw [append_assoc, take_append_drop, h.journaled]

theorem Terminal.Whole.flush {t : Terminal} (h : t.Whole) : t.flush.Whole :=
  ⟨h.read, by simpa [Terminal.flush] using h.journaled⟩

theorem inv_oldRead (hI : Inv s) : Inv (step s (.oldRead i n)) := by
  simp only [step]
  split
  swap
  · exact hI
  rename_i hserves
  have hpaused : s.old.paused = [] := by rw [hserves.1]; rfl
  refine ⟨hI.orderly, ?_, ?_, ?_, hI.taken, hI.untouched, hI.gone, ?_⟩
  · intro k hk htaken
    by_cases hki : k = i
    · subst hki
      have h := hI.whole k hk htaken
      simp only [State.setTerminal, update_self]
      refine ⟨?_, ?_⟩
      · show (s.terminals k).seen ++ (s.terminals k).unread.take n ++ (s.terminals k).unread.drop n = _
        rw [append_assoc, take_append_drop, h.read]
      · show (s.terminals k).journal ++ ((s.terminals k).pending ++ (s.terminals k).unread.take n) = _
        rw [← append_assoc, h.journaled]
    · simpa [update_of_ne hki] using hI.whole k hk htaken
  · intro k hk
    change k ∈ s.old.paused at hk
    rw [hpaused] at hk
    exact absurd hk not_mem_nil
  · -- the old core reads only what the new one was not offered
    intro k hk
    obtain ⟨hwhere, hpending⟩ := hI.offered k hk
    refine ⟨hwhere, ?_⟩
    have hki : k ≠ i := by
      rintro rfl
      exact OldServes.kept hserves hwhere
    simpa [update_of_ne hki] using hpending
  · intro k hk
    obtain ⟨hk, hki⟩ := mem_filter.mp hk
    have hki : k ≠ i := by simpa using hki
    obtain ⟨hserves', hpending⟩ := hI.resumed k hk
    exact ⟨hserves', by simpa [update_of_ne hki] using hpending⟩

/-! ### The new core -/

/-- The new core, and what is sent, without new offers. -/
theorem Inv.of_new (hI : Inv s) (hoffered : ∀ i, Offered { s with new := new, toNew := toNew } i → Offered s i)
    (huntouched : ∀ c i a, new = some c → c.adopted i = some a → i ∉ s.taken → a.pending = [])
    (hgone : new.isNone = true → toNew = []) : Inv { s with new := new, toNew := toNew, toOld := toOld } :=
  { hI with offered := fun i h => hI.offered i (hoffered i h), untouched := huntouched, gone := hgone }

theorem Inv.newGone (hI : Inv s) : Inv { s.newGone with toOld := toOld } := by
  refine hI.of_new ?_ nofun (fun _ => rfl)
  rintro i (⟨m, hm, -⟩ | ⟨c, a, hc, -⟩)
  · cases hm
  · cases hc

theorem offered_of_subset (hsub : ∀ m ∈ toNew, m ∈ s.toNew) (h : Offered { s with toNew := toNew } i) :
    Offered s i := by
  rcases h with ⟨m, hm, hi⟩ | h
  · exact .inl ⟨m, hsub m hm, hi⟩
  · exact .inr h

section

variable (hI : Inv s)

include hI

/-- A step of the new core that adopts nothing. -/
theorem Inv.newPhase (hc : s.new = some c) (hsub : ∀ m ∈ toNew, m ∈ s.toNew) :
    Inv { s with new := some { c with phase := p }, toNew := toNew, toOld := toOld } := by
  refine hI.of_new ?_ ?_ nofun
  · rintro i (⟨m, hm, hi⟩ | ⟨c', a, hc', ha⟩)
    · exact .inl ⟨m, hsub m hm, hi⟩
    · cases hc'
      exact .inr ⟨c, a, hc, ha⟩
  · rintro c' i a hc' ha
    cases hc'
    exact hI.untouched c i a hc ha

/-- An entry of the new core's table is written: of a Session that it was offered, and with nothing on the way to
    the file if it has not read. -/
theorem Inv.setAdopted (hc : s.new = some c) (hsub : ∀ m ∈ toNew, m ∈ s.toNew) (hi : Offered s i)
    (ha : i ∉ s.taken → a.pending = []) :
    Inv { s with new := some ⟨p, update c.adopted i (some a)⟩, toNew := toNew } := by
  refine hI.of_new ?_ ?_ nofun
  · rintro k (⟨m, hm, hk⟩ | ⟨c', b, hc', hb⟩)
    · exact .inl ⟨m, hsub m hm, hk⟩
    · cases hc'
      by_cases hki : k = i
      · exact hki ▸ hi
      · simp only [update_of_ne hki] at hb
        exact .inr ⟨c, b, hc, hb⟩
  · rintro c' k b hc' hb htaken
    cases hc'
    rcases update_some hb with ⟨rfl, ⟨⟩⟩ | ⟨-, hb⟩
    · exact ha htaken
    · exact hI.untouched c k b hc hb htaken

theorem inv_new : Inv (newStep s ok) := by
  unfold newStep
  split
  · exact hI
  rename_i c hc
  split
  · split
    · exact hI
    · exact hI.newGone
  · rename_i hm
    exact hI.newPhase hc fun m h => hm ▸ mem_cons_of_mem _ h
  · exact hI.newGone
  · split
    · exact hI.newPhase hc fun m h => h
    · exact hI.newGone
  · split
    · exact hI
    · exact hI.newGone
  · rename_i hm
    split
    · refine hI.setAdopted hc (fun m h => hm ▸ mem_cons_of_mem _ h) (.inl ?_) fun _ => rfl
      exact ⟨_, hm ▸ mem_cons_self, mem_singleton_self _⟩
    · exact hI.newGone
  · exact hI.newGone
  · split
    · exact hI.newPhase hc fun m h => h
    · exact hI.newGone
  · exact hI

/-- The new core begins to take part in a Session that it has. -/
theorem Inv.take (h : NewServes s i) : Inv { s with taken := i :: s.taken } := by
  refine { hI with whole := ?_, taken := ?_, untouched := ?_ }
  · exact fun k hk htaken => hI.whole k hk fun hmem => htaken (mem_cons_of_mem _ hmem)
  · exact forall_mem_cons.mpr ⟨(hI.offered _ (.inr h)).1, hI.taken⟩
  · exact fun c k a hc ha htaken => hI.untouched c k a hc ha fun hmem => htaken (mem_cons_of_mem _ hmem)

theorem inv_newRead : Inv (step s (.newRead i n)) := by
  simp only [step]
  split
  · exact hI
  rename_i c hc
  split
  · exact hI
  rename_i a ha
  split
  · exact hI
  · have hserves : NewServes s i := ⟨c, a, hc, ha⟩
    refine Inv.setAdopted (s := { s.setTerminal i _ with taken := i :: s.taken }) ?_ hc (fun _ h => h)
      (.inr hserves) fun h => absurd mem_cons_self h
    exact (hI.take hserves).setTerminal (fun h => h) fun h => absurd mem_cons_self h

theorem inv_newWrite : Inv (step s (.newWrite i n)) := by
  simp only [step]
  split
  · exact hI
  rename_i c hc
  split
  · exact hI
  rename_i a ha
  -- a core that has read nothing writes nothing
  have hnone : i ∉ s.taken → a.pending = [] := hI.untouched c i a hc ha
  refine Inv.setAdopted (s := s.setTerminal i _) ?_ hc (fun _ h => h) (.inr ⟨c, a, hc, ha⟩) ?_
  · refine hI.setTerminal (fun h => h) fun htaken h => ⟨h.read, ?_⟩
    simpa [hnone htaken] using h.journaled
  · intro htaken
    simp [hnone htaken]

end

/-! ### The old core -/

section

variable (hI : Inv s)

include hI

theorem Inv.goto (hbusy : s.old ≠ .idle) (horderly : p.Orderly s.hosted)
    (hflushed : ∀ i ∈ p.paused, (s.terminals i).pending = []) (hsent : ∀ i ∈ s.old.sent, i ∈ p.sent) :
    Inv { s with old := p } :=
  ⟨horderly, hI.whole, hflushed, fun i h => ⟨(hI.offered i h).1.imp_left (hsent i), (hI.offered i h).2⟩,
    fun i h => (hI.taken i h).imp_left (hsent i), hI.untouched, hI.gone,
    fun i h => absurd (hI.resumed i h).1.1 hbusy⟩

theorem Inv.send (hp : s.old = .sending paused sent (m :: todo)) :
    Inv { s.tellNew m with old := .sending paused (sent ++ m.ids) todo } := by
  have hbusy : s.old ≠ .idle := by rw [hp]; exact nofun
  have horderly := hI.orderly
  have hflushed := hI.flushed
  rw [hp] at horderly hflushed
  have hgo : Inv { s with old := .sending paused (sent ++ m.ids) todo } := by
    refine hI.goto hbusy ⟨horderly.1, ?_⟩ hflushed ?_
    · simpa [or_assoc] using horderly.2
    · rw [hp]
      exact fun i hi => mem_append_left _ hi
  refine { hgo with offered := ?_, gone := ?_ }
  · rintro i (⟨m', hm', hi⟩ | h)
    · have hm' : m' ∈ s.toNew ∨ m' = m := by
        simp only [State.tellNew] at hm'
        split at hm'
        · simpa using hm'
        · exact .inl hm'
      rcases hm' with hm' | rfl
      · exact hgo.offered i (.inl ⟨m', hm', hi⟩)
      · refine ⟨.inl (mem_append_right _ hi), hflushed i (horderly.2 i ?_)⟩
        simp [hi]
    · exact hgo.offered i (.inr h)
  · intro hnone
    have hnone : s.new.isNone = true := hnone
    rw [Option.isNone_iff_eq_none] at hnone
    simpa [State.tellNew, hnone] using hI.gone

theorem Inv.abandon (hclean : s.old.sent = [] ∨ (s.new.isNone = true ∧ s.taken = [])) : Inv s.abandon := by
  have hoffered : ∀ i, Offered s.abandon i → Offered s i := by
    rintro i (⟨m, hm, hi⟩ | h)
    · simp only [State.abandon, State.tellNew] at hm
      split at hm
      · rcases mem_append.mp hm with hm | hm
        · exact .inl ⟨m, hm, hi⟩
        · rw [mem_singleton.mp hm] at hi
          cases hi
      · exact .inl ⟨m, hm, hi⟩
    · exact .inr h
  have hnone : ∀ i, Offered s i → i ∉ s.old.sent := by
    rintro i hi hsent
    rcases hclean with h | ⟨h, -⟩
    · rw [h] at hsent
      cases hsent
    · rcases hi with ⟨m, hm, -⟩ | ⟨c, a, hc, -⟩
      · rw [hI.gone h] at hm
        cases hm
      · rw [hc] at h
        cases h
  refine ⟨trivial, hI.whole, fun i hi => absurd hi not_mem_nil, ?_, ?_, hI.untouched, ?_, ?_⟩
  · intro i hi
    obtain ⟨hwhere, hpending⟩ := hI.offered i (hoffered i hi)
    exact ⟨.inr (hwhere.resolve_left (hnone i (hoffered i hi))), hpending⟩
  · intro i hi
    rcases hclean with h | ⟨-, h⟩
    · refine .inr ((hI.taken i hi).resolve_left ?_)
      rw [h]
      exact not_mem_nil
    · change i ∈ s.taken at hi
      rw [h] at hi
      cases hi
  · intro h
    have h : s.new.isNone = true := h
    rw [Option.isNone_iff_eq_none] at h
    simpa [State.abandon, State.tellNew, h] using hI.gone
  · exact fun i hi => ⟨⟨rfl, hI.orderly.paused i hi⟩, hI.flushed i hi⟩

theorem Inv.committed (hbusy : s.old ≠ .idle) : Inv s.committed := by
  have hgone : ∀ i, i ∈ s.old.sent ∨ i ∉ s.hosted → i ∉ s.hosted.filter (· ∉ s.old.sent) := by
    rintro i hi hmem
    obtain ⟨hhosted, hsent⟩ := mem_filter.mp hmem
    have hsent : i ∉ s.old.sent := by simpa using hsent
    exact hi.elim hsent fun h => h hhosted
  exact ⟨trivial, fun i hi => hI.whole i (mem_filter.mp hi).1, fun i hi => absurd hi not_mem_nil,
    fun i hi => ⟨.inr (hgone i (hI.offered i hi).1), (hI.offered i hi).2⟩,
    fun i hi => .inr (hgone i (hI.taken i hi)), hI.untouched, hI.gone,
    fun i hi => absurd (hI.resumed i hi).1.1 hbusy⟩

/-- The journal of the next Session is flushed. -/
theorem Inv.quiesce (hp : s.old = .quiescing paused (i :: todo)) :
    Inv { s.setTerminal i (s.terminals i).flush with old := .quiescing (paused ++ [i]) todo } := by
  have hI' : Inv (s.setTerminal i (s.terminals i).flush) := hI.setTerminal (fun _ => rfl) fun _ h => h.flush
  have hbusy : s.old ≠ .idle := by rw [hp]; exact nofun
  have horderly := hI.orderly
  rw [hp] at horderly
  refine hI'.goto hbusy ?_ ?_ ?_
  · show OldPhase.Orderly s.hosted _
    simpa [OldPhase.Orderly] using horderly
  · intro k hk
    rcases mem_append.mp hk with hk | hk
    · have hflushed := hI'.flushed
      rw [show (s.setTerminal i (s.terminals i).flush).old = _ from hp] at hflushed
      exact hflushed k hk
    · rw [mem_singleton.mp hk]
      simp [Terminal.flush]
  · rw [show (s.setTerminal i (s.terminals i).flush).old = _ from hp]
    exact fun _ h => h

theorem inv_old (hl : GivesUpInTime s (.old ok)) : Inv (oldStep s ok) := by
  unfold oldStep
  split
  · -- it gives up
    rename_i hfails
    refine hI.abandon ?_
    simp only [GivesUpInTime] at hl
    split at hl
    · exact .inr (hl hfails)
    · exact .inr (hl hfails)
    · left
      cases hp : s.old <;> simp_all [OldPhase.sent]
  · have horderly := hI.orderly
    have hflushed := hI.flushed
    split <;> rename_i hp <;> rw [hp] at horderly hflushed
    · exact hI
    · exact hI.goto (by rw [hp]; simp) ⟨by simpa [OldPhase.Orderly] using horderly, by simp⟩ hflushed
        (by rw [hp]; simp [OldPhase.sent])
    · exact hI.quiesce hp
    · rename_i paused exports
      refine hI.goto (by rw [hp]; simp) ⟨horderly.1, ?_⟩ hflushed (by rw [hp]; simp [OldPhase.sent])
      have hids : (exports.map fun e => ToNew.session e.1 e.2).flatMap ToNew.ids = exports.map Prod.fst := by
        rw [flatMap_map, map_eq_flatMap]
        rfl
      simpa [ToNew.ids, hids] using horderly.2
    · refine hI.goto (by rw [hp]; simp) ⟨horderly.1, ?_⟩ hflushed (by rw [hp]; simp [OldPhase.sent])
      simpa [or_assoc] using horderly.2
    · refine hI.goto (by rw [hp]; simp) ⟨horderly.1, ?_⟩ hflushed (by rw [hp]; simp [OldPhase.sent])
      simpa using horderly.2
    · exact hI.send hp
    · split
      · exact hI
      · exact hI.committed (by rw [hp]; simp)

/-- A new core finds the old one idle, so no terminal that the old core has was taken. -/
theorem inv_takeover : Inv (step s .takeover) := by
  simp only [step]
  split
  swap
  · exact hI
  rename_i hidle
  refine ⟨hI.orderly, ?_, hI.flushed, ?_, fun i hi => absurd hi not_mem_nil, ?_, nofun, hI.resumed⟩
  · intro i hi _
    exact hI.whole i hi fun htaken => OldServes.kept ⟨hidle.1, hi⟩ (hI.taken i htaken)
  · rintro i (⟨m, hm, -⟩ | ⟨c, a, hc, ha⟩)
    · cases hm
    · cases hc
      cases ha
  · intro c i a hc ha
    cases hc
    cases ha

theorem inv_handoff : Inv (step s .handoff) := by
  simp only [step]
  split
  swap
  · exact hI
  rename_i hidle
  have hsent : s.old.sent = [] := by rw [hidle.1]; rfl
  have hkept : ∀ i, i ∈ s.old.sent ∨ i ∉ s.hosted → i ∉ s.hosted := by
    rw [hsent]
    exact fun i h => h.resolve_left not_mem_nil
  exact ⟨fun i hi => hi, hI.whole, fun i hi => absurd hi not_mem_nil,
    fun i hi => ⟨.inr (hkept i (hI.offered i hi).1), (hI.offered i hi).2⟩,
    fun i hi => .inr (hkept i (hI.taken i hi)), hI.untouched, hI.gone, fun i hi => absurd hi not_mem_nil⟩

theorem inv_loseToNew : Inv (step s .loseToNew) := by
  refine hI.of_new (fun i => offered_of_subset fun m => mem_of_mem_tail) hI.untouched fun h => ?_
  rw [hI.gone h]
  rfl

theorem inv_step (hl : GivesUpInTime s l) : Inv (step s l) := by
  cases l with
  | emit => exact inv_emit hI
  | oldRead => exact inv_oldRead hI
  | oldWrite => exact inv_oldWrite hI
  | takeover => exact inv_takeover hI
  | handoff => exact inv_handoff hI
  | old => exact inv_old hI hl
  | new => exact inv_new hI
  | newRead => exact inv_newRead hI
  | newWrite => exact inv_newWrite hI
  | newExits => exact hI.newGone
  | loseToNew => exact inv_loseToNew hI
  | loseToOld => exact hI.of_new (fun _ h => h) hI.untouched hI.gone

end

end Steps

theorem inv_boot : Inv (boot hosted) := by
  constructor
  · exact trivial
  · exact fun i _ _ => ⟨rfl, rfl⟩
  · exact fun i hi => absurd hi not_mem_nil
  · rintro i (⟨m, hm, -⟩ | ⟨c, a, hc, -⟩)
    · cases hm
    · cases hc
  · exact fun i hi => absurd hi not_mem_nil
  · intro c i a hc
    cases hc
  · exact fun _ => rfl
  · exact fun i hi => absurd hi not_mem_nil

/-- **A handoff is all or nothing**, for any number of Sessions, any number of attempts, any loss or delay of
    messages and any interleaving of the two cores in which the old core gives up in time. -/
theorem all_or_nothing (hosted : List Nat) (labels : List Label)
    (h : Machine.Along step GivesUpInTime (boot hosted) labels) : Intact (Machine.run step (boot hosted) labels) :=
  (Machine.invariant (fun _ _ hI hl => inv_step hI hl) inv_boot h : Inv _).intact

/-- The old core of `n` Sessions serves a request up to the point where all are sent. -/
def sendsAll (n : Nat) : List Label := [.takeover, .handoff] ++ List.replicate (3 * n + 4) (.old true)

/-- The first of two Sessions cannot be rebuilt: the new core exits, and the old one resumes both. A program has
    written meanwhile. -/
theorem all_or_nothing_first_refused :
    let labels := [Label.emit 0 [1], .oldRead 0 1] ++ sendsAll 2 ++ [.emit 0 [2], .new true, .new false, .old true]
    let s := Machine.run step (boot [0, 1]) labels
    s.resumed = [0, 1] ∧ s.terminals 0 = ⟨[1, 2], [2], [1], [1], []⟩ ∧ Intact s := by
  intro labels s
  exact ⟨by decide, by decide, all_or_nothing [0, 1] labels (by decide)⟩

/-- Two ways to have half a handoff. The second of two Sessions cannot be rebuilt after the new core has read the
    first: the old core resumes it without the byte that was read. And: the new core is slow, the old one gives
    up waiting for the commit, and both serve the Session. -/
theorem half_a_handoff : let halved := Machine.run step (boot [0, 1]) (sendsAll 2 ++
      [.new true, .new true, .emit 0 [1], .newRead 0 1, .newWrite 0 1, .new false, .old true])
    let doubled := Machine.run step (boot [0]) (sendsAll 1 ++
      [.new true, .new true, .old false, .new true, .new true])
    (OldServes halved 0 ∧ halved.resumed = [0, 1] ∧ halved.terminals 0 = ⟨[1], [], [1], [], []⟩ ∧ ¬ Intact halved) ∧
    (OldServes doubled 0 ∧ NewServes doubled 0 ∧ ¬ Intact doubled) := by
  intro halved doubled
  constructor
  · have hserves : OldServes halved 0 := ⟨by decide, by decide⟩
    have hterminal : halved.terminals 0 = ⟨[1], [], [1], [], []⟩ := by decide
    refine ⟨hserves, by decide, hterminal, fun h => ?_⟩
    have hread := (h.whole 0 hserves).read
    rw [hterminal] at hread
    exact absurd hread (by decide)
  · have hold : OldServes doubled 0 := ⟨by decide, by decide⟩
    have hnew : NewServes doubled 0 := ⟨_, ⟨0, []⟩, rfl, by decide⟩
    exact ⟨hold, hnew, fun h => (h.exclusive 0 hnew).1 hold⟩

end Supercli.PtyCore.Handoff
