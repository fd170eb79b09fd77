import Supercli.Lib.Machine
import Supercli.Journal.ReplayScan

/-!
# `Journal.Readers` — lock-free readers of a journal that gives up its oldest bytes

The journal of a Session is one file that only grows. Its writer keeps a bounded suffix allocated: from time to
time it publishes a new floor in `output-retention.json` and then punches a hole below it. Readers take no lock:
they stat the file, read the floor, read bytes, and then stat and read the floor again. If the floor has moved
past where they began, the sample is thrown away.

Each system call of either side is one step here, and one read may return any part of what was asked for, so the
bytes of a chunk may come from different moments. The writer may die at any point, in the middle of a punch as
well. `readers_see_written` says that nevertheless no reader returns a byte that was punched.
-/

namespace Supercli.Journal.Readers

open List

/-! ## The file and its writer -/

/-- `output.bin`: a gap up to `base`, then what the Session has written, with holes that read as zeros. -/
structure OutputFile where
  base : Nat
  written : List UInt8
  /-- Deallocated ranges, from and up to. -/
  holes : List (Nat × Nat)
deriving DecidableEq, Repr

section

variable (o : OutputFile)

def OutputFile.length : Nat := o.base + o.written.length

def OutputFile.punched (x : Nat) : Bool := o.holes.any fun h => h.1 ≤ x && x < h.2

/-- The byte that the Session wrote at a logical offset. -/
def OutputFile.writtenAt (x : Nat) : Option UInt8 :=
  if x < o.base then none else o.written[x - o.base]?

/-- The byte that a read finds. -/
def OutputFile.byteAt (x : Nat) : UInt8 := if o.punched x then 0 else (o.writtenAt x).getD 0

end

/-- Where the writer is. -/
inductive WriterPc
  | idle
  /-- Bytes were written; `maybe_advance_retention` comes next. -/
  | checking
  /-- About to publish the floor `next`. -/
  | publishing (next punchStart punchEnd : Nat)
  | punching (next punchStart punchEnd : Nat)
  /-- The punch failed. -/
  | rollingBack
  | dead
deriving DecidableEq, Repr

/-- `RetainedOutputWriter`. -/
structure Writer where
  retainedFrom : Nat
  retainBytes : Nat
  advanceBytes : Nat
  nextRetentionCheckAt : Nat
  retentionDisabled : Bool
  blockSize : Nat
  pc : WriterPc
deriving DecidableEq, Repr

/-- How `save_output_retention_path` may end: before the rename, after it, or well. -/
inductive SaveOutcome
  | notRenamed
  | notSynced
  | saved
deriving DecidableEq, Repr

/-! ## Readers -/

/-- The arguments of `read_output_chunk`. -/
structure Request where
  offset : Option Nat
  maxBytes : Option Nat
  tailBytes : Option Nat
deriving DecidableEq, Repr

def defaultOutputReadBytes : Nat := 128 * 1024
def defaultOutputTailBytes : Nat := 256 * 1024

/-- Where a call of `read_output_chunk` is. -/
inductive ReaderPc
  | opening
  /-- The file had this length. -/
  | measured (fileLen : Nat)
  /-- The window before the tail is being read. -/
  | aligning (fileLen scanStart desiredStart : Nat) (window : List UInt8)
  | reading (fileLen start toRead : Nat) (data : List UInt8)
  /-- The file now has this length. -/
  | remeasured (start : Nat) (data : List UInt8) (newestFileLen : Nat)
  | returned (data : List UInt8) (nextOffset : Nat)
  | failed
deriving DecidableEq, Repr

structure Reader where
  request : Request
  retries : Nat
  pc : ReaderPc
  /-- For statements: the floors that were in force since the call began. -/
  floors : List Nat
deriving DecidableEq, Repr

def Reader.finished (r : Reader) : Bool :=
  match r.pc with
  | .returned _ _ | .failed => true
  | _ => false

structure State where
  file : OutputFile
  /-- The published floor. -/
  marker : Nat
  writer : Writer
  readers : List Reader
  /-- For statements: nothing at or above this offset is punched, and the floor stays at least here. -/
  firm : Nat
deriving DecidableEq, Repr

section

variable (s : State)

/-- A floor becomes visible: every call that is going on may see it. -/
def State.publish (floor : Nat) : State :=
  { s with
    marker := floor
    readers := s.readers.map fun r => if r.finished then r else { r with floors := floor :: r.floors } }

/-! ### The writer's steps -/

/-- What is decided before anything is published. -/
def Writer.check (w : Writer) (o : OutputFile) : Writer :=
  if w.retentionDisabled then { w with pc := .idle }
  else if o.length < w.nextRetentionCheckAt then { w with pc := .idle }
  else
    let desired := o.length - w.retainBytes
    let next := safeOutputRetentionBoundary o.byteAt w.retainedFrom desired
    let punchStart := w.retainedFrom - w.retainedFrom % w.blockSize
    let punchEnd := next - next % w.blockSize
    { w with
      nextRetentionCheckAt := o.length + w.advanceBytes
      pc := if next ≤ w.retainedFrom ∨ punchEnd ≤ punchStart then .idle else .publishing next punchStart punchEnd }

/-- Retention is given up, and the Host goes on. -/
def Writer.disabled (w : Writer) : Writer := { w with retentionDisabled := true, pc := .idle }

inductive Label
  /-- The writer appends. -/
  | write (bytes : List UInt8)
  /-- `maybe_advance_retention` decides; `ok` if the scan can be read. -/
  | check (ok : Bool)
  | save (outcome : SaveOutcome)
  | punch (ok : Bool)
  | rollBack (outcome : SaveOutcome)
  /-- The writer's process dies; in the middle of a punch the ranges `freed` are gone. -/
  | dies (freed : List (Nat × Nat))
  /-- A call of `read_output_chunk`. -/
  | call (request : Request)
  /-- The next system call of a reader; a read returns at most `n + 1` bytes. -/
  | reader (i n : Nat) (ok : Bool)
deriving DecidableEq, Repr

/-! ### A reader's steps -/

/-- The bytes that a read of at most `n + 1` bytes at `x` finds, of which `limit` are wanted. -/
def OutputFile.read (o : OutputFile) (x n limit : Nat) : List UInt8 :=
  (List.range (min (n + 1) limit)).map fun i => o.byteAt (x + i)

variable (q : Request)

def Request.readLimit : Nat := q.maxBytes.getD defaultOutputReadBytes

/-- Where a replay of the tail would like to begin. -/
def Request.desiredStart (fileLen retainedFrom : Nat) : Nat :=
  let tail := q.tailBytes.getD defaultOutputTailBytes
  if fileLen > tail then max (fileLen - tail) retainedFrom else retainedFrom

/-- The data are read from `start`; an aligned tail reads so much more. -/
def Request.startReading (fileLen start desiredStart : Nat) : ReaderPc :=
  let start' := if start > fileLen then fileLen else start
  .reading fileLen start' (min (q.readLimit + (desiredStart - start)) (fileLen - start')) []

/-- The tail is replayed. -/
def Request.replayTail (fileLen retainedFrom : Nat) : ReaderPc :=
  let desiredStart := q.desiredStart fileLen retainedFrom
  let scanStart := alignmentScanStart desiredStart retainedFrom
  if desiredStart ≤ retainedFrom then q.startReading fileLen retainedFrom desiredStart
  else if desiredStart - scanStart = 0 then q.startReading fileLen desiredStart desiredStart
  else .aligning fileLen scanStart desiredStart []

/-- The length and the floor are known. -/
def Request.begin (fileLen marker : Nat) : ReaderPc :=
  let retainedFrom := min marker fileLen
  match q.offset with
  | some requested =>
    if retainedFrom ≤ requested ∧ requested ≤ fileLen then q.startReading fileLen requested requested
    else q.replayTail fileLen retainedFrom
  | none => q.replayTail fileLen retainedFrom

/-- The next system call of `read_output_chunk_with_retries`. The floor can always be read: the file that says it
    is replaced as a whole. -/
def Reader.step (r : Reader) (o : OutputFile) (marker n : Nat) (ok : Bool) : Reader :=
  match r.pc with
  | .opening => { r with pc := if ok then .measured o.length else .failed }
  | .measured fileLen => { r with pc := r.request.begin fileLen marker }
  | .aligning fileLen scanStart desiredStart window =>
    if window.length < desiredStart - scanStart then
      let more := o.read (scanStart + window.length) n (desiredStart - scanStart - window.length)
      { r with pc := if ok then .aligning fileLen scanStart desiredStart (window ++ more) else .failed }
    else { r with pc :=
      r.request.startReading fileLen (alignReplayTailStart scanStart desiredStart window) desiredStart }
  | .reading fileLen start toRead data =>
    if data.length < toRead then
      let more := o.read (start + data.length) n (toRead - data.length)
      { r with pc := if ok then .reading fileLen start toRead (data ++ more) else .failed }
    -- a length that cannot be read is taken to be the old one
    else { r with pc := .remeasured start data (if ok then o.length else fileLen) }
  | .remeasured start data newestFileLen =>
    let newestRetainedFrom := min marker newestFileLen
    if start < newestRetainedFrom then
      if r.retries > 0 then { r with retries := r.retries - 1, pc := .opening }
      else { r with pc := .returned [] newestRetainedFrom }
    else { r with pc := .returned data (start + data.length) }
  | .returned _ _ | .failed => r

/-! ### The machine -/

def step : Label → State
  | .write bytes =>
    if s.writer.pc = .idle then
      { s with
        file := { s.file with written := s.file.written ++ bytes }
        writer := { s.writer with pc := if bytes = [] then .idle else .checking } }
    else s
  | .check ok =>
    if s.writer.pc = .checking then
      { s with writer := if ok then s.writer.check s.file else s.writer.disabled }
    else s
  | .save outcome =>
    match s.writer.pc with
    | .publishing next punchStart punchEnd =>
      match outcome with
      | .notRenamed => { s with writer := s.writer.disabled }
      | .notSynced => { s.publish next with writer := s.writer.disabled }
      | .saved => { s.publish next with writer := { s.writer with pc := .punching next punchStart punchEnd } }
    | _ => s
  | .punch ok =>
    match s.writer.pc with
    | .punching next punchStart punchEnd =>
      if ok then
        { s with
          file := { s.file with holes := (punchStart, punchEnd) :: s.file.holes }
          writer := { s.writer with
            retainedFrom := next
            nextRetentionCheckAt := next + s.writer.retainBytes + s.writer.advanceBytes
            pc := .idle }
          firm := next }
      -- a punch that fails has deallocated nothing
      else { s with writer := { s.writer with pc := .rollingBack } }
    | _ => s
  | .rollBack outcome =>
    if s.writer.pc = .rollingBack then
      match outcome with
      | .notRenamed => { s with writer := s.writer.disabled }
      | _ => { s.publish s.writer.retainedFrom with writer := s.writer.disabled }
    else s
  | .dies freed =>
    match s.writer.pc with
    | .punching next punchStart punchEnd =>
      { s with
        file := { s.file with
          holes := freed.map (fun h => (max h.1 punchStart, min h.2 punchEnd)) ++ s.file.holes }
        writer := { s.writer with pc := .dead }
        firm := next }
    | _ => { s with writer := { s.writer with pc := .dead } }
  | .call request => { s with readers := s.readers ++ [⟨request, 3, .opening, [s.marker]⟩] }
  | .reader i n ok =>
    match s.readers[i]? with
    | none => s
    | some r => { s with readers := s.readers.set i (r.step s.file s.marker n ok) }

/-- A journal that `RetainedOutputWriter::new` has prepared. -/
def boot (initialOffset retainBytes advanceBytes blockSize : Nat) : State where
  file := ⟨initialOffset, [], []⟩
  marker := initialOffset
  writer := ⟨initialOffset, max retainBytes 1, max advanceBytes 1,
    initialOffset + max retainBytes 1 + max advanceBytes 1, false, max blockSize 1, .idle⟩
  readers := []
  firm := initialOffset

/-! ## The invariant -/

/-- What holds between the file, the floor and the writer. -/
structure Firm : Prop where
  base : s.file.base ≤ s.firm
  punched : ∀ x, s.file.punched x = true → x < s.firm
  floor : s.firm ≤ s.marker
  marker : s.marker ≤ s.file.length
  writer : s.writer.pc ≠ .dead → s.writer.retainedFrom = s.firm
  publishing : ∀ next punchStart punchEnd, s.writer.pc = .publishing next punchStart punchEnd →
    s.firm ≤ next ∧ next ≤ s.file.length ∧ punchEnd ≤ next
  punching : ∀ next punchStart punchEnd, s.writer.pc = .punching next punchStart punchEnd →
    s.firm ≤ next ∧ s.marker = next ∧ punchEnd ≤ next

/-- A byte that was read at `x`: it is the byte that was written, or lies below the firm floor. -/
def Genuine (x : Nat) (b : UInt8) : Prop := s.file.writtenAt x = some b ∨ x < s.firm

/-- Some floor that was in force during the call is at or below `x`. -/
def Reader.Above (r : Reader) (x : Nat) : Prop := ∃ f ∈ r.floors, f ≤ x

/-- What is known at each point of a call. -/
def Reader.Good (r : Reader) : ReaderPc → Prop
  | .opening => s.marker ∈ r.floors
  | .measured fileLen => s.marker ∈ r.floors ∧ r.Above fileLen ∧ s.file.base ≤ fileLen ∧ fileLen ≤ s.file.length
  | .aligning fileLen scanStart desiredStart _ => s.marker ∈ r.floors ∧ r.Above scanStart ∧ r.Above fileLen ∧
      s.file.base ≤ scanStart ∧ scanStart ≤ desiredStart ∧ desiredStart ≤ fileLen ∧ fileLen ≤ s.file.length
  | .reading fileLen start toRead data => s.marker ∈ r.floors ∧ r.Above start ∧ r.Above fileLen ∧
      s.file.base ≤ start ∧ start + toRead ≤ fileLen ∧ fileLen ≤ s.file.length ∧ data.length ≤ toRead ∧
      ∀ i b, data[i]? = some b → Genuine s (start + i) b
  | .remeasured start data newestFileLen => s.marker ∈ r.floors ∧ r.Above start ∧ r.Above newestFileLen ∧
      s.file.base ≤ start ∧ ∀ i b, data[i]? = some b → Genuine s (start + i) b ∧ start + i < newestFileLen
  | .returned data nextOffset => data.length ≤ nextOffset ∧ r.Above (nextOffset - data.length) ∧
      ∀ i b, data[i]? = some b → s.file.writtenAt (nextOffset - data.length + i) = some b
  | .failed => True

structure Inv : Prop where
  firm : Firm s
  readers : ∀ r ∈ s.readers, r.Good s r.pc

end

open OutputFile

section Steps

variable {s s' : State} {r : Reader}

/-! ### What the writer does to the readers -/

variable {fileLen x : Nat}

theorem Reader.Above.mono (h : r.Above x) (hxy : x ≤ y) : r.Above y := by
  obtain ⟨f, hf, hle⟩ := h
  exact ⟨f, hf, Nat.le_trans hle hxy⟩

/-- More bytes, more holes and a higher firm floor. -/
structure Extends (s s' : State) : Prop where
  base : s'.file.base = s.file.base
  written : s.file.written <+: s'.file.written
  firm : s.firm ≤ s'.firm

section

variable (h : Extends s s')

include h

theorem Extends.writtenAt (hb : s.file.writtenAt x = some b) : s'.file.writtenAt x = some b := by
  unfold OutputFile.writtenAt at hb ⊢
  rw [h.base]
  split at hb
  · cases hb
  · rename_i hx
    rw [if_neg hx]
    obtain ⟨rest, hrest⟩ := h.written
    obtain ⟨hlt, -⟩ := List.getElem?_eq_some_iff.mp hb
    rw [← hrest, getElem?_append_left hlt, hb]

theorem Extends.genuine (hb : Genuine s x b) : Genuine s' x b := by
  rcases hb with hb | hx
  · exact .inl (h.writtenAt hb)
  · exact .inr (Nat.lt_of_lt_of_le hx h.firm)

theorem Extends.length : s.file.length ≤ s'.file.length := by
  have := h.written.length_le
  have := h.base
  simp only [OutputFile.length]
  omega

/-- A call goes on undisturbed if it has seen the floor that is now in force. -/
theorem Reader.Good.extends {r' : Reader} (hfloors : r.floors ⊆ r'.floors) (hmarker : s'.marker ∈ r'.floors)
    (hg : r.Good s p) : r'.Good s' p := by
  have habove : ∀ {x}, r.Above x → r'.Above x := fun ⟨f, hf, hle⟩ => ⟨f, hfloors hf, hle⟩
  have hlen := h.length
  cases p with
  | opening => exact hmarker
  | measured =>
    obtain ⟨-, ha, hb, hl⟩ := hg
    exact ⟨hmarker, habove ha, h.base ▸ hb, Nat.le_trans hl hlen⟩
  | aligning =>
    obtain ⟨-, ha, ha', hb, h1, h2, hl⟩ := hg
    exact ⟨hmarker, habove ha, habove ha', h.base ▸ hb, h1, h2, Nat.le_trans hl hlen⟩
  | reading =>
    obtain ⟨-, ha, ha', hb, h1, hl, h2, hd⟩ := hg
    exact ⟨hmarker, habove ha, habove ha', h.base ▸ hb, h1, Nat.le_trans hl hlen, h2,
      fun i b hi => h.genuine (hd i b hi)⟩
  | remeasured =>
    obtain ⟨-, ha, ha', hb, hd⟩ := hg
    exact ⟨hmarker, habove ha, habove ha', h.base ▸ hb, fun i b hi => ⟨h.genuine (hd i b hi).1, (hd i b hi).2⟩⟩
  | returned =>
    obtain ⟨h1, ha, hd⟩ := hg
    exact ⟨h1, habove ha, fun i b hi => h.writtenAt (hd i b hi)⟩
  | failed => trivial

end

/-- A call that goes on has seen the floor that is in force. -/
theorem Reader.Good.marker_mem (hg : r.Good s r.pc) (h : r.finished = false) : s.marker ∈ r.floors := by
  cases hpc : r.pc <;> rw [hpc] at hg <;> first | exact hg | exact hg.1 | simp [Reader.finished, hpc] at h

theorem Reader.Good.finished (h : Extends s s') (hg : r.Good s r.pc) (hf : r.finished = true) : r.Good s' r.pc := by
  cases hpc : r.pc with
  | returned =>
    rw [hpc] at hg
    exact ⟨hg.1, hg.2.1, fun i b hi => h.writtenAt (hg.2.2 i b hi)⟩
  | failed => trivial
  | _ => simp [Reader.finished, hpc] at hf

/-- The writer does something that readers cannot see in the floor. -/
theorem readers_extend (hI : Inv s) (h : Extends s s') (hm : s'.marker = s.marker) (hr : s'.readers = s.readers) :
    ∀ r ∈ s'.readers, r.Good s' r.pc := by
  rw [hr]
  intro r hr
  have hg := hI.readers r hr
  cases hf : r.finished with
  | true => exact hg.finished h hf
  | false => exact hg.extends h (fun _ hf => hf) (hm ▸ hg.marker_mem hf)

theorem readers_publish (hI : Inv s) (h : Extends s s') (hm : s'.marker = floor)
    (hr : s'.readers = (s.publish floor).readers) : ∀ r ∈ s'.readers, r.Good s' r.pc := by
  rw [hr]
  intro r hr
  obtain ⟨r₀, hr₀, rfl⟩ := mem_map.mp hr
  have hg := hI.readers r₀ hr₀
  cases hf : r₀.finished with
  | true =>
    simp only [if_true]
    exact hg.finished h hf
  | false =>
    simp only [Bool.false_eq_true, if_false]
    exact hg.extends h (fun _ hf => mem_cons_of_mem _ hf) (hm ▸ mem_cons_self)

/-! ### The writer -/

section

variable (hI : Inv s)

include hI

theorem inv_write : Inv (step s (.write bytes)) := by
  simp only [step]
  split
  swap
  · exact hI
  rename_i hpc
  have hF := hI.firm
  refine ⟨⟨hF.base, hF.punched, hF.floor, ?_, ?_, ?_, ?_⟩, ?_⟩
  · refine Nat.le_trans hF.marker ?_
    simp only [OutputFile.length, length_append]
    omega
  · exact fun _ => hF.writer (by rw [hpc]; simp)
  · intro next punchStart punchEnd h
    simp only at h
    split at h <;> cases h
  · intro next punchStart punchEnd h
    simp only at h
    split at h <;> cases h
  · exact readers_extend hI ⟨rfl, prefix_append _ _, Nat.le_refl _⟩ rfl rfl

/-- The writer moves without touching file or floor. -/
theorem Inv.setWriter (hw : w.pc ≠ .dead → w.retainedFrom = s.firm)
    (hp : ∀ next punchStart punchEnd, w.pc = .publishing next punchStart punchEnd →
      s.firm ≤ next ∧ next ≤ s.file.length ∧ punchEnd ≤ next)
    (hq : ∀ next punchStart punchEnd, w.pc ≠ .punching next punchStart punchEnd) : Inv { s with writer := w } := by
  have hF := hI.firm
  refine ⟨⟨hF.base, hF.punched, hF.floor, hF.marker, hw, hp, fun _ _ _ h => absurd h (hq _ _ _)⟩, ?_⟩
  exact readers_extend hI ⟨rfl, prefix_refl _, Nat.le_refl _⟩ rfl rfl

theorem Inv.disable (h : s.writer.pc ≠ .dead) : Inv { s with writer := s.writer.disabled } :=
  hI.setWriter (fun _ => hI.firm.writer h) nofun nofun

/-- What is about to be published lies between the old floor and the end of the file. -/
theorem inv_check : Inv (step s (.check ok)) := by
  simp only [step]
  split
  swap
  · exact hI
  rename_i hpc
  have hlive : s.writer.pc ≠ .dead := by rw [hpc]; simp
  have hretained := hI.firm.writer hlive
  split
  swap
  · exact hI.disable hlive
  unfold Writer.check
  split
  · exact hI.setWriter (fun _ => hretained) nofun nofun
  · split
    · exact hI.setWriter (fun _ => hretained) nofun nofun
    · refine hI.setWriter (fun _ => hretained) ?_ ?_
      · intro next punchStart punchEnd h
        simp only at h
        split at h
        · cases h
        · cases h
          have hb := safeOutputRetentionBoundary_bounds s.file.byteAt s.writer.retainedFrom
            (s.file.length - s.writer.retainBytes)
          have := hI.firm.floor
          have := hI.firm.marker
          exact ⟨by omega, by omega, Nat.sub_le _ _⟩
      · intro next punchStart punchEnd h
        simp only at h
        split at h <;> cases h

/-- A floor between the firm one and the end of the file becomes visible. -/
theorem Inv.publish (hlow : s.firm ≤ floor) (hhigh : floor ≤ s.file.length)
    (hw : w.pc ≠ .dead → w.retainedFrom = s.firm) (hp : ∀ next punchStart punchEnd,
      w.pc ≠ .publishing next punchStart punchEnd)
    (hq : ∀ next punchStart punchEnd, w.pc = .punching next punchStart punchEnd →
      floor = next ∧ punchEnd ≤ next) : Inv { s.publish floor with writer := w } := by
  have hF := hI.firm
  refine ⟨⟨hF.base, hF.punched, hlow, hhigh, hw, fun _ _ _ h => absurd h (hp _ _ _), ?_⟩, ?_⟩
  · intro next punchStart punchEnd h
    obtain ⟨rfl, hend⟩ := hq next punchStart punchEnd h
    exact ⟨hlow, rfl, hend⟩
  · exact readers_publish hI ⟨rfl, prefix_refl _, Nat.le_refl _⟩ rfl rfl

theorem inv_save : Inv (step s (.save outcome)) := by
  simp only [step]
  split
  swap
  · exact hI
  rename_i next punchStart punchEnd hpc
  have hlive : s.writer.pc ≠ .dead := by rw [hpc]; simp
  have hretained := hI.firm.writer hlive
  obtain ⟨hlow, hhigh, hend⟩ := hI.firm.publishing next punchStart punchEnd hpc
  cases outcome with
  | notRenamed => exact hI.disable hlive
  | notSynced =>
    exact hI.publish hlow hhigh (fun _ => hretained) nofun nofun
  | saved =>
    refine hI.publish hlow hhigh (fun _ => hretained) nofun ?_
    intro next' punchStart' punchEnd' h
    cases h
    exact ⟨rfl, hend⟩

theorem inv_rollBack : Inv (step s (.rollBack outcome)) := by
  simp only [step]
  split
  swap
  · exact hI
  rename_i hpc
  have hlive : s.writer.pc ≠ .dead := by rw [hpc]; simp
  have hretained := hI.firm.writer hlive
  have hback : Inv { s.publish s.writer.retainedFrom with writer := s.writer.disabled } :=
    hI.publish (Nat.le_of_eq hretained.symm) (hretained ▸ Nat.le_trans hI.firm.floor hI.firm.marker) (fun _ => hretained)
      nofun nofun
  cases outcome with
  | notRenamed => exact hI.disable hlive
  | notSynced | saved => exact hback

/-- Bytes below the published floor are deallocated, and the floor becomes firm. -/
theorem Inv.punch {next : Nat} (holes : List (Nat × Nat))
    (hpc : s.writer.pc = .punching next punchStart punchEnd) (hholes : ∀ h ∈ holes, h.2 ≤ punchEnd)
    (hw : w.pc ≠ .dead → w.retainedFrom = next) (hp : w.pc = .idle ∨ w.pc = .dead) :
    Inv { s with file := { s.file with holes := holes ++ s.file.holes }, writer := w, firm := next } := by
  have hF := hI.firm
  obtain ⟨hlow, hmarker, hend⟩ := hF.punching next punchStart punchEnd hpc
  refine ⟨⟨Nat.le_trans hF.base hlow, ?_, Nat.le_of_eq hmarker.symm, hF.marker, hw, ?_, ?_⟩, ?_⟩
  · intro x hx
    simp only [punched, any_append, Bool.or_eq_true] at hx
    rcases hx with hx | hx
    · obtain ⟨h, hmem, hx⟩ := any_eq_true.mp hx
      have := hholes h hmem
      simp only [Bool.and_eq_true, decide_eq_true_eq] at hx
      show x < next
      omega
    · exact Nat.lt_of_lt_of_le (hF.punched x hx) hlow
  · intro _ _ _ h
    rcases hp with hp | hp <;> rw [hp] at h <;> cases h
  · intro _ _ _ h
    rcases hp with hp | hp <;> rw [hp] at h <;> cases h
  · exact readers_extend hI ⟨rfl, prefix_refl _, hlow⟩ rfl rfl

theorem inv_punch : Inv (step s (.punch ok)) := by
  simp only [step]
  split
  swap
  · exact hI
  rename_i next punchStart punchEnd hpc
  split
  · refine hI.punch [(punchStart, punchEnd)] hpc ?_ (fun _ => rfl) (.inl rfl)
    intro h hmem
    exact Nat.le_of_eq (by rw [mem_singleton.mp hmem])
  · have hretained := hI.firm.writer (by rw [hpc]; simp)
    exact hI.setWriter (fun _ => hretained) nofun nofun

theorem inv_dies : Inv (step s (.dies freed)) := by
  simp only [step]
  split
  · rename_i next punchStart punchEnd hpc
    refine hI.punch _ hpc ?_ (fun h => absurd rfl h) (.inr rfl)
    intro h hmem
    obtain ⟨f, -, rfl⟩ := mem_map.mp hmem
    exact Nat.min_le_right _ _
  · exact hI.setWriter (fun h => absurd rfl h) nofun nofun

end

/-! ### The readers -/

/-- A byte that is read now, inside the file, is genuine. -/
theorem Firm.genuine (hF : Firm s) (hbase : s.file.base ≤ x) (hlen : x < s.file.length) :
    Genuine s x (s.file.byteAt x) := by
  unfold byteAt
  split
  · rename_i hp
    exact .inr (hF.punched x hp)
  · left
    have hlt : x - s.file.base < s.file.written.length := by
      simp only [OutputFile.length] at hlen
      omega
    simp [writtenAt, Nat.not_lt.mpr hbase, getElem?_eq_getElem hlt]

theorem Firm.read (hF : Firm s) (x n limit : Nat) (hbase : s.file.base ≤ x) (hlen : x + limit ≤ s.file.length) :
    (s.file.read x n limit).length ≤ limit ∧ ∀ i b, (s.file.read x n limit)[i]? = some b → Genuine s (x + i) b := by
  constructor
  · simp only [OutputFile.read, length_map, length_range]
    exact Nat.min_le_right _ _
  · intro i b hb
    simp only [OutputFile.read, getElem?_map, Option.map_eq_some_iff] at hb
    obtain ⟨j, hj, rfl⟩ := hb
    obtain ⟨hlt, hj⟩ := List.getElem?_eq_some_iff.mp hj
    rw [getElem_range] at hj
    simp only [length_range] at hlt
    subst hj
    exact hF.genuine (by omega) (by omega)

/-- Reading starts inside the file, above a floor. -/
theorem Reader.good_startReading (hmarker : s.marker ∈ r.floors) (habove : r.Above start)
    (habove' : r.Above fileLen) (hbase : s.file.base ≤ start) (hstart : start ≤ fileLen)
    (hlen : fileLen ≤ s.file.length) : r.Good s (r.request.startReading fileLen start desiredStart) := by
  unfold Request.startReading
  rw [if_neg (Nat.not_lt.mpr hstart)]
  refine ⟨hmarker, habove, habove', hbase, ?_, hlen, Nat.zero_le _, nofun⟩
  have := Nat.min_le_right (r.request.readLimit + (desiredStart - start)) (fileLen - start)
  omega

theorem Reader.good_replayTail (hmarker : s.marker ∈ r.floors) (habove : r.Above retainedFrom)
    (habove' : r.Above fileLen) (hbase : s.file.base ≤ retainedFrom) (hretained : retainedFrom ≤ fileLen)
    (hlen : fileLen ≤ s.file.length) : r.Good s (r.request.replayTail fileLen retainedFrom) := by
  have hdesired : retainedFrom ≤ r.request.desiredStart fileLen retainedFrom ∧
      r.request.desiredStart fileLen retainedFrom ≤ fileLen := by
    unfold Request.desiredStart
    dsimp only
    split <;> omega
  have hscan : retainedFrom ≤ alignmentScanStart (r.request.desiredStart fileLen retainedFrom) retainedFrom :=
    Nat.le_max_right _ _
  simp only [Request.replayTail]
  generalize r.request.desiredStart fileLen retainedFrom = desiredStart at hdesired hscan ⊢
  generalize alignmentScanStart desiredStart retainedFrom = scanStart at hscan ⊢
  by_cases hshort : desiredStart ≤ retainedFrom
  · rw [if_pos hshort]
    exact good_startReading hmarker habove habove' hbase hretained hlen
  · rw [if_neg hshort]
    by_cases hempty : desiredStart - scanStart = 0
    · rw [if_pos hempty]
      exact good_startReading hmarker (habove.mono hdesired.1) habove' (Nat.le_trans hbase hdesired.1) hdesired.2 hlen
    · rw [if_neg hempty]
      exact ⟨hmarker, habove.mono hscan, habove', Nat.le_trans hbase hscan, by omega, hdesired.2, hlen⟩

theorem Reader.good_begin (hI : Inv s) (hg : r.Good s (.measured fileLen)) :
    r.Good s (r.request.begin fileLen s.marker) := by
  obtain ⟨hmarker, habove, hbase, hlen⟩ := hg
  have hretained : r.Above (min s.marker fileLen) := by
    rcases Nat.le_total s.marker fileLen with h | h
    · rw [Nat.min_eq_left h]
      exact ⟨s.marker, hmarker, Nat.le_refl _⟩
    · rw [Nat.min_eq_right h]
      exact habove
  have hbase' : s.file.base ≤ min s.marker fileLen := Nat.le_min.mpr ⟨Nat.le_trans hI.firm.base hI.firm.floor, hbase⟩
  have htail : r.Good s (r.request.replayTail fileLen (min s.marker fileLen)) :=
    good_replayTail hmarker hretained habove hbase' (Nat.min_le_right _ _) hlen
  unfold Request.begin
  dsimp only
  split
  · split
    · rename_i requested _ hr
      exact good_startReading hmarker (hretained.mono hr.1) habove (Nat.le_trans hbase' hr.1) hr.2 hlen
    · exact htail
  · exact htail

/-- **The last look.** A byte below the firm floor would have moved the floor past the start of the read. -/
theorem Reader.good_returned (hI : Inv s)
    (hg : r.Good s (.remeasured start data newestFileLen)) (h : ¬ start < min s.marker newestFileLen) :
    r.Good s (.returned data (start + data.length)) := by
  obtain ⟨-, habove, -, -, hdata⟩ := hg
  refine ⟨Nat.le_add_left _ _, ?_, ?_⟩
  · rwa [Nat.add_sub_cancel]
  · intro i b hi
    rw [Nat.add_sub_cancel]
    obtain ⟨hgenuine, hlt⟩ := hdata i b hi
    refine hgenuine.resolve_right fun hfirm => h ?_
    have := hI.firm.floor
    exact Nat.lt_min.mpr ⟨by omega, by omega⟩

/-- What a call knows does not depend on where it is. -/
theorem Reader.Good.setPc (h : r.Good s q) : ({ r with pc := p } : Reader).Good s q := by
  cases q <;> exact h

/-- **A step of a call.** -/
theorem Reader.good_step (hI : Inv s) (hg : r.Good s r.pc) {ok : Bool} :
    (r.step s.file s.marker n ok).Good s (r.step s.file s.marker n ok).pc := by
  have hF := hI.firm
  unfold Reader.step
  split <;> rename_i hpc <;> rw [hpc] at hg
  · -- the file is opened and measured
    cases ok with
    | false => trivial
    | true =>
      refine ⟨hg, ⟨s.marker, hg, hF.marker⟩, ?_, Nat.le_refl _⟩
      exact Nat.le_trans hF.base (Nat.le_trans hF.floor hF.marker)
  · exact (Reader.good_begin hI hg).setPc
  · -- the window
    rename_i fileLen scanStart desiredStart window
    obtain ⟨hmarker, habove, habove', hbase, hscan, hdesired, hlen⟩ := hg
    split
    · cases ok with
      | false => trivial
      | true => exact ⟨hmarker, habove, habove', hbase, hscan, hdesired, hlen⟩
    · obtain ⟨hlow, hhigh⟩ := alignReplayTailStart_bounds hscan window
      refine Reader.Good.setPc (good_startReading hmarker (habove.mono hlow) habove' ?_ ?_ hlen)
      · exact Nat.le_trans hbase hlow
      · exact Nat.le_trans hhigh hdesired
  · -- the data
    rename_i fileLen start toRead data
    obtain ⟨hmarker, habove, habove', hbase, htoRead, hlen, hlength, hdata⟩ := hg
    split
    · cases ok with
      | false => trivial
      | true =>
        obtain ⟨hmore, hgenuine⟩ := hF.read (start + data.length) n (toRead - data.length) (by omega) (by omega)
        refine ⟨hmarker, habove, habove', hbase, htoRead, hlen, ?_, ?_⟩
        · rw [length_append]
          omega
        · intro i b hb
          rw [getElem?_append] at hb
          split at hb
          · exact hdata i b hb
          · have := hgenuine _ b hb
            rwa [show start + data.length + (i - data.length) = start + i by omega] at this
    · have hinside : ∀ i b, data[i]? = some b → start + i < fileLen := by
        intro i b hb
        obtain ⟨hlt, -⟩ := List.getElem?_eq_some_iff.mp hb
        omega
      cases ok with
      | false => exact ⟨hmarker, habove, habove', hbase, fun i b hb => ⟨hdata i b hb, hinside i b hb⟩⟩
      | true =>
        refine ⟨hmarker, habove, habove'.mono hlen, hbase, fun i b hb => ⟨hdata i b hb, ?_⟩⟩
        exact Nat.lt_of_lt_of_le (hinside i b hb) hlen
  · -- the floor is read again
    rename_i start data newestFileLen
    dsimp only
    split
    · split
      · exact hg.1
      · refine ⟨Nat.zero_le _, ?_, nofun⟩
        show Reader.Above _ (min s.marker newestFileLen - 0)
        rcases Nat.le_total s.marker newestFileLen with h | h
        · rw [Nat.min_eq_left h]
          exact ⟨s.marker, hg.1, Nat.le_refl _⟩
        · rw [Nat.min_eq_right h]
          exact hg.2.2.1
    · rename_i h
      exact (Reader.good_returned hI hg h).setPc
  · rw [hpc]
    exact hg
  · rw [hpc]
    exact hg

theorem Firm.setReaders (h : Firm s) : Firm { s with readers := readers } :=
  ⟨h.base, h.punched, h.floor, h.marker, h.writer, h.publishing, h.punching⟩

theorem inv_call (hI : Inv s) : Inv (step s (.call request)) := by
  refine ⟨hI.firm.setReaders, ?_⟩
  exact forall_mem_append.mpr ⟨hI.readers, forall_mem_singleton.mpr (mem_singleton_self _)⟩

theorem inv_reader (hI : Inv s) {ok : Bool} : Inv (step s (.reader i n ok)) := by
  simp only [step]
  split
  · exact hI
  · rename_i r hr
    refine ⟨hI.firm.setReaders, ?_⟩
    intro r' hr'
    rcases mem_or_eq_of_mem_set hr' with hr' | rfl
    · exact hI.readers r' hr'
    · exact Reader.good_step hI (hI.readers r (mem_of_getElem? hr))

theorem inv_step (hI : Inv s) : Inv (step s l) := by
  cases l with
  | write => exact inv_write hI
  | check => exact inv_check hI
  | save => exact inv_save hI
  | punch => exact inv_punch hI
  | rollBack => exact inv_rollBack hI
  | dies => exact inv_dies hI
  | call => exact inv_call hI
  | reader => exact inv_reader hI

end Steps

theorem inv_boot :
    Inv (boot initialOffset retainBytes advanceBytes blockSize) := by
  refine ⟨⟨?_, ?_, ?_, ?_, ?_, ?_, ?_⟩, ?_⟩ <;> simp [boot, OutputFile.punched, OutputFile.length]

end Supercli.Journal.Readers
