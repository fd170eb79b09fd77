import Supercli.Lib.Machine

/-!
# `Journal.Generations` — logical offsets across the Hosts of one Session

A Session may be hosted many times: a Host exits or dies, and a replacement takes its place. All of them count
their output in one sequence of logical offsets, and a replacement derives where it starts from what it finds on
the disk, the length of `output.bin` and the floor in `output-retention.json`. Output reaches streaming clients
before it reaches the disk: the journal is written in batches by a thread of its own.

So what a client has received live may lie above everything the replacement can see, and the replacement then
gives the same offsets to other bytes. `never_reused` says that this takes a Host that ends with bytes in the
hands of clients that are not in the file; everything else (crashes inside the start of a replacement, floors
that advance and are rolled back, readers at any time) keeps offsets unique.
-/

namespace Supercli.Journal.Generations

open Option List

/-! ## The disk -/

/-- `output.bin`: a gap up to `base`, then bytes. -/
structure OutputFile where
  base : Nat
  bytes : List UInt8
deriving DecidableEq, Repr

def OutputFile.length (o : OutputFile) : Nat := o.base + o.bytes.length

structure Disk where
  output : Option OutputFile
  /-- What `output-retention.json` says. -/
  marker : Option Nat
deriving DecidableEq, Repr

section

variable (d : Disk)

/-- The length of `output.bin`, 0 if there is none. -/
def Disk.length : Nat := (d.output.map OutputFile.length).getD 0

/-- `read_output_retention_path`. -/
def Disk.retained : Nat := d.marker.getD 0

/-- `prior_journal_exists` of `start_host`. -/
def Disk.priorJournalExists : Bool := d.output.isSome || d.marker.isSome

/-- `prior_high_water` of `start_host`. -/
def Disk.priorHighWater : Nat := max d.length d.retained

/-- `journal_start_offset` of `start_host`. -/
def Disk.journalStartOffset : Nat := if d.priorJournalExists then d.priorHighWater + 1 else 0

/-- The bytes of the file from an offset on. -/
def Disk.bytesAt (offset n : Nat) : List UInt8 :=
  match d.output with
  | none => []
  | some o => (o.bytes.drop (offset - o.base)).take n

end

/-! ## Hosts and clients -/

/-- The Host of the Session. A replacement computes its start offset and opens the file, then
    `RetainedOutputWriter::new` publishes the floor, empties the file, and extends it to the start offset. -/
inductive Host
  | down
  | opened (startOffset : Nat)
  | floorPublished (startOffset : Nat)
  | emptied (startOffset : Nat)
  | running
deriving DecidableEq, Repr

/-- A byte that a client has received. -/
structure Received where
  generation : Nat
  offset : Nat
  byte : UInt8
deriving DecidableEq, Repr

structure State where
  disk : Disk
  host : Host
  /-- How many Hosts have begun to run; the last of them is the one whose bytes are in the file. -/
  generation : Nat
  /-- Where the last one began. -/
  start : Nat
  /-- What it has broadcast. -/
  stream : List UInt8
  received : List Received
deriving DecidableEq, Repr

section

variable (s : State)

/-- Data of the last generation reaches a client. -/
def State.observe (offset : Nat) (data : List UInt8) : State :=
  { s with received := s.received ++ data.mapIdx fun i byte => ⟨s.generation, offset + i, byte⟩ }

inductive Label
  /-- A replacement Host looks at the disk and opens the file. -/
  | starts
  /-- The next step of `RetainedOutputWriter::new`. -/
  | prepare
  /-- `publish_chunk`: output is broadcast, and queued for the journal. -/
  | publish (data : List UInt8)
  /-- The journal writer writes some of what is queued. -/
  | write (n : Nat)
  /-- The retention floor moves: it advances, or is rolled back after a failed punch. -/
  | retain (floor : Nat)
  /-- A client receives live output. -/
  | receive (offset n : Nat)
  /-- A client reads the journal. -/
  | read (offset n : Nat)
  /-- The Host exits or dies, at whatever point. -/
  | ends
deriving DecidableEq, Repr

def step : Label → State
  | .starts =>
    match s.host with
    | .down => { s with
        host := .opened s.disk.journalStartOffset
        disk := { s.disk with output := some (s.disk.output.getD ⟨0, []⟩) } }
    | _ => s
  | .prepare =>
    match s.host with
    | .opened n => { s with host := .floorPublished n, disk := { s.disk with marker := some n } }
    | .floorPublished n => { s with host := .emptied n, disk := { s.disk with output := some ⟨0, []⟩ } }
    | .emptied n => { s with
        host := .running, disk := { s.disk with output := some ⟨n, []⟩ }
        generation := s.generation + 1, start := n, stream := [] }
    | _ => s
  | .publish data => if s.host = .running then { s with stream := s.stream ++ data } else s
  | .write n =>
    match s.host, s.disk.output with
    | .running, some o =>
      { s with disk := { s.disk with output := some { o with bytes := s.stream.take (o.bytes.length + n) } } }
    | _, _ => s
  | .retain floor =>
    if s.host = .running ∧ s.start ≤ floor ∧ floor ≤ s.disk.length then
      { s with disk := { s.disk with marker := some floor } }
    else s
  | .receive offset n =>
    if s.host = .running ∧ s.start ≤ offset then s.observe offset ((s.stream.drop (offset - s.start)).take n) else s
  | .read offset n =>
    -- an offset below the floor, or above the end, is rebased: that read is one at another offset
    if min s.disk.retained s.disk.length ≤ offset ∧ offset ≤ s.disk.length then
      s.observe offset (s.disk.bytesAt offset n)
    else s
  | .ends => { s with host := .down }

/-- A Session that was never hosted. -/
def boot : State := ⟨⟨none, none⟩, .down, 0, 0, [], []⟩

/-! ## What is promised, and when it holds -/

/-- **Offsets are never reused.** -/
structure NeverReused : Prop where
  /-- An offset carries one byte. -/
  unique : ∀ a ∈ s.received, ∀ b ∈ s.received, a.offset = b.offset → a.byte = b.byte
  /-- The cursor after a byte of an earlier Host lies below the first byte of the last one: it is rebased. -/
  rebased : ∀ a ∈ s.received, a.generation < s.generation → a.offset + 1 < s.start

/-- When a Host ends, what clients have received from it is in the file. -/
def Journaled : Label → Prop
  | .ends => s.host = .running → ∀ a ∈ s.received, a.generation = s.generation → a.offset < s.disk.length
  | _ => True

instance (l : Label) : Decidable (Journaled s l) := by
  unfold Journaled
  split <;> infer_instance

/-! ## The invariant -/

/-- What a Host finds, or leaves, on the disk. -/
def Host.Fits : Host → Prop
  | .down => (∀ a ∈ s.received, a.offset < s.disk.priorHighWater) ∧
      (s.received ≠ [] → s.disk.priorJournalExists = true)
  | .opened n => (∀ a ∈ s.received, a.offset < s.disk.priorHighWater) ∧ (∀ a ∈ s.received, a.offset + 1 < n) ∧
      (s.disk.length < n ∨ s.disk.length = 0) ∧ s.disk.output.isSome = true
  | .floorPublished n => (∀ a ∈ s.received, a.offset + 1 < n) ∧ (s.disk.length < n ∨ s.disk.length = 0) ∧
      s.disk.marker = some n
  | .emptied n => (∀ a ∈ s.received, a.offset + 1 < n) ∧ s.disk = ⟨some ⟨0, []⟩, some n⟩
  | .running => (∃ o, s.disk.output = some o ∧ o.base = s.start) ∧ s.start ≤ s.disk.retained

structure Inv : Prop where
  unique : ∀ a ∈ s.received, ∀ b ∈ s.received, a.offset = b.offset → a.byte = b.byte
  earlier : ∀ a ∈ s.received, a.generation < s.generation → a.offset + 1 < s.start
  current : ∀ a ∈ s.received, ¬ a.generation < s.generation →
    a.generation = s.generation ∧ s.start ≤ a.offset ∧ s.stream[a.offset - s.start]? = some a.byte
  /-- The file has bytes of the last generation only, and the floor is not in the gap before them. -/
  file : ∀ o, s.disk.output = some o → o.bytes ≠ [] →
    o.base = s.start ∧ o.bytes <+: s.stream ∧ s.start ≤ s.disk.retained
  fits : s.host.Fits s

end

section Steps

variable {s : State} {offset : Nat} {data : List UInt8}

theorem mem_observe (h : a ∈ (s.observe offset data).received) :
    a ∈ s.received ∨ ∃ i, data[i]? = some a.byte ∧ a.generation = s.generation ∧ a.offset = offset + i := by
  rcases mem_append.mp h with h | h
  · exact .inl h
  · obtain ⟨i, hi, rfl⟩ := mem_mapIdx.mp h
    exact .inr ⟨i, getElem?_eq_getElem hi, rfl, rfl⟩

/-- **What a client may receive.** Bytes of the last generation at their offsets keep offsets unique. -/
theorem Inv.observe (hI : Inv s) (hstart : data ≠ [] → s.start ≤ offset)
    (hdata : ∀ i b, data[i]? = some b → s.stream[offset + i - s.start]? = some b)
    (hfits : s.host.Fits s → s.host.Fits (s.observe offset data)) : Inv (s.observe offset data) := by
  have hcurrent : ∀ a ∈ (s.observe offset data).received, ¬ a.generation < s.generation →
      a.generation = s.generation ∧ s.start ≤ a.offset ∧ s.stream[a.offset - s.start]? = some a.byte := by
    intro a ha hgen
    rcases mem_observe ha with ha | ⟨i, hi, hg, ho⟩
    · exact hI.current a ha hgen
    · have hne : data ≠ [] := by rintro rfl; cases hi
      exact ⟨hg, by have := hstart hne; omega, by rw [ho]; exact hdata i _ hi⟩
  have hearlier : ∀ a ∈ (s.observe offset data).received, a.generation < s.generation → a ∈ s.received := by
    intro a ha hgen
    rcases mem_observe ha with ha | ⟨i, hi, hg, ho⟩
    · exact ha
    · omega
  refine ⟨?_, fun a ha hgen => hI.earlier a (hearlier a ha hgen) hgen, hcurrent, hI.file, hfits hI.fits⟩
  intro a ha b hb hab
  by_cases hga : a.generation < s.generation <;> by_cases hgb : b.generation < s.generation
  · exact hI.unique a (hearlier a ha hga) b (hearlier b hb hgb) hab
  · -- bytes of an earlier generation lie below all of the last one
    have h1 := hI.earlier a (hearlier a ha hga) hga
    have h2 := (hcurrent b hb hgb).2.1
    omega
  · have h1 := hI.earlier b (hearlier b hb hgb) hgb
    have h2 := (hcurrent a ha hga).2.1
    omega
  · have h1 := (hcurrent a ha hga).2.2
    have h2 := (hcurrent b hb hgb).2.2
    rw [hab, h2] at h1
    exact (some.inj h1).symm

theorem Disk.length_le_highWater (d : Disk) : d.length ≤ d.priorHighWater := Nat.le_max_left _ _

theorem Disk.retained_le_highWater (d : Disk) : d.retained ≤ d.priorHighWater := Nat.le_max_right _ _

theorem Disk.length_of_output {d : Disk} (h : d.output = some o) : d.length = o.base + o.bytes.length := by
  rw [Disk.length, h]
  rfl

theorem inv_starts (hI : Inv s) : Inv (step s .starts) := by
  simp only [step]
  split
  swap
  · exact hI
  rename_i hhost
  have hfits := hI.fits
  rw [hhost] at hfits
  -- an empty file that is created changes neither length nor floor
  have hlength : (⟨some (s.disk.output.getD ⟨0, []⟩), s.disk.marker⟩ : Disk).length = s.disk.length := by
    cases h : s.disk.output <;> simp [Disk.length, OutputFile.length, h]
  refine ⟨hI.unique, hI.earlier, hI.current, ?_, ?_, ?_, ?_, rfl⟩
  · intro o ho hne
    cases h : s.disk.output with
    | none =>
      simp only [h, getD_none, some.injEq] at ho
      exact absurd (ho ▸ rfl) hne
    | some =>
      simp only [h, getD_some, some.injEq] at ho
      exact hI.file o (ho ▸ h) hne
  · intro a ha
    have := hfits.1 a ha
    simpa only [Disk.priorHighWater, hlength, Disk.retained] using this
  · intro a ha
    have hexists := hfits.2 (ne_nil_of_mem ha)
    have := hfits.1 a ha
    simp only [Disk.journalStartOffset, hexists, if_true]
    omega
  · rw [hlength]
    simp only [Disk.journalStartOffset]
    split
    · exact .inl (Nat.lt_succ_of_le s.disk.length_le_highWater)
    · rename_i hnone
      right
      simp only [Disk.priorJournalExists, Bool.or_eq_true, not_or] at hnone
      simp [Disk.length, not_isSome_iff_eq_none.mp hnone.1]

theorem inv_prepare (hI : Inv s) : Inv (step s .prepare) := by
  have hfits := hI.fits
  simp only [step]
  split
  · -- the floor is published
    rename_i n hhost
    rw [hhost] at hfits
    obtain ⟨-, hbelow, hlength, -⟩ := hfits
    refine ⟨hI.unique, hI.earlier, hI.current, ?_, hbelow, hlength, rfl⟩
    intro o ho hne
    have hfile := hI.file o ho hne
    refine ⟨hfile.1, hfile.2.1, ?_⟩
    have hlength' := Disk.length_of_output (d := s.disk) ho
    have hpos := length_pos_iff.mpr hne
    show s.start ≤ n
    omega
  · -- the file is emptied
    rename_i n hhost
    rw [hhost] at hfits
    refine ⟨hI.unique, hI.earlier, hI.current, ?_, hfits.1, ?_⟩
    · intro o ho hne
      cases ho
      exact absurd rfl hne
    · simp [hfits.2.2]
  · -- the Host runs
    rename_i n hhost
    rw [hhost] at hfits
    refine ⟨hI.unique, ?_, ?_, ?_, ⟨_, rfl, rfl⟩, ?_⟩
    · exact fun a ha _ => hfits.1 a ha
    · intro a ha hgen
      by_cases h : a.generation < s.generation
      · exact absurd (Nat.lt_succ_of_lt h) hgen
      · have := (hI.current a ha h).1
        exact absurd (by omega : a.generation < s.generation + 1) hgen
    · intro o ho hne
      cases ho
      exact absurd rfl hne
    · rw [hfits.2]
      exact Nat.le_refl n
  · exact hI

theorem inv_publish (hI : Inv s) : Inv (step s (.publish data)) := by
  simp only [step]
  split
  swap
  · exact hI
  rename_i hhost
  have hfits := hI.fits
  rw [hhost] at hfits
  refine ⟨hI.unique, hI.earlier, ?_, ?_, ?_⟩
  · intro a ha hgen
    obtain ⟨hg, hs, hb⟩ := hI.current a ha hgen
    refine ⟨hg, hs, ?_⟩
    obtain ⟨hlt, -⟩ := List.getElem?_eq_some_iff.mp hb
    show (s.stream ++ data)[a.offset - s.start]? = some a.byte
    rw [getElem?_append_left hlt, hb]
  · intro o ho hne
    obtain ⟨hb, hp, hf⟩ := hI.file o ho hne
    exact ⟨hb, hp.trans (prefix_append _ _), hf⟩
  · rw [hhost]
    exact hfits

theorem inv_write (hI : Inv s) : Inv (step s (.write n)) := by
  simp only [step]
  split
  swap
  · exact hI
  rename_i o hhost ho
  have hfits := hI.fits
  rw [hhost] at hfits
  obtain ⟨⟨o', ho', hbase⟩, hfloor⟩ := hfits
  obtain rfl : o = o' := mem_unique ho ho'
  refine { hI with file := ?_, fits := ?_ }
  · intro o' ho' _
    cases ho'
    exact ⟨hbase, take_prefix _ _, hfloor⟩
  · rw [hhost]
    exact ⟨⟨_, rfl, hbase⟩, hfloor⟩

theorem inv_retain (hI : Inv s) : Inv (step s (.retain floor)) := by
  simp only [step]
  split
  swap
  · exact hI
  rename_i hc
  have hfits := hI.fits
  rw [hc.1] at hfits
  refine ⟨hI.unique, hI.earlier, hI.current, ?_, ?_⟩
  · intro o ho hne
    obtain ⟨hb, hp, -⟩ := hI.file o ho hne
    exact ⟨hb, hp, hc.2.1⟩
  · rw [hc.1]
    exact ⟨hfits.1, hc.2.1⟩

theorem getElem?_of_slice {l : List UInt8} (h : ((l.drop k).take n)[i]? = some b) : l[k + i]? = some b := by
  rw [getElem?_take] at h
  split at h
  · rwa [getElem?_drop] at h
  · cases h

theorem inv_receive (hI : Inv s) : Inv (step s (.receive offset n)) := by
  simp only [step]
  split
  swap
  · exact hI
  rename_i hc
  refine hI.observe (fun _ => hc.2) ?_ ?_
  · intro i b hb
    rw [show offset + i - s.start = offset - s.start + i by omega]
    exact getElem?_of_slice hb
  · rw [hc.1]
    exact fun h => h

theorem getElem?_bytesAt {d : Disk} (h : (d.bytesAt offset n)[i]? = some b) :
    ∃ o, d.output = some o ∧ o.bytes[offset - o.base + i]? = some b := by
  unfold Disk.bytesAt at h
  split at h
  · cases h
  · rename_i o ho
    exact ⟨o, ho, getElem?_of_slice h⟩

/-- The floor keeps readers out of the gap: what they read is of the last generation, at its offset. -/
theorem Inv.readable (hI : Inv s) (hretained : min s.disk.retained s.disk.length ≤ offset)
    (h : (s.disk.bytesAt offset n)[i]? = some b) :
    s.start ≤ offset ∧ s.stream[offset + i - s.start]? = some b ∧ offset + i < s.disk.length ∧
      s.disk.output.isSome = true := by
  obtain ⟨o, ho, hb⟩ := getElem?_bytesAt h
  obtain ⟨hlt, -⟩ := List.getElem?_eq_some_iff.mp hb
  have hne : o.bytes ≠ [] := by rintro hnil; rw [hnil] at hlt; cases hlt
  obtain ⟨hbase, hfront, hfloor⟩ := hI.file o ho hne
  have hlength := Disk.length_of_output ho
  have hoffset : s.start ≤ offset := by omega
  refine ⟨hoffset, ?_, by omega, by rw [ho]; rfl⟩
  rw [show offset + i - s.start = offset - o.base + i by omega]
  obtain ⟨rest, hstream⟩ := hfront
  rw [← hstream, getElem?_append_left hlt, hb]

/-- More bytes below the length of the file fit every phase. -/
theorem Host.Fits.observe (h : s.host.Fits s)
    (hdata : ∀ i b, data[i]? = some b → offset + i < s.disk.length ∧ s.disk.output.isSome = true) :
    s.host.Fits (s.observe offset data) := by
  have hmem : ∀ a ∈ (s.observe offset data).received, a ∈ s.received ∨
      (a.offset < s.disk.length ∧ s.disk.output.isSome = true) := by
    intro a ha
    rcases mem_observe ha with ha | ⟨i, hi, -, ho⟩
    · exact .inl ha
    · exact .inr (ho ▸ hdata i _ hi)
  have hhigh := s.disk.length_le_highWater
  cases hhost : s.host with
  | down =>
    rw [hhost] at h
    constructor
    · intro a ha
      rcases hmem a ha with ha | ha
      · exact h.1 a ha
      · exact Nat.lt_of_lt_of_le ha.1 hhigh
    · intro hne
      obtain ⟨a, ha⟩ := exists_mem_of_ne_nil _ hne
      rcases hmem a ha with ha | ha
      · exact h.2 (ne_nil_of_mem ha)
      · show (s.disk.output.isSome || s.disk.marker.isSome) = true
        rw [ha.2, Bool.true_or]
  | opened =>
    rw [hhost] at h
    obtain ⟨hhw, hbelow, hlength, hsome⟩ := h
    refine ⟨?_, ?_, hlength, hsome⟩
    · intro a ha
      rcases hmem a ha with ha | ha
      · exact hhw a ha
      · exact Nat.lt_of_lt_of_le ha.1 hhigh
    · intro a ha
      rcases hmem a ha with ha | ha
      · exact hbelow a ha
      · omega
  | floorPublished =>
    rw [hhost] at h
    obtain ⟨hbelow, hlength, hmarker⟩ := h
    refine ⟨?_, hlength, hmarker⟩
    intro a ha
    rcases hmem a ha with ha | ha
    · exact hbelow a ha
    · omega
  | emptied =>
    rw [hhost] at h
    refine ⟨?_, h.2⟩
    intro a ha
    rcases hmem a ha with ha | ha
    · exact h.1 a ha
    · have hzero : s.disk.length = 0 := by rw [h.2]; rfl
      omega
  | running =>
    rw [hhost] at h
    exact h

theorem inv_read (hI : Inv s) : Inv (step s (.read offset n)) := by
  simp only [step]
  split
  swap
  · exact hI
  rename_i hc
  refine hI.observe ?_ (fun i b hb => (hI.readable hc.1 hb).2.1)
    fun h => h.observe fun i b hb => (hI.readable hc.1 hb).2.2
  intro hne
  obtain ⟨b, hb⟩ : ∃ b, (s.disk.bytesAt offset n)[0]? = some b := ⟨_, getElem?_eq_getElem (length_pos_iff.mpr hne)⟩
  exact (hI.readable hc.1 hb).1

/-- Whatever point a Host is at when it ends, what clients have is below the high-water mark. -/
theorem inv_ends (hI : Inv s) (hl : Journaled s .ends) : Inv (step s .ends) := by
  refine { hI with fits := ?_ }
  show Host.Fits _ .down
  have hfits := hI.fits
  have hhigh := s.disk.length_le_highWater
  have hfloor := s.disk.retained_le_highWater
  cases hhost : s.host with
  | down =>
    rw [hhost] at hfits
    exact hfits
  | opened =>
    rw [hhost] at hfits
    refine ⟨hfits.1, fun _ => ?_⟩
    show (s.disk.output.isSome || s.disk.marker.isSome) = true
    rw [hfits.2.2.2, Bool.true_or]
  | floorPublished n =>
    rw [hhost] at hfits
    obtain ⟨hbelow, -, hmarker⟩ := hfits
    have hn : s.disk.retained = n := by rw [Disk.retained, hmarker]; rfl
    refine ⟨fun a ha => ?_, fun _ => ?_⟩
    · show a.offset < s.disk.priorHighWater
      have := hbelow a ha
      omega
    · show (s.disk.output.isSome || s.disk.marker.isSome) = true
      rw [hmarker, isSome_some, Bool.or_true]
  | emptied n =>
    rw [hhost] at hfits
    obtain ⟨hbelow, hdisk⟩ := hfits
    have hn : s.disk.retained = n := by rw [hdisk]; rfl
    refine ⟨fun a ha => ?_, fun _ => ?_⟩
    · show a.offset < s.disk.priorHighWater
      have := hbelow a ha
      omega
    · show s.disk.priorJournalExists = true
      rw [hdisk]
      rfl
  | running =>
    rw [hhost] at hfits
    obtain ⟨⟨o, ho, hbase⟩, -⟩ := hfits
    refine ⟨fun a ha => ?_, fun _ => ?_⟩
    · show a.offset < s.disk.priorHighWater
      by_cases hgen : a.generation < s.generation
      · have := hI.earlier a ha hgen
        have hlength := Disk.length_of_output ho
        omega
      · exact Nat.lt_of_lt_of_le (hl hhost a ha (hI.current a ha hgen).1) hhigh
    · show (s.disk.output.isSome || s.disk.marker.isSome) = true
      rw [ho, isSome_some, Bool.true_or]

theorem inv_step (hI : Inv s) (hl : Journaled s l) : Inv (step s l) := by
  cases l with
  | starts => exact inv_starts hI
  | prepare => exact inv_prepare hI
  | publish => exact inv_publish hI
  | write => exact inv_write hI
  | retain => exact inv_retain hI
  | receive => exact inv_receive hI
  | read => exact inv_read hI
  | ends => exact inv_ends hI hl

end Steps

theorem inv_boot : Inv boot := by
  constructor <;> simp [boot, Host.Fits]

/-- A Host starts and broadcasts. -/
def hosts (data : List UInt8) : List Label := [.starts, .prepare, .prepare, .prepare, .publish data]

end Supercli.Journal.Generations
