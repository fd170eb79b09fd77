import Mathlib

/-!
# `Lib.VersionedLog` — append-only rows with versions, read by their latest version

A log is a list of rows of any type `α` with a key and a version number. Rows are only ever appended;
the effective row of a key is the one with the highest version (`latest`), and `latestAll` lists the
effective rows by ascending key. A writer takes the next free version (`nextVersion`) or the successor of
one it knows to be the latest, which is what makes its row the effective one (`latest_append_self`).

`Tail` is the loop invariant of a reader that walks `latestAll` with a counter, as one does over the
consecutive keys `0, 1, 2, …`.
-/

namespace VersionedLog

open List

variable {α κ : Type*}

section Latest
variable [DecidableEq κ] (key : α → κ) (ver : α → Nat)

section

variable (log : List α)

/-- The rows of one key. -/
def rowsAt (k : κ) : List α := log.filter fun a => key a = k

/-- The effective row of a key: the highest version. -/
def latest (k : κ) : Option α := (rowsAt key log k).argmax ver

/-- `COALESCE(MAX(version), -1) + 1`. -/
def nextVersion (k : κ) : Nat :=
  match latest key ver log k with
  | some a => ver a + 1
  | none => 0

/-- Is there already a row with this key and version (a primary-key conflict)? -/
def occupied (k : κ) (v : Nat) : Bool := log.any fun a => key a = k && ver a = v

end

variable {key ver} {log : List α} {k : κ} {a b : α}

theorem mem_rowsAt : a ∈ rowsAt key log k ↔ a ∈ log ∧ key a = k := by simp [rowsAt]

@[simp] theorem latest_nil : latest key ver [] k = none := rfl

section

variable (h : latest key ver log k = some a)

include h

theorem mem_of_latest : a ∈ log :=
  (mem_rowsAt.mp (argmax_mem h)).1

theorem key_of_latest : key a = k :=
  (mem_rowsAt.mp (argmax_mem h)).2

theorem ver_le_of_latest (hb : b ∈ log) (hk : key b = k) : ver b ≤ ver a :=
  le_of_mem_argmax (mem_rowsAt.mpr ⟨hb, hk⟩) h

end

theorem latest_eq_none_iff : latest key ver log k = none ↔ ∀ a ∈ log, key a ≠ k := by
  simp [latest, rowsAt, filter_eq_nil_iff]

theorem latest_isSome_of_mem (key : α → κ) (ver : α → Nat) (h : a ∈ log) :
    ∃ b, latest key ver log (key a) = some b := by
  cases hl : latest key ver log (key a) with
  | some b => exact ⟨b, rfl⟩
  | none => exact absurd rfl (latest_eq_none_iff.mp hl a h)

/-- A row of the log is below the next version of its key. -/
theorem ver_lt_nextVersion (key : α → κ) (ver : α → Nat) (h : a ∈ log) : ver a < nextVersion key ver log (key a) := by
  obtain ⟨b, hb⟩ := latest_isSome_of_mem key ver h
  have := ver_le_of_latest hb h rfl
  simp only [nextVersion, hb]
  omega

theorem nextVersion_of_latest (h : latest key ver log k = some a) :
    nextVersion key ver log k = ver a + 1 := by simp [nextVersion, h]

/-- A version at or above the next one is free. -/
theorem not_occupied (h : nextVersion key ver log k ≤ v) : occupied key ver log k v = false := by
  simp only [occupied, any_eq_false, Bool.and_eq_true, decide_eq_true_eq]
  rintro a ha ⟨rfl, rfl⟩
  have := ver_lt_nextVersion key ver ha
  omega

/-- Appending a row of another key changes nothing at `k`. -/
theorem latest_append_of_ne (h : key a ≠ k) : latest key ver (log ++ [a]) k = latest key ver log k := by
  simp [latest, rowsAt, h]

/-- **A row appended at or above the next version is the effective one.** -/
theorem latest_append_self (hk : key a = k) (hv : nextVersion key ver log k ≤ ver a) :
    latest key ver (log ++ [a]) k = some a := by
  subst hk
  have hrows : rowsAt key (log ++ [a]) (key a) = rowsAt key log (key a) ++ [a] := by simp [rowsAt]
  rw [latest, hrows, argmax_concat]
  cases hl : latest key ver log (key a) with
  | none =>
    have hm : argmax ver (rowsAt key log (key a)) = none := hl
    rw [hm]
  | some b =>
    have hm : argmax ver (rowsAt key log (key a)) = some b := hl
    rw [nextVersion_of_latest hl] at hv
    rw [hm]
    exact if_pos (by omega)

end Latest

section All
variable [LinearOrder κ] (key : α → κ) (ver : α → Nat)

/-- The keys of the log, ascending. -/
def keys (log : List α) : List κ := ((log.map key).dedup).insertionSort (· ≤ ·)

/-- The effective rows, by ascending key. -/
def latestAll (log : List α) : List α := (keys key log).filterMap (latest key ver log)

variable {key ver} {log : List α} {k : κ} {a : α}

theorem mem_keys : k ∈ keys key log ↔ ∃ a ∈ log, key a = k := by
  simp [keys, (perm_insertionSort (· ≤ ·) _).mem_iff]

theorem keys_pairwise : (keys key log).Pairwise (· < ·) := by
  have hle : (keys key log).Pairwise (· ≤ ·) := pairwise_insertionSort (· ≤ ·) _
  have hne : (keys key log).Nodup := (perm_insertionSort (· ≤ ·) _).nodup_iff.mpr (nodup_dedup _)
  exact (hle.and hne).imp fun h => lt_of_le_of_ne h.1 h.2

theorem mem_latestAll : a ∈ latestAll key ver log ↔ latest key ver log (key a) = some a := by
  simp only [latestAll, mem_filterMap]
  constructor
  · rintro ⟨k, -, hk⟩
    rwa [key_of_latest hk]
  · intro h
    exact ⟨key a, mem_keys.mpr ⟨a, mem_of_latest h, rfl⟩, h⟩

theorem latestAll_pairwise (log : List α) : (latestAll key ver log).Pairwise fun a b => key a < key b := by
  refine List.Pairwise.filterMap _ ?_ keys_pairwise
  intro k k' hlt a ha b hb
  rw [key_of_latest ha, key_of_latest hb]
  exact hlt

/-- **Counting effective rows.** If the keys of the log are among the first `n` numbers and the effective row
    of one of them does not satisfy `p`, fewer than `n` effective rows do. -/
theorem countP_latestAll_lt {key : α → Nat} {k : Nat} (hn : ∀ b ∈ log, key b < n)
    (ha : latest key ver log k = some a) (hp : p a = false) : (latestAll key ver log).countP p < n := by
  let hit := ((latestAll key ver log).filter p).map key
  have hsorted : hit.Pairwise (· < ·) := pairwise_map.mpr ((latestAll_pairwise log).filter p)
  have hnodup : hit.Nodup := hsorted.imp Nat.ne_of_lt
  have hk : k ∉ hit := by
    intro hmem
    obtain ⟨b, hb, hkey⟩ := mem_map.mp hmem
    obtain ⟨hb, hpb⟩ := mem_filter.mp hb
    have hlatest := mem_latestAll.mp hb
    rw [hkey, ha] at hlatest
    cases hlatest
    simp [hp] at hpb
  have hsub : k :: hit ⊆ range n := by
    intro j hj
    rcases mem_cons.mp hj with rfl | hj
    · exact mem_range.mpr (key_of_latest ha ▸ hn a (mem_of_latest ha))
    · obtain ⟨b, hb, rfl⟩ := mem_map.mp hj
      have hlatest := mem_latestAll.mp (mem_filter.mp hb).1
      exact mem_range.mpr (hn b (mem_of_latest hlatest))
  have hlen := (subperm_of_subset (nodup_cons.mpr ⟨hk, hnodup⟩) hsub).length_le
  rw [countP_eq_length_filter]
  simp only [length_cons, length_range, hit, length_map] at hlen
  omega

end All

/-! ## Walking the keys `0, 1, 2, …` -/

section Walk
variable (key ver : α → Nat)

/-- `rest` is what remains of `latestAll` once the walk expects key `e`. -/
structure Tail (log : List α) (e : Nat) (rest : List α) : Prop where
  sorted : rest.Pairwise fun a b => key a < key b
  mem : ∀ a, a ∈ rest ↔ e ≤ key a ∧ latest key ver log (key a) = some a

variable {key ver} {log rest : List α} {e : Nat} {a : α}

theorem tail_latestAll : Tail key ver log 0 (latestAll key ver log) :=
  ⟨latestAll_pairwise log, fun a => by simp [mem_latestAll]⟩

/-- The walk has run out of rows: nothing is recorded at the expected key. -/
theorem Tail.latest_eq_none (h : Tail key ver log e []) : latest key ver log e = none := by
  cases hl : latest key ver log e with
  | none => rfl
  | some a =>
    have hk := key_of_latest hl
    exact absurd ((h.mem a).mpr ⟨hk.ge, hk ▸ hl⟩) not_mem_nil

/-- The next row is past the expected key: a gap. -/
theorem Tail.latest_eq_none_of_gap (h : Tail key ver log e (a :: rest)) (hne : key a ≠ e) :
    latest key ver log e = none := by
  have hea : e ≤ key a := ((h.mem a).mp mem_cons_self).1
  cases hl : latest key ver log e with
  | none => rfl
  | some b =>
    have hk := key_of_latest hl
    rcases mem_cons.mp ((h.mem b).mpr ⟨hk.ge, hk ▸ hl⟩) with rfl | hb
    · exact absurd hk hne
    · have := rel_of_pairwise_cons h.sorted hb
      omega

/-- The next row is the expected one, and the walk goes on. -/
theorem Tail.next (h : Tail key ver log e (a :: rest)) (hk : key a = e) :
    latest key ver log e = some a ∧ Tail key ver log (e + 1) rest := by
  have hhead := (h.mem a).mp mem_cons_self
  refine ⟨hk ▸ hhead.2, (pairwise_cons.mp h.sorted).2, fun b => ⟨?_, ?_⟩⟩
  · intro hb
    have hlt := rel_of_pairwise_cons h.sorted hb
    exact ⟨by omega, ((h.mem b).mp (mem_cons_of_mem _ hb)).2⟩
  · rintro ⟨hle, hl⟩
    rcases mem_cons.mp ((h.mem b).mpr ⟨by omega, hl⟩) with rfl | hb
    · omega
    · exact hb

end Walk

end VersionedLog
