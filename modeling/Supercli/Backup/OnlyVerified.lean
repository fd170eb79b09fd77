import Supercli.Backup.CalmRestore

/-!
# `Backup.OnlyVerified` — what is installed was verified

The property: a restore that fails before it installs leaves the home as it was, and after one that succeeds every file it
wrote is a listed one, with the listed bytes, whose chain was checked if it has one. It holds for every archive with a given
listing just when the staging directory and the home are apart, every review log the listing comes down to is also found by
the spelling of one of its paths, and a listed audit is looked for where it is staged (`Careful`).
-/

namespace Supercli.Backup

open List

/-! ## The property -/

section Property

variable (libs : RestoreLibs) (proc : Process)

/-- The paths an archive's manifest lists. -/
def listing (archive : Archive) : List Text :=
  match manifestIn libs archive with
  | some manifest => manifest.files.map (·.path)
  | none => []

/-- Extraction and verification, with what comes before. -/
def restoreChecks (lockHeld : Bool) (archive : Archive) (stagingPath : RawPath) (home : Location) (force : Bool) :
    Restoring BackupManifest := do
  prepare lockHeld force (proc.locate stagingPath) home
  verified libs (proc.locate stagingPath) (proc.supercliHome stagingPath) archive

/-- What a restore should do to a disk, whatever the environment does. -/
structure RestoresVerified (archive : Archive) (stagingPath : RawPath) (home : Location) (d : Disk) : Prop where
  /-- a failure of extraction or verification leaves the home alone -/
  untouched : ∀ lockHeld force es e d₁ r d',
    (restoreChecks libs proc lockHeld archive stagingPath home force).run.exec fileSystem d es = some (.error e, d₁) →
    (restoreBackup libs proc lockHeld archive stagingPath home force).run.exec fileSystem d es = some (r, d') →
    r = .error e ∧ ∀ x, home <+: x → d'.get x = d.get x
  /-- what a success wrote is listed and verified -/
  installed : ∀ lockHeld force es report d',
    (restoreBackup libs proc lockHeld archive stagingPath home force).run.exec fileSystem d es = some (.ok report, d') →
    ∃ manifest, manifestIn libs archive = some manifest ∧
      ∀ x bytes, ¬ proc.locate stagingPath <+: x → d'.get x = some (.file bytes) →
        (d.get x = some (.file bytes) ∧ ¬ places home manifest.files x) ∨ Installed libs home manifest.files x bytes

end Property

/-! ## Spelling -/

/-- The path is spelled so that the review log of the Session is looked for. -/
def namesLog (id path : Text) : Bool :=
  match sessionRest path with
  | none => false
  | some tail => firstPiece tail = id && endsWithReviews tail

theorem mem_btreeInsert {set : List Text} : y ∈ btreeInsert x set ↔ y = x ∨ y ∈ set := by
  induction set with
  | nil => simp [btreeInsert]
  | cons z set ih =>
    unfold btreeInsert
    split
    · rename_i heq
      subst heq
      simp
    · split
      · simp
      · rw [mem_cons, mem_cons, ih]
        exact or_left_comm

theorem mem_collectSessions {acc : List Text × List Text} {id : Text} :
    id ∈ (collectSessions files acc).2 ↔ id ∈ acc.2 ∨ ∃ entry ∈ files, namesLog id entry.path = true := by
  induction files generalizing acc with
  | nil => simp [collectSessions]
  | cons entry files ih =>
    obtain ⟨sessions, chained⟩ := acc
    unfold collectSessions
    cases hrest : sessionRest entry.path with
    | none =>
      rw [ih]
      have hnot : namesLog id entry.path = false := by simp [namesLog, hrest]
      simp [hnot]
    | some tail =>
      rw [ih]
      by_cases hends : endsWithReviews tail
      · have hnames : namesLog id entry.path = true ↔ id = firstPiece tail := by
          simp [namesLog, hrest, hends, eq_comm]
        simp only [hends, if_true, mem_btreeInsert, mem_cons, exists_eq_or_imp, hnames]
        exact or_assoc.trans or_left_comm
      · have hnot : namesLog id entry.path = false := by simp [namesLog, hrest, hends]
        simp [hends, hnot]

variable {id : Text}

/-- **The review logs that are looked at** are those a path is spelled for. -/
theorem mem_chainedIds : id ∈ chainedIds files ↔ ∃ entry ∈ files, namesLog id entry.path = true := by
  rw [chainedIds, mem_collectSessions]
  simp

theorem slash_not_mem_of_namesLog (h : namesLog id path = true) : '/' ∉ id := by
  unfold namesLog at h
  split at h
  · cases h
  · rename_i tail _
    simp only [Bool.and_eq_true, decide_eq_true_eq] at h
    rw [← h.1, firstPiece]
    cases hsplit : tail.splitOn '/' with
    | nil => simp
    | cons first rest =>
      have hmem : first ∈ tail.splitOn '/' := by simp [hsplit]
      exact not_mem_of_mem_splitOn hmem

theorem join_piece (h : '/' ∉ id) : join base id = enter base id := by
  have hhead : id.head? ≠ some '/' := by
    intro hhead
    cases id with
    | nil => cases hhead
    | cons =>
      obtain rfl := Option.some.inj hhead
      exact h mem_cons_self
  rw [join, splitOn_eq_singleton h, if_neg hhead]
  rfl

/-- Where a review log is looked for, from the staging directory. -/
theorem checkedLog_eq (h : '/' ∉ id) (staging : Location) : checkedLog staging id = staging ++ checkedLog [] id := by
  have hdir : ∀ base : Location, join base sessionsDir = base ++ [sessionsDir] := fun _ => rfl
  unfold checkedLog
  rw [hdir, hdir, join_piece h, join_piece h]
  unfold enter
  split
  · simp
  · split
    · simp
    · simp

theorem checkedLog_plain (h : PlainName id) (staging : Location) :
    checkedLog staging id = staging ++ [sessionsDir, id, reviewsFile] := by
  have hdir : join staging sessionsDir = staging ++ [sessionsDir] := rfl
  unfold checkedLog
  rw [hdir, join_piece h.2.2.2, enter_plain h]
  simp

/-- The label of a log is only named in errors. -/
theorem verifyReviewLines_label (libs : ChainLibs) (label label' : String) (line : Nat) (texts : List (Option Text))
    (prev : String) (count n : Nat) (h : verifyReviewLines libs label line texts prev count = .ok n) :
    verifyReviewLines libs label' line texts prev count = .ok n := by
  induction texts generalizing line prev count with
  | nil => exact h
  | cons text texts ih =>
    cases text with
    | none => cases h
    | some =>
      unfold verifyReviewLines at h ⊢
      split at h
      · rename_i hblank
        rw [if_pos hblank]
        exact ih _ _ _ h
      · rename_i hblank
        rw [if_neg hblank]
        split at h
        · cases h
        · exact ih _ _ _ h

/-! ## The condition is enough -/

/-- What is asked of a listing and of where it is restored. -/
structure Careful (proc : Process) (stagingPath : RawPath) (home : Location) (paths : List Text) : Prop where
  /-- neither directory contains the other -/
  apart : Apart (proc.locate stagingPath) home
  /-- a listed review log is looked for -/
  logs : ∀ p ∈ paths, ∀ id, partsOf (.ofText p) = some [sessionsDir, id, reviewsFile] → ∃ q ∈ paths, namesLog id q = true
  /-- a listed audit is looked for where it is staged -/
  audit : (∃ p ∈ paths, partsOf (.ofText p) = some [auditFile]) → proc.supercliHome stagingPath = proc.locate stagingPath

section Enough

variable {libs : RestoreLibs} {proc : Process} {stagingPath : RawPath} {home : Location} {d : Disk}

/-- **Checked files are sound to install.** -/
theorem Checked.sound (h : Checked libs (proc.locate stagingPath) (proc.supercliHome stagingPath) manifest d)
    (hcareful : Careful proc stagingPath home (manifest.files.map (·.path))) :
    Sound libs (proc.locate stagingPath) home manifest.files d := by
  intro entry hentry parts bytes hparts hget
  obtain ⟨parts', bytes', hparts', hget', hsize, hhash⟩ := h.listed entry hentry
  obtain rfl : parts = parts' := Option.mem_unique hparts hparts'
  obtain rfl : bytes = bytes' := by simpa [hget] using hget'
  have hpath : entry.path ∈ manifest.files.map (·.path) := mem_map_of_mem hentry
  refine ⟨entry, hentry, parts, hparts, rfl, hsize, hhash, fun id hid label => ?_, fun haudit => ?_⟩
  · subst hid
    obtain ⟨q, hq, hnames⟩ := hcareful.logs _ hpath id hparts
    obtain ⟨other, hother, rfl⟩ := mem_map.mp hq
    have hplain : PlainName id := (partsOf_plain hparts).2 id (by simp)
    have hlog := checkedLog_plain hplain (proc.locate stagingPath)
    obtain ⟨n, hn⟩ := h.chains id (mem_chainedIds.mpr ⟨other, hother, hnames⟩) bytes (hlog ▸ hget)
    exact ⟨n, verifyReviewLines_label libs.chain _ label _ _ _ _ n hn⟩
  · subst haudit
    have hsame := hcareful.audit ⟨_, hpath, hparts⟩
    refine h.audit (by rw [hget]; rfl) bytes ?_
    rw [hsame]
    exact hget

theorem untouched_of_apart (hapart : Apart (proc.locate stagingPath) home)
    (hchecks : (restoreChecks libs proc lockHeld archive stagingPath home force).run.exec fileSystem d es =
      some (.error e, d₁))
    (hrun : (restoreBackup libs proc lockHeld archive stagingPath home force).run.exec fileSystem d es = some (r, d')) :
    r = .error e ∧ ∀ x, home <+: x → d'.get x = d.get x := by
  have hstages : Stages (proc.locate stagingPath) (restoreChecks libs proc lockHeld archive stagingPath home force) _ d :=
    Stages.bind ((stages_prepare lockHeld force).mono fun _ _ _ => stages_verified _ archive)
  have hframe : ∀ x, home <+: x → d₁.get x = d.get x := fun x hx =>
    (hstages.exec hchecks).1 x (fun hs => hapart.not_both hs hx) fun hs => hapart.2 (hx.trans hs)
  obtain ⟨r₀, d₀, rest, hprep, hcont⟩ := Prog.exec_bind hchecks
  have hrun' := (hcont _).symm.trans hrun
  have hchecks' := (hcont _).symm.trans hchecks
  cases r₀ with
  | error =>
    -- what comes first failed
    simp only [ExceptT.bindCont, Prog.pure_eq, Prog.exec, Option.some.injEq, Prod.mk.injEq] at hrun' hchecks'
    obtain ⟨rfl, rfl⟩ := hrun'
    obtain ⟨heq, rfl⟩ := hchecks'
    obtain rfl := Except.error.inj heq
    exact ⟨rfl, hframe⟩
  | ok =>
    -- verification failed: nothing is installed, and the staging directory goes
    have hver : (verified libs (proc.locate stagingPath) (proc.supercliHome stagingPath) archive).run.exec fileSystem d₀ rest =
        some (.error e, d₁) := hchecks'
    obtain ⟨ry, dy, resty, hy, hconty⟩ := Prog.exec_bind hrun'
    obtain ⟨rx, dx, restx, hx, hcontx⟩ := Prog.exec_bind hy
    obtain ⟨rv, dv, restv, hv, hcontv⟩ := Prog.exec_bind hx
    have hv' : some (.error e, d₁) = some (rv, dv) := hver.symm.trans hv
    obtain ⟨rfl, rfl⟩ : .error e = rv ∧ d₁ = dv := by simpa using hv'
    have hx' : some (.error e, d₁) = some (rx, dx) := (hcontv _).symm.trans hx
    obtain ⟨rfl, rfl⟩ : .error e = rx ∧ d₁ = dx := by simpa using hx'
    have hy' : some (.ok (.error e), d₁) = some (ry, dy) := (hcontx _).symm.trans hy
    obtain ⟨rfl, rfl⟩ : .ok (.error e) = ry ∧ d₁ = dy := by simpa using hy'
    have hlast := (hconty _).symm.trans hrun'
    cases resty with
    | nil => cases hlast
    | cons fault more =>
      have hend : some (.error e, (fileSystem.answer (.removeDirAll (proc.locate stagingPath)) d₁ fault).2) =
          some (r, d') := hlast
      obtain ⟨rfl, rfl⟩ : .error e = r ∧ _ = d' := by simpa using hend
      refine ⟨rfl, fun x hx => ?_⟩
      rw [Disk.answer_get ((quiet_below (prefix_refl _)).2.2 x fun hs => hapart.not_both hs hx), hframe x hx]

/-- **What a success wrote is listed and verified.** -/
theorem installed_of_careful (hcareful : Careful proc stagingPath home (listing libs archive))
    (lockHeld force : Bool) :
    Succeeds fileSystem (restoreBackup libs proc lockHeld archive stagingPath home force)
      (fun _ d' => ∃ manifest, manifestIn libs archive = some manifest ∧
        ∀ x bytes, ¬ proc.locate stagingPath <+: x → d'.get x = some (.file bytes) →
          (d.get x = some (.file bytes) ∧ ¬ places home manifest.files x) ∨
            Installed libs home manifest.files x bytes) d := by
  unfold restoreBackup
  refine Succeeds.bind ((stages_prepare lockHeld force).succeeds.mono fun _ d₁ hprepared => ?_)
  have hbody : Succeeds fileSystem (do
      let manifest ← verified libs (proc.locate stagingPath) (proc.supercliHome stagingPath) archive
      installAll proc (proc.locate stagingPath) home manifest : Restoring RestoreReport)
      (fun _ d' => ∃ manifest, manifestIn libs archive = some manifest ∧
        ∀ x bytes, ¬ proc.locate stagingPath <+: x → d'.get x = some (.file bytes) →
          (d.get x = some (.file bytes) ∧ ¬ places home manifest.files x) ∨
            Installed libs home manifest.files x bytes) d₁ := by
    refine Succeeds.bind ((stages_verified _ archive).succeeds.mono ?_)
    rintro manifest d₂ ⟨hquiet, hmanifest, hchecked⟩
    have hlisting : listing libs archive = manifest.files.map (·.path) := by simp [listing, hmanifest]
    refine (succeeds_installAll hcareful.apart proc (hchecked.sound (hlisting ▸ hcareful))).mono fun _ d₃ hinstall => ?_
    refine ⟨manifest, hmanifest, fun x bytes hx hget => (hinstall x hx bytes hget).imp (fun h => ⟨?_, h.2⟩) id⟩
    exact hprepared.1 x hx bytes (hquiet x hx bytes h.1)
  refine Succeeds.bind (Succeeds.lift (Prog.Ensures.mono hbody fun r d₂ hr => ?_))
  refine Succeeds.bind (Succeeds.lift fun fault => Prog.ensures_ret.mpr ?_)
  cases r with
  | error => exact Succeeds.throw
  | ok report =>
    obtain ⟨manifest, hmanifest, hfiles⟩ := hr report rfl
    refine Succeeds.pure ⟨manifest, hmanifest, fun x bytes hx hget => hfiles x bytes hx ?_⟩
    rwa [Disk.answer_get ((quiet_below (prefix_refl _)).2.2 x hx)] at hget


end Enough

/-! ## The condition is necessary -/

/-- A listing some archive of which can be installed: its paths can be placed, none is a temporary name, the manifest's name
    or in the way of a chain that is looked at, and there are manifests of short files with them. -/
structure Installable (libs : RestoreLibs) (proc : Process) (stagingPath : RawPath) (home : Location) (paths : List Text) :
    Prop where
  place : Placeable paths
  names : ∀ p ∈ paths, partsText p ≠ [manifestName]
  temps : TempsApart proc.pid proc.counter home paths
  logs : ∀ q ∈ paths, ∀ id, namesLog id q = true → ∀ p ∈ paths,
    (checkedLog [] id <+: partsText p ∨ partsText p <+: checkedLog [] id) → checkedLog [] id = partsText p
  audit : ∀ p ∈ paths, [auditFile] <+: partsText p →
    ¬ proc.supercliHome stagingPath ++ [auditFile] <+: proc.locate stagingPath ∧
    ¬ proc.supercliHome stagingPath ++ [auditFile] <+: home ∧
    ∀ q ∈ paths, (proc.supercliHome stagingPath ++ [auditFile] <+: proc.locate stagingPath ++ partsText q ∨
        proc.locate stagingPath ++ partsText q <+: proc.supercliHome stagingPath ++ [auditFile]) →
      proc.supercliHome stagingPath ++ [auditFile] = proc.locate stagingPath ++ partsText q
  manifest : ∀ files : List (Text × Bytes), files.map (·.1) = paths → (∀ f ∈ files, f.2.length ≤ 1) →
    ∃ bytes m, bytes.length ≤ maxRestoreFileBytes ∧ libs.parseManifest bytes = .ok m ∧
      m.formatVersion = backupFormatVersion ∧ m.files = files.map (manifestEntry libs)

section Necessary

variable {libs : RestoreLibs} {proc : Process} {stagingPath : RawPath} {home : Location} {paths : List Text}

/-- Nothing on the disk. -/
def emptyDisk : Disk := ⟨[]⟩

theorem get_emptyDisk (hx : x ≠ []) : emptyDisk.get x = none := by
  simp [emptyDisk, Disk.get, hx]

theorem isFile_emptyDisk : emptyDisk.isFile x = false := by
  by_cases hx : x = []
  · simp [hx, Disk.isFile, Disk.get]
  · simp [Disk.isFile, get_emptyDisk hx]

theorem Apart.ne_nil (hapart : Apart staging home) : staging ≠ [] ∧ home ≠ [] := by
  refine ⟨?_, ?_⟩
  · rintro rfl
    exact hapart.1 nil_prefix
  · rintro rfl
    exact hapart.2 nil_prefix

theorem fresh_emptyDisk (hapart : Apart staging home) : Fresh staging home emptyDisk := by
  have hne : ∀ {r x : Location}, r ≠ [] → r <+: x → x ≠ [] := fun hr hpre hx => hr (prefix_nil.mp (hx ▸ hpre))
  refine ⟨fun x hx => get_emptyDisk (hne hapart.ne_nil.1 hx), fun x hx _ => get_emptyDisk (hne hapart.ne_nil.2 hx), ?_, ?_⟩
  · exact fun x _ => isFile_emptyDisk
  · exact fun x _ => isFile_emptyDisk

section

variable (bad : Text) (paths : List Text)

/-- The files of a listing, one of them not even text. -/
def badFiles : List (Text × Bytes) :=
  paths.map fun p => (p, if p = bad then [255] else [])

theorem map_badFiles : (badFiles bad paths).map (·.1) = paths := by
  rw [badFiles, map_map]
  exact (map_congr_left fun _ _ => rfl).trans (map_id _)

theorem length_badFiles_le : ∀ f ∈ badFiles bad paths, f.2.length ≤ 1 := by
  intro f hf
  obtain ⟨p, -, rfl⟩ := mem_map.mp hf
  dsimp only
  split <;> decide

end

theorem map_path_manifestEntry {m : BackupManifest} {files : List (Text × Bytes)}
    (h : m.files = files.map (manifestEntry libs)) : m.files.map (·.path) = files.map (·.1) := by
  rw [h, map_map]
  exact map_congr_left fun _ _ => rfl

/-- What is at the place of a chain that is looked at: a file of the listing, or nothing at all. -/
theorem read_of_apart (hl : l ≠ []) (h : Holds emptyDisk [staging, home] (filesAt staging files) d)
    (hroots : ¬ l <+: staging ∧ ¬ l <+: home)
    (hcomp : ∀ f ∈ files, (l <+: staging ++ partsText f.1 ∨ staging ++ partsText f.1 <+: l) → l = staging ++ partsText f.1) :
    d.read l = .error .notFound ∨ ∃ f ∈ files, l = staging ++ partsText f.1 ∧ d.get l = some (.file f.2) := by
  have hfile : ∀ x bytes, d.get x = some (.file bytes) → ∃ f ∈ files, x = staging ++ partsText f.1 ∧ bytes = f.2 := by
    intro x bytes hget
    by_cases hx : ∃ r ∈ [staging, home], r <+: x
    · obtain ⟨f, hf, heq⟩ := mem_map.mp ((h.files x bytes hx).mp hget)
      exact ⟨f, hf, (Prod.mk.inj heq).1.symm, (Prod.mk.inj heq).2.symm⟩
    · rcases h.outside x fun r hr hpre => hx ⟨r, hr, hpre⟩ with hsame | ⟨hdir, -⟩
      · exact absurd (hsame.symm.trans hget) (isFile_eq_false.mp isFile_emptyDisk bytes)
      · rw [hdir] at hget
        cases hget
  cases hget : d.get l with
  | some node =>
    cases node with
    | file bytes =>
      obtain ⟨f, hf, heq, rfl⟩ := hfile l bytes hget
      exact .inr ⟨f, hf, heq, rfl⟩
    | dir =>
      -- a directory would be above a root or above a file of the listing
      exfalso
      by_cases hx : ∃ r ∈ [staging, home], r <+: l
      · rcases h.dirs l hx hget with hroot | ⟨e, he, hpre⟩
        · rcases mem_pair.mp hroot with rfl | rfl
          · exact hroots.1 (prefix_refl _)
          · exact hroots.2 (prefix_refl _)
        · obtain ⟨f, hf, rfl⟩ := mem_map.mp he
          have heq := hcomp f hf (.inl (hpre.trans ( dropLast_prefix _)))
          exact not_prefix_dropLast hl (heq ▸ hpre)
      · rcases h.outside l fun r hr hpre => hx ⟨r, hr, hpre⟩ with hsame | ⟨-, r, hr, hpre⟩
        · rw [hsame, get_emptyDisk hl] at hget
          cases hget
        · rcases mem_pair.mp hr with rfl | rfl
          · exact hroots.1 hpre
          · exact hroots.2 hpre
  | none =>
    refine .inl ?_
    have hnofile : l.inits.any d.isFile = false := by
      simp only [any_eq_false, Bool.not_eq_true]
      intro x hx
      refine isFile_eq_false.mpr fun bytes hx' => ?_
      obtain ⟨f, hf, heq, -⟩ := hfile x bytes hx'
      have hpre := (mem_inits x l).mp hx
      have hsame := hcomp f hf (.inr (heq ▸ hpre))
      rw [hsame, ← heq, hx'] at hget
      cases hget
    rw [Disk.read, hget]
    simp [hnofile]

theorem manifestAmong_archiveOf {files : List (Text × Bytes)} (hplace : Placeable paths)
    (hpaths : ∀ f ∈ files, f.1 ∈ paths) (hnames : ∀ f ∈ files, partsText f.1 ≠ [manifestName])
    (hsizes : ∀ f ∈ files, f.2.length ≤ maxRestoreFileBytes) (hparse : libs.parseManifest bytes = .ok m)
    (hmsize : bytes.length ≤ maxRestoreFileBytes) :
    manifestAmong libs (files.map fileItem ++ manifestItem bytes :: rest) = some m := by
  induction files with
  | nil => simp [manifestAmong, readEntry_manifestItem hparse hmsize]
  | cons f files ih =>
    have hread : readEntry libs false (fileItem f) = .ok (.staged (slashed (partsText f.1)) f.2 none) :=
      readEntry_fileItem hplace (hpaths f mem_cons_self) (hnames f mem_cons_self) (hsizes f mem_cons_self) _
    rw [map_cons, cons_append]
    unfold manifestAmong
    rw [hread]
    exact ih (fun g hg => hpaths g (mem_cons_of_mem _ hg)) (fun g hg => hnames g (mem_cons_of_mem _ hg))
      (fun g hg => hsizes g (mem_cons_of_mem _ hg))

/-- **A restore that installs a file that is not even text**, if no chain that is looked at is at its place. -/
theorem bad_restore (hinst : Installable libs proc stagingPath home paths) (hapart : Apart (proc.locate stagingPath) home)
    {bad : Text} (hbad : bad ∈ paths)
    (hlogs : ∀ q ∈ paths, ∀ id, namesLog id q = true → checkedLog [] id ≠ partsText bad)
    (haudit : proc.supercliHome stagingPath ++ [auditFile] ≠ proc.locate stagingPath ++ partsText bad) :
    ∃ archive es report d', listing libs archive = paths ∧
      (restoreBackup libs proc false archive stagingPath home false).run.exec fileSystem emptyDisk es = some (.ok report, d') ∧
      d'.get (home ++ partsText bad) = some (.file [255]) := by
  set staging := proc.locate stagingPath
  have hmap := map_badFiles bad paths
  have hplace : Placeable ((badFiles bad paths).map (·.1)) := hmap.symm ▸ hinst.place
  have hmem : ∀ f ∈ badFiles bad paths, f.1 ∈ paths ∧ f.2 = if f.1 = bad then [255] else [] := by
    intro f hf
    obtain ⟨p, hp, rfl⟩ := mem_map.mp hf
    exact ⟨hp, rfl⟩
  have hshort := length_badFiles_le bad paths
  have hsmall : ∀ f ∈ badFiles bad paths, f.2.length ≤ maxRestoreFileBytes := fun f hf => (hshort f hf).trans (by decide)
  have hnames : ∀ f ∈ badFiles bad paths, partsText f.1 ≠ [manifestName] := fun f hf => hinst.names f.1 (hmem f hf).1
  obtain ⟨bytes, m, hbytes, hparse, hversion, hmfiles⟩ := hinst.manifest _ hmap hshort
  have hmpaths : m.files.map (·.path) = paths := (map_path_manifestEntry hmfiles).trans hmap
  have hchained : ∀ id ∈ chainedIds m.files, ∃ q ∈ paths, namesLog id q = true := by
    intro id hid
    obtain ⟨entry, hentry, hnames⟩ := mem_chainedIds.mp hid
    exact ⟨entry.path, hmpaths ▸ mem_map_of_mem hentry, hnames⟩
  -- the review logs that are looked at are empty, or not there
  have hfine : ∀ d, Holds emptyDisk [staging, home] (filesAt staging (badFiles bad paths)) d →
      ∀ id ∈ chainedIds m.files, LogFine libs d (checkedLog staging id) := by
    intro d hholds id hid
    obtain ⟨q, hq, hq'⟩ := hchained id hid
    have hlog := checkedLog_eq (slash_not_mem_of_namesLog hq') staging
    have hne : checkedLog [] id ≠ [] := by simp [checkedLog]
    have hroots : ¬ checkedLog staging id <+: staging ∧ ¬ checkedLog staging id <+: home := by
      rw [hlog]
      refine ⟨fun hpre => ?_, fun hpre => hapart.1 ((prefix_append _ _).trans hpre)⟩
      have hlen := hpre.length_le
      rw [length_append] at hlen
      have hpos := length_pos_iff.mpr hne
      omega
    have hcomp : ∀ f ∈ badFiles bad paths,
        (checkedLog staging id <+: staging ++ partsText f.1 ∨ staging ++ partsText f.1 <+: checkedLog staging id) →
        checkedLog staging id = staging ++ partsText f.1 := by
      intro f hf hcomp
      rw [hlog, prefix_append_right_inj, prefix_append_right_inj] at hcomp
      rw [hlog, hinst.logs q hq id hq' f.1 (hmem f hf).1 hcomp]
    rcases read_of_apart (by simp [checkedLog]) hholds hroots hcomp with hnone | ⟨f, hf, hsame, hget⟩
    · exact .inl hnone
    · rw [hlog, append_cancel_left_eq] at hsame
      have hgood : f.1 ≠ bad := fun heq => hlogs q hq id hq' (heq ▸ hsame)
      rw [(hmem f hf).2, if_neg hgood] at hget
      exact .inr ⟨[], 0, hget, rfl⟩
  -- so is the audit, if one is staged
  have hfine' : ∀ d, Holds emptyDisk [staging, home] (filesAt staging (badFiles bad paths)) d →
      (d.get (staging ++ [auditFile])).isSome → AuditFine libs d (proc.supercliHome stagingPath ++ [auditFile]) := by
    intro d hholds hthere
    have hlisted : ∃ p ∈ paths, [auditFile] <+: partsText p := by
      have hbelow : ∃ r ∈ [staging, home], r <+: staging ++ [auditFile] := ⟨_, mem_cons_self, prefix_append _ _⟩
      have hfrom : ∃ e ∈ filesAt staging (badFiles bad paths), staging ++ [auditFile] <+: e.1 := by
        cases hget : d.get (staging ++ [auditFile]) with
        | none => simp [hget] at hthere
        | some node =>
          cases node with
          | file => exact ⟨_, (hholds.files _ _ hbelow).mp hget, prefix_refl _⟩
          | dir =>
            rcases hholds.dirs _ hbelow hget with hroot | ⟨e, he, hpre⟩
            · rcases mem_pair.mp hroot with hroot | hroot
              · have hlen := congrArg length hroot
                simp at hlen
              · exact absurd (hroot ▸ prefix_append _ _) hapart.1
            · exact ⟨e, he, hpre.trans ( dropLast_prefix _)⟩
      obtain ⟨e, he, hpre⟩ := hfrom
      obtain ⟨f, hf, rfl⟩ := mem_map.mp he
      exact ⟨f.1, (hmem f hf).1, (prefix_append_right_inj _).mp hpre⟩
    obtain ⟨p, hp, hpaudit⟩ := hlisted
    obtain ⟨hstaging, hhome, hcomp⟩ := hinst.audit p hp hpaudit
    rcases read_of_apart (by simp) hholds ⟨hstaging, hhome⟩ (fun f hf => hcomp f.1 (hmem f hf).1) with
      hnone | ⟨f, hf, hsame, hget⟩
    · exact .inl hnone
    · have hgood : f.1 ≠ bad := fun heq => haudit (heq ▸ hsame)
      rw [(hmem f hf).2, if_neg hgood] at hget
      exact .inr ⟨[], 0, hget, rfl⟩
  obtain ⟨report, d', hcalm, hfiles, -⟩ := calm_restoreBackup rfl hapart (fresh_emptyDisk hapart) hplace hnames
    hsmall (hmap.symm ▸ hinst.temps) hparse hbytes hversion hmfiles hfine hfine' false
  obtain ⟨es, hexec⟩ := hcalm.exec
  refine ⟨archiveOf (badFiles bad paths) bytes, es, report, d', ?_, hexec, ?_⟩
  · have hfound : manifestIn libs (archiveOf (badFiles bad paths) bytes) = some m :=
      manifestAmong_archiveOf hinst.place (fun f hf => (hmem f hf).1) hnames hsmall hparse hbytes
    rw [listing, hfound]
    exact hmpaths
  · refine (hfiles _ _ (prefix_append _ _)).mpr (mem_map.mpr ⟨(bad, [255]), ?_, rfl⟩)
    exact mem_map.mpr ⟨bad, hbad, by simp⟩

theorem Installable.exists_manifest (hinst : Installable libs proc stagingPath home paths) :
    ∃ (m : BackupManifest) (bytes : Bytes), m.files.map (·.path) = paths ∧ bytes.length ≤ maxRestoreFileBytes ∧
      libs.parseManifest bytes = .ok m := by
  have hmap := map_badFiles [] paths
  obtain ⟨bytes, m, hbytes, hparse, -, hmfiles⟩ := hinst.manifest _ hmap (length_badFiles_le [] paths)
  exact ⟨m, bytes, (map_path_manifestEntry hmfiles).trans hmap, hbytes, hparse⟩

/-- A disk with one file, and the directories above it. -/
def oneFile (l : Location) : Disk := (emptyDisk.addDirs l).set (l ++ [['x']]) (.file [])

theorem get_oneFile :
    (oneFile l).get x = if x = l ++ [['x']] then some (.file []) else if x <+: l then some .dir else emptyDisk.get x := by
  rw [oneFile, Disk.get_set (by simp), Disk.get_addDirs]

theorem get_oneFile_above (hx : x <+: l) : (oneFile l).get x = some .dir := by
  have hne : x ≠ l ++ [['x']] := by
    rintro rfl
    have hlen := hx.length_le
    rw [length_append, length_singleton] at hlen
    omega
  rw [get_oneFile, if_neg hne, if_pos hx]

/-- **A restore that fails and takes a file of the home with it**, if the staging directory and the home share one. -/
theorem lost_home (hinst : Installable libs proc stagingPath home paths) (hnot : ¬ Apart (proc.locate stagingPath) home) :
    ∃ archive d, listing libs archive = paths ∧ ¬ RestoresVerified libs proc archive stagingPath home d := by
  obtain ⟨m, bytes, hpaths, hbytes, hparse⟩ := hinst.exists_manifest
  obtain ⟨l, hstaging, hhome⟩ : ∃ l, proc.locate stagingPath <+: l ∧ home <+: l := by
    by_cases hpre : proc.locate stagingPath <+: home
    · exact ⟨home, hpre, prefix_refl _⟩
    · exact ⟨proc.locate stagingPath, prefix_refl _, not_not.mp fun h => hnot ⟨hpre, h⟩⟩
  generalize hloc : proc.locate stagingPath = staging at hstaging
  let archive : Archive := .entries [manifestItem bytes, .error "cut off"]
  let d₁ := ((oneFile l).removeTree staging).addDirs staging
  have hprepare : Calm (prepare false true staging home) (oneFile l) () d₁ := by
    have hthere : (oneFile l).get staging = some .dir := get_oneFile_above hstaging
    have hremove : Calm (orFail (removeDirAll staging) .io) (oneFile l) () ((oneFile l).removeTree staging) := by
      refine calm_orFail ?_
      change (oneFile l).act (.removeDirAll staging) = _
      simp only [Disk.act, hthere]
      rfl
    have hcreate : Calm (orFail (createDirAll staging) .io) ((oneFile l).removeTree staging) () d₁ := by
      refine calm_createDirAll fun x hx => isFile_eq_false.mpr fun b hget => ?_
      rw [Disk.removeTree, Disk.get_patch] at hget
      split at hget
      · exact isFile_eq_false.mp isFile_emptyDisk b hget
      · rw [get_oneFile_above (hx.trans hstaging)] at hget
        cases hget
    refine (calm_lift always_existsAt).bind ?_
    rw [hthere]
    exact hremove.bind hcreate
  obtain ⟨e, hextract⟩ : ∃ e, (extractArchive libs staging archive).run = .ret (.error e) := by
    simp only [archive, extractArchive, extractEntries, Option.isSome_none, readEntry_manifestItem hparse hbytes]
    exact ⟨_, rfl⟩
  have hverified : (verified libs staging (proc.supercliHome stagingPath) archive).run.always fileSystem none d₁ =
      (.error e, d₁) := by
    refine always_bind_error ?_
    rw [hextract]
    rfl
  have hchecks : (restoreChecks libs proc false archive stagingPath home true).run.always fileSystem none (oneFile l) =
      (.error e, d₁) := by
    unfold restoreChecks
    rw [hloc]
    exact hprepare.goesOn hverified
  have hrestore : (restoreBackup libs proc false archive stagingPath home true).run.always fileSystem none (oneFile l) =
      (.error e, d₁.removeTree staging) := by
    have hdir : d₁.get staging = some .dir := by rw [Disk.get_addDirs, if_pos (prefix_refl _)]
    have hremove : (removeDirAll staging).always fileSystem none d₁ = (.ok (), d₁.removeTree staging) := by
      change d₁.act (.removeDirAll staging) = _
      simp only [Disk.act, hdir]
      rfl
    unfold restoreBackup
    rw [hloc]
    exact hprepare.goesOn ((calm_lift (always_bind_error hverified)).goesOn ((calm_lift hremove).goesOn rfl))
  -- both runs, of one environment
  obtain ⟨n, hn⟩ := Prog.exec_always fileSystem none (restoreChecks libs proc false archive stagingPath home true).run (oneFile l)
  obtain ⟨k, hk⟩ := Prog.exec_always fileSystem none (restoreBackup libs proc false archive stagingPath home true).run (oneFile l)
  have hn' := Prog.exec_append hn (replicate k none)
  have hk' := Prog.exec_append hk (replicate n none)
  rw [replicate_append_replicate, hchecks] at hn'
  rw [replicate_append_replicate, Nat.add_comm, hrestore] at hk'
  refine ⟨archive, oneFile l, ?_, fun hverifies => ?_⟩
  · have hfound : manifestIn libs archive = some m := by
      simp only [archive, manifestIn, manifestAmong, readEntry_manifestItem hparse hbytes]
    rw [listing, hfound]
    exact hpaths
  · have hkept := (hverifies.untouched false true _ _ _ _ _ hn' hk').2 (l ++ [['x']]) (hhome.trans (prefix_append _ _))
    have hgone : (d₁.removeTree staging).get (l ++ [['x']]) = none := by
      rw [Disk.removeTree, Disk.get_patch, if_pos (by simpa using hstaging.trans (prefix_append _ _))]
      exact get_emptyDisk (by simp)
    rw [hgone, get_oneFile, if_pos rfl] at hkept
    cases hkept

theorem not_verifyReviewBytes {libs : ChainLibs} (label : String) {n : Nat} : verifyReviewBytes libs [255] label ≠ .ok n := by
  have hlines : byteLines [255] = [none] := by decide
  rw [verifyReviewBytes, hlines]
  exact nofun

theorem not_verifyGrantAudit {libs : AuditLibs} : verifyGrantAudit libs [255] ≠ .ok n := by
  have hdecode : decodeUtf8 [255] = none := by decide
  rw [verifyGrantAudit, hdecode]
  exact nofun

/-- The id of a log that is looked for is its directory's name. -/
theorem eq_of_checkedLog (hid : '/' ∉ id') (h : checkedLog [] id' = [sessionsDir, id, reviewsFile]) : id' = id := by
  have hdir : join [] sessionsDir = [sessionsDir] := rfl
  unfold checkedLog at h
  rw [hdir, join_piece hid] at h
  have henter : enter [sessionsDir] id' = [sessionsDir, id] :=
    append_cancel_right (h.trans (append_assoc [sessionsDir] [id] [reviewsFile]).symm)
  unfold enter at henter
  split at henter
  · simp at henter
  · split at henter
    · simp at henter
    · simpa using henter

/-- What a restore of some archive with the listing installs at the place of `bad` cannot be a verified file. -/
theorem Installable.verifies (hinst : Installable libs proc stagingPath home paths)
    (hapart : Apart (proc.locate stagingPath) home)
    (hall : ∀ archive, listing libs archive = paths → ∀ d, RestoresVerified libs proc archive stagingPath home d)
    (hbad : bad ∈ paths) (hlogs : ∀ q ∈ paths, ∀ id, namesLog id q = true → checkedLog [] id ≠ partsText bad)
    (haudit : proc.supercliHome stagingPath ++ [auditFile] ≠ proc.locate stagingPath ++ partsText bad) :
    (∀ id, partsText bad ≠ [sessionsDir, id, reviewsFile]) ∧ partsText bad ≠ [auditFile] := by
  obtain ⟨archive, es, report, d', hlist, hexec, hget⟩ := bad_restore hinst hapart hbad hlogs haudit
  obtain ⟨manifest, -, hfiles⟩ := (hall archive hlist emptyDisk).installed _ _ _ _ _ hexec
  have hout : ¬ proc.locate stagingPath <+: home ++ partsText bad := fun h => hapart.not_both h (prefix_append _ _)
  rcases hfiles _ _ hout hget with ⟨hold, -⟩ | ⟨entry, -, parts, -, hx, -, -, hlog, haud⟩
  · exact absurd hold (isFile_eq_false.mp isFile_emptyDisk _)
  · rw [append_cancel_left_eq] at hx
    refine ⟨fun id hid => ?_, fun hid => ?_⟩
    · obtain ⟨n, hn⟩ := hlog id (hx.symm.trans hid) ""
      exact not_verifyReviewBytes _ hn
    · obtain ⟨n, hn⟩ := haud (hx.symm.trans hid)
      exact not_verifyGrantAudit hn

/-- **If no archive with the listing can do harm, the condition holds.** -/
theorem Installable.careful (hinst : Installable libs proc stagingPath home paths)
    (hall : ∀ archive, listing libs archive = paths → ∀ d, RestoresVerified libs proc archive stagingPath home d) :
    Careful proc stagingPath home paths := by
  have hapart : Apart (proc.locate stagingPath) home := by
    by_contra hnot
    obtain ⟨archive, d, hlist, hbad⟩ := lost_home hinst hnot
    exact hbad (hall archive hlist d)
  have hends : auditFile ≠ reviewsFile := by decide
  refine ⟨hapart, fun p hp id hparts => ?_, ?_⟩
  · have htext : partsText p = [sessionsDir, id, reviewsFile] := Option.some.inj ((hinst.place.parts hp).symm.trans hparts)
    by_contra hnot
    refine (hinst.verifies hapart hall hp ?_ ?_).1 id htext
    · intro q hq id' hnames heq
      obtain rfl := eq_of_checkedLog (slash_not_mem_of_namesLog hnames) (heq.trans htext)
      exact hnot ⟨q, hq, hnames⟩
    · intro heq
      have hlast := congrArg getLast? heq
      simp [htext, hends] at hlast
  · rintro ⟨p, hp, hparts⟩
    have htext : partsText p = [auditFile] := Option.some.inj ((hinst.place.parts hp).symm.trans hparts)
    by_contra hnot
    refine (hinst.verifies hapart hall hp ?_ ?_).2 htext
    · intro q hq id' hnames heq
      have hlast := congrArg getLast? (heq.trans htext)
      simp [checkedLog, hends.symm] at hlast
    · intro heq
      rw [htext, append_cancel_right_eq] at heq
      exact hnot heq

end Necessary

/-! ## The result -/

/-- A process at the root directory. -/
def plainProcess : Process where
  locate path := (path.display.splitOn '/').foldl enter []
  realHome := ["root".toList]
  pid := 7
  counter := 0

/-- Libraries for a listing of one path: the manifest of a file is the file. -/
def plainLibs (path : Text) : RestoreLibs where
  sha256 bytes := String.ofList (bytes.map fun b => Char.ofNat b.toNat)
  parseJson _ := .error "expected value"
  parseAudit _ := .error "expected value"
  parseManifest bytes := .ok ⟨backupFormatVersion, 0, "0.1.0",
    [⟨path, String.ofList (bytes.map fun b => Char.ofNat b.toNat), bytes.length⟩]⟩

/-- A review log, spelled with a separator twice. -/
def doubled : Text := "app-sessions//s1/action-reviews.jsonl".toList

theorem eq_nil_of_namesLog_doubled (h : namesLog id doubled = true) : id = [] := by
  have hrest : sessionRest doubled = some "/s1/action-reviews.jsonl".toList := by decide
  have hfirst : firstPiece "/s1/action-reviews.jsonl".toList = [] := by decide
  simp only [namesLog, hrest, Bool.and_eq_true, decide_eq_true_eq] at h
  exact h.1.symm.trans hfirst

theorem installable_doubled :
    Installable (plainLibs doubled) plainProcess (.ofText "/b.staging".toList) ["home".toList] [doubled] := by
  have hparts : partsText doubled = [sessionsDir, "s1".toList, reviewsFile] := by decide
  refine ⟨⟨?_, by simp⟩, ?_, ?_, ?_, ?_, ?_⟩
  · simp only [mem_singleton, forall_eq]
    decide
  · simp only [mem_singleton, forall_eq, hparts]
    decide
  · intro k p hp q hq
    obtain rfl := mem_singleton.mp hq
    cases k with
    | zero =>
      obtain rfl : doubled = p := by simpa using hp
      rw [hparts]
      decide
    | succ => simp at hp
  · intro q hq id hnames p hp
    obtain rfl := mem_singleton.mp hq
    obtain rfl := mem_singleton.mp hp
    obtain rfl := eq_nil_of_namesLog_doubled hnames
    rw [hparts]
    decide
  · intro p hp haudit
    obtain rfl := mem_singleton.mp hp
    rw [hparts] at haudit
    revert haudit
    decide
  · intro files hfiles hshort
    obtain ⟨⟨p, bytes⟩, rfl, hp⟩ := map_eq_singleton_iff.mp hfiles
    obtain rfl : p = doubled := hp
    exact ⟨bytes, _, (hshort _ mem_cons_self).trans (by decide), rfl, rfl, rfl⟩

end Supercli.Backup
