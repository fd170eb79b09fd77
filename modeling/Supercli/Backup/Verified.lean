import Supercli.Backup.Restore

/-!
# `Backup.Verified` — what a restore leaves behind

Up to the first installed byte a restore works below its staging directory only (`Stages`), so a restore that fails
in extraction or verification leaves the home as it was. What verification says about the staged files (`Checked`) still
holds when they are copied, since installing touches nothing in the staging directory. So what is installed is what was
checked, if the staging directory and the home are apart. But the review logs that are checked are found by the spelling of
the manifest's paths and the audit by the text of the staging path: both have to lead to the files that are installed.
-/

namespace Supercli.Backup

open Option List Prog.Ensures Disk

/-! ## Operations that succeed -/

section Operations

variable {d : Disk}

theorem succeeds_orFail (h : p.Ensures fileSystem (fun r d => ∀ a, r = .ok a → Q a d) d) :
    Succeeds fileSystem (orFail p wrap) Q d := by
  refine bind (h.mono ?_)
  intro r d hr
  cases r with
  | ok a =>
    rintro b ⟨⟩
    exact hr a rfl
  | error => exact nofun

variable (l : Location)

theorem ensures_createDirAll : (createDirAll l).Ensures fileSystem (fun r d' => r = .ok () → d' = d.addDirs l) d := by
  intro e
  cases e with
  | some => rintro ⟨⟩
  | none =>
    simp only [fileSystem, act]
    split
    · rintro ⟨⟩
    · exact fun _ => rfl

theorem place_ok {l : Location} {bytes : Bytes} (h : (d.place l bytes).1 = .ok ()) :
    l ≠ [] ∧ (d.place l bytes).2 = d.set l (.file bytes) := by
  unfold place at h ⊢
  cases hw : d.writable l with
  | some => simp [hw] at h
  | none =>
    refine ⟨?_, rfl⟩
    rintro rfl
    simp [Disk.writable, Disk.get] at hw

theorem ensures_copyFile (src dst : Location) : (copyFile src dst).Ensures fileSystem
      (fun r d' => r = .ok () → dst ≠ [] ∧ ∃ bytes, d.get src = some (.file bytes) ∧ d' = d.set dst (.file bytes)) d := by
  intro e
  cases e with
  | some => rintro ⟨⟩
  | none =>
    simp only [fileSystem, act]
    cases hsrc : d.get src with
    | none => rintro ⟨⟩
    | some node =>
      cases node with
      | dir => rintro ⟨⟩
      | file bytes =>
        intro h
        exact ⟨(place_ok h).1, bytes, rfl, (place_ok h).2⟩

theorem ensures_setMode : (setMode l).Ensures fileSystem (fun _ d' => d' = d) d := by
  intro e
  cases e with
  | some left => exact patch_false
  | none => exact rfl

theorem ensures_renameFile (src dst : Location) : (renameFile src dst).Ensures fileSystem
      (fun r d' => r = .ok () → dst ≠ [] ∧ ∃ bytes, d.get src = some (.file bytes) ∧
        d' = (d.removeTree src).set dst (.file bytes)) d := by
  intro e
  cases e with
  | some => rintro ⟨⟩
  | none =>
    simp only [fileSystem, act]
    cases hsrc : d.get src with
    | none => rintro ⟨⟩
    | some node =>
      cases node with
      | dir => rintro ⟨⟩
      | file bytes =>
        cases hw : d.writable dst with
        | some => rintro ⟨⟩
        | none =>
          refine fun _ => ⟨?_, bytes, rfl, rfl⟩
          rintro rfl
          simp [Disk.writable, Disk.get] at hw

theorem ensures_readFile : (readFile l).Ensures fileSystem
      (fun r d' => d' = d ∧ (∀ bytes, r = .ok bytes → d.get l = some (.file bytes)) ∧
        (r = .error .notFound → d.get l = none)) d := by
  intro e
  refine ⟨answer_read, ?_⟩
  cases e with
  | some => exact ⟨by rintro _ ⟨⟩, by rintro ⟨⟩⟩
  | none =>
    simp only [fileSystem, Disk.act, Disk.read]
    cases hget : d.get l with
    | none =>
      refine ⟨fun bytes h => ?_, fun _ => rfl⟩
      dsimp only at h
      split at h
      · cases h
      · cases h
    | some node =>
      cases node with
      | dir => exact ⟨by rintro _ ⟨⟩, by rintro ⟨⟩⟩
      | file =>
        refine ⟨fun bytes h => ?_, by rintro ⟨⟩⟩
        rw [Except.ok.inj h]

theorem ensures_existsAt : (existsAt l).Ensures fileSystem (fun r d' => d' = d ∧ r = (d.get l).isSome) d := by
  intro e
  rw [answer_existsAt]
  exact ⟨rfl, rfl⟩

end Operations

/-! ## What verification establishes -/

section Verification

variable (libs : RestoreLibs) (staging : Location)

/-- The file of a manifest entry is staged as it is listed. -/
def Listed (d : Disk) (entry : ManifestEntry) : Prop :=
  ∃ parts bytes, partsOf (.ofText entry.path) = some parts ∧ d.get (staging ++ parts) = some (.file bytes) ∧
    bytes.length = entry.sizeBytes ∧ libs.sha256 bytes = entry.sha256

/-- The Sessions whose review log is looked for. -/
def chainedIds (files : List ManifestEntry) : List Text := (collectSessions files ([], [])).2

/-- Where it is looked for. -/
def checkedLog (id : Text) : Location := join (join staging sessionsDir) id ++ [reviewsFile]

/-- What a restore knows of the staged files when it starts to install. -/
structure Checked (auditHome : Location) (manifest : BackupManifest) (d : Disk) : Prop where
  listed : ∀ entry ∈ manifest.files, Listed libs staging d entry
  chains : ∀ id ∈ chainedIds manifest.files, ∀ bytes, d.get (checkedLog staging id) = some (.file bytes) →
    ∃ n, verifyReviewBytes libs.chain bytes (showLocation (checkedLog staging id)) = .ok n
  audit : (d.get (staging ++ [auditFile])).isSome → ∀ bytes, d.get (auditHome ++ [auditFile]) = some (.file bytes) →
    ∃ n, verifyGrantAudit libs.audit bytes = .ok n

variable {libs staging} {d : Disk}

/-- The program looks at the disk and changes nothing, and if it succeeds, then with `Q`. -/
def Looks {α : Type} (p : Restoring α) (Q : α → Prop) (d : Disk) : Prop :=
  Prog.Ensures fileSystem p.run (fun r d' => d' = d ∧ ∀ a, r = .ok a → Q a) d

section Looks

variable {α β : Type} {p : Restoring α} {f : α → Restoring β} {Q Q' : α → Prop} {R : β → Prop}

theorem Looks.pure (h : Q a) : Looks (pure a) Q d :=
  ⟨rfl, fun _ heq => Except.ok.inj heq ▸ h⟩

theorem Looks.throw : Looks (throw e) Q d := ⟨rfl, nofun⟩

theorem Looks.mono (h : Looks p Q d) (hQ : ∀ a, Q a → Q' a) : Looks p Q' d :=
  Prog.Ensures.mono h fun _ _ hr => ⟨hr.1, fun a ha => hQ a (hr.2 a ha)⟩

theorem Looks.bind (hp : Looks p Q d) (hf : ∀ a, Q a → Looks (f a) R d) : Looks (p >>= f) R d := by
  refine Prog.Ensures.bind (Prog.Ensures.mono hp ?_)
  rintro r d' ⟨rfl, hr⟩
  cases r with
  | ok a => exact hf a (hr a rfl)
  | error => exact Looks.throw

theorem Looks.lift {p : Prog Fs α} (h : p.Ensures fileSystem (fun a d' => d' = d ∧ Q a) d) :
    Looks (ExceptT.lift p) Q d := by
  refine Prog.Ensures.bind (h.mono ?_)
  rintro a d' ⟨rfl, hQ⟩
  exact Looks.pure hQ

end Looks

theorem looks_walkFiles :
    Looks (orFail (walkFiles l) wrap) (fun _ => True) d :=
  fun _ => ⟨answer_walk, fun _ _ => trivial⟩

theorem looks_checkListed (files : List ManifestEntry) (seen : List Text) :
    Looks (checkListed libs staging files seen) (fun _ => ∀ entry ∈ files, Listed libs staging d entry) d := by
  induction files generalizing seen with
  | nil => exact Looks.pure nofun
  | cons entry files ih =>
    unfold checkListed
    cases hvalid : validateArchivePath (.ofText entry.path) with
    | error => exact Looks.throw
    | ok rel =>
      dsimp only
      split
      · exact Looks.throw
      · refine Looks.bind (Looks.lift (ensures_readFile (join staging rel))) fun r hread => ?_
        cases r with
        | error => exact Looks.throw
        | ok bytes =>
          dsimp only
          split
          · exact Looks.throw
          · rename_i hsame
            simp only [not_or, not_not] at hsame
            refine (ih (rel :: seen)).mono fun _ hrest => forall_mem_cons.mpr ⟨?_, hrest⟩
            obtain ⟨parts, hparts, hjoin⟩ := join_validateArchivePath hvalid staging
            exact ⟨parts, bytes, hparts, hjoin ▸ hread.1 bytes rfl, hsame.1, hsame.2⟩

theorem looks_verifyStagedManifest : Looks (verifyStagedManifest libs staging manifest)
      (fun _ => ∀ entry ∈ manifest.files, Listed libs staging d entry) d := by
  unfold verifyStagedManifest
  split
  · exact Looks.throw
  · refine Looks.bind (looks_checkListed manifest.files []) fun seen hlisted => ?_
    refine Looks.bind looks_walkFiles fun found _ => ?_
    split
    · exact Looks.throw
    · exact Looks.pure hlisted
    · exact Looks.throw

/-- How a review log and how the audit is checked: a file that is not there is in order. -/
def checkFile {ε : Type} (path : Location) (check : Bytes → Except ε Nat) (fail : String → ε) :
    Prog Fs (Except ε Nat) := do
  match ← readFile path with
  | .ok bytes => pure (check bytes)
  | .error .notFound => pure (.ok 0)
  | .error (.other e) => pure (.error (fail e))

theorem ensures_checkFile {check : Bytes → Except ε Nat} {fail : String → ε} :
    (checkFile path check fail).Ensures fileSystem
      (fun r d' => d' = d ∧ ∀ n, r = .ok n → ∀ bytes, d.get path = some (.file bytes) → ∃ n, check bytes = .ok n) d := by
  refine bind ((ensures_readFile path).mono ?_)
  rintro r d' ⟨rfl, hread, hnone⟩
  cases r with
  | ok found =>
    refine Prog.ensures_ret.mpr ⟨rfl, fun n hn bytes hget => ⟨n, ?_⟩⟩
    obtain rfl : found = bytes := by simpa [hread found rfl] using hget
    exact hn
  | error e =>
    cases e with
    | notFound =>
      refine Prog.ensures_ret.mpr ⟨rfl, fun n _ bytes hget => ?_⟩
      rw [hnone rfl] at hget
      cases hget
    | other => exact Prog.ensures_ret.mpr ⟨rfl, nofun⟩

theorem looks_checkChains : Looks (checkChains libs staging ids)
      (fun _ => ∀ id ∈ ids, ∀ bytes, d.get (checkedLog staging id) = some (.file bytes) →
        ∃ n, verifyReviewBytes libs.chain bytes (showLocation (checkedLog staging id)) = .ok n) d := by
  induction ids with
  | nil => exact Looks.pure nofun
  | cons id ids ih =>
    unfold checkChains
    refine Looks.bind (Looks.lift ensures_checkFile) fun r hchain => ?_
    cases r with
    | error => exact Looks.throw
    | ok n => exact ih.mono fun _ hrest => forall_mem_cons.mpr ⟨hchain n rfl, hrest⟩

theorem looks_checkAudit : Looks (checkAudit libs staging auditHome)
      (fun _ => (d.get (staging ++ [auditFile])).isSome →
        ∀ bytes, d.get (auditHome ++ [auditFile]) = some (.file bytes) →
          ∃ n, verifyGrantAudit libs.audit bytes = .ok n) d := by
  unfold checkAudit
  refine Looks.bind (Looks.lift (ensures_existsAt (staging ++ [auditFile]))) fun there hthere => ?_
  split
  · refine Looks.bind (Looks.lift ensures_checkFile) fun r haudit => ?_
    cases r with
    | error => exact Looks.throw
    | ok n => exact Looks.pure fun _ => haudit n rfl
  · rename_i hnot
    exact Looks.pure fun h => absurd (hthere.trans h) hnot

/-- The manifest of an archive: the first entry that is one. -/
def manifestAmong (libs : RestoreLibs) : List (Except String TarEntry) → Option BackupManifest
  | [] => none
  | item :: rest =>
    match readEntry libs false item with
    | .ok (.manifest m) => some m
    | _ => manifestAmong libs rest

/-- The manifest of an archive that can be read. -/
def manifestIn (libs : RestoreLibs) : Archive → Option BackupManifest
  | .entries items => manifestAmong libs items
  | _ => none

/-- A second manifest is refused. -/
theorem readEntry_true_ne_manifest :
    readEntry libs true item ≠ .ok (.manifest m) := by
  intro h
  unfold readEntry at h
  repeat' split at h
  all_goals simp_all

theorem readEntry_staged (h : readEntry libs have_ item = .ok (.staged rel data readError)) :
    ∃ raw, validateArchivePath raw = .ok rel := by
  unfold readEntry at h
  repeat' split at h
  all_goals first
    | (cases h; done)
    | (obtain ⟨rfl, -, -⟩ := Extracted.staged.inj (Except.ok.inj h); exact ⟨_, by assumption⟩)

end Verification

/-! ## Up to the first installed byte -/

section Staging

variable {libs : RestoreLibs} {staging home : Location} {d : Disk}

/-- Neither directory contains the other. -/
def Apart (staging home : Location) : Prop := ¬ staging <+: home ∧ ¬ home <+: staging

instance (staging home : Location) : Decidable (Apart staging home) := inferInstanceAs (Decidable (_ ∧ _))

theorem Apart.not_both (h : Apart staging home) (hs : staging <+: x) : ¬ home <+: x := by
  intro hh
  rcases prefix_or_prefix_of_prefix hs hh with h' | h'
  · exact h.1 h'
  · exact h.2 h'

/-- Outside of `staging`, what is a file now was the same file before. -/
def Quiet (staging : Location) (d d' : Disk) : Prop :=
  ∀ x, ¬ staging <+: x → ∀ bytes, d'.get x = some (.file bytes) → d.get x = some (.file bytes)

theorem Quiet.trans (h : Quiet staging d₁ d₂) (h' : Quiet staging d₂ d₃) : Quiet staging d₁ d₃ :=
  fun x hx bytes hget => h x hx bytes (h' x hx bytes hget)

theorem Quiet.addDirs : Quiet staging d (d.addDirs l) := by
  intro x _ bytes hget
  rw [get_addDirs] at hget
  split at hget
  · cases hget
  · exact hget

/-- **The program works below the staging directory**: what is neither below nor above that stays, whatever fails, and no
    file appears outside of it if the program succeeds, which it does with `Q`. -/
def Stages {α : Type} (staging : Location) (p : Restoring α) (Q : α → Disk → Prop) (d : Disk) : Prop :=
  Prog.Ensures fileSystem p.run (fun r d' => (∀ x, ¬ staging <+: x → ¬ x <+: staging → d'.get x = d.get x) ∧
    ∀ a, r = .ok a → Quiet staging d d' ∧ Q a d') d

section Stages

variable {α β : Type} {p : Restoring α} {f : α → Restoring β} {Q Q' : α → Disk → Prop} {R : β → Disk → Prop}

theorem Looks.stages (h : Looks p (fun a => Q a d) d) : Stages staging p Q d := by
  refine Prog.Ensures.mono h ?_
  rintro r d' ⟨rfl, hr⟩
  exact ⟨fun _ _ _ => rfl, fun a ha => ⟨fun _ _ _ hget => hget, hr a ha⟩⟩

theorem Stages.mono (h : Stages staging p Q d) (hQ : ∀ a d, Q a d → Q' a d) : Stages staging p Q' d :=
  Prog.Ensures.mono h fun _ d' hr => ⟨hr.1, fun a ha => ⟨(hr.2 a ha).1, hQ a d' (hr.2 a ha).2⟩⟩

theorem Stages.bind (h : Stages staging p (fun a d => Stages staging (f a) R d) d) : Stages staging (p >>= f) R d := by
  refine Prog.Ensures.bind (Prog.Ensures.mono h ?_)
  rintro r d₁ ⟨hsame, hr⟩
  cases r with
  | error => exact ⟨hsame, nofun⟩
  | ok a =>
    obtain ⟨hquiet, hf⟩ := hr a rfl
    refine Prog.Ensures.mono hf ?_
    rintro r' d' ⟨hsame', hr'⟩
    refine ⟨fun x hx hx' => (hsame' x hx hx').trans (hsame x hx hx'), fun b hb => ?_⟩
    exact ⟨hquiet.trans (hr' b hb).1, (hr' b hb).2⟩

/-- Operations that touch nothing outside of the staging directory. -/
theorem stages_of_makes (h : Prog.Makes (fun o => ∀ x, ¬ staging <+: x → FsOp.touches o x = false) p.run) :
    Stages staging p (fun _ _ => True) d := by
  refine mono (h.ensures_frame d) fun r d' hframe => ⟨fun x hx _ => hframe x hx, fun a _ => ⟨?_, trivial⟩⟩
  intro x hx bytes hget
  rwa [hframe x hx] at hget

theorem Stages.succeeds (h : Stages staging p Q d) :
    Succeeds fileSystem p (fun a d' => Quiet staging d d' ∧ Q a d') d :=
  Prog.Ensures.mono h fun _ _ hr => hr.2

end Stages

theorem makes_orFail (h : p.Makes P) :
    Prog.Makes P (orFail p wrap).run :=
  Prog.Makes.bind h fun _ => trivial

theorem makes_perform (h : P o) : (Prog.perform (S := Fs) o).Makes P :=
  ⟨h, fun _ => trivial⟩

theorem quiet_below (hl : staging <+: l) :
    (∀ x, ¬ staging <+: x → FsOp.touches (.createFile l) x = false) ∧
      (∀ bytes x, ¬ staging <+: x → FsOp.touches (.append l bytes) x = false) ∧
      (∀ x, ¬ staging <+: x → FsOp.touches (.removeDirAll l) x = false) := by
  refine ⟨fun x hx => ?_, fun bytes x hx => ?_, fun x hx => ?_⟩
  · have hne : x ≠ l := fun h => hx (h ▸ hl)
    simpa [FsOp.touches] using hne
  · have hne : x ≠ l := fun h => hx (h ▸ hl)
    simpa [FsOp.touches] using hne
  · exact Bool.eq_false_iff.mpr fun hpre => hx (hl.trans ( isPrefixOf_iff_prefix.mp hpre))

/-- The directories that are made are below the staging directory or above it. -/
theorem stages_createDirAll (hl : staging <+: l) (wrap : String → BackupError) :
    Stages staging (orFail (createDirAll l) wrap) (fun _ _ => True) d := by
  have hmakes : Prog.Makes (fun o => ∀ x, (¬ staging <+: x ∧ ¬ x <+: staging) → FsOp.touches o x = false)
      (orFail (createDirAll l) wrap).run := by
    refine makes_orFail (makes_perform fun x hx => Bool.eq_false_iff.mpr fun hpre => ?_)
    rcases prefix_or_prefix_of_prefix ( isPrefixOf_iff_prefix.mp hpre) hl with h | h
    · exact hx.2 h
    · exact hx.1 h
  have hquiet : Succeeds fileSystem (orFail (createDirAll l) wrap) (fun _ d' => Quiet staging d d') d := by
    refine succeeds_orFail ((ensures_createDirAll l).mono fun r d' hr a ha => ?_)
    rw [hr ha]
    exact Quiet.addDirs
  refine ((hmakes.ensures_frame d).and hquiet).mono fun r d' hr => ⟨fun x hx hx' => hr.1 x ⟨hx, hx'⟩, fun a ha => ?_⟩
  exact ⟨hr.2 a ha, trivial⟩

/-- A path that is accepted is below the directory it is joined to, and so is its parent. -/
theorem prefix_join (base : Location) (h : validateArchivePath path = .ok rel) :
    base <+: join base rel ∧ base <+: (join base rel).dropLast := by
  obtain ⟨parts, hparts, hjoin⟩ := join_validateArchivePath h base
  rw [hjoin, dropLast_append_of_ne_nil (partsOf_plain hparts).1]
  exact ⟨prefix_append _ _, prefix_append _ _⟩

theorem stages_stageFile (hvalid : validateArchivePath path = .ok rel) (data : Bytes)
    (readError : Option String) : Stages staging (stageFile staging rel data readError) (fun _ _ => True) d := by
  obtain ⟨hdest, hdir⟩ := prefix_join staging hvalid
  unfold stageFile
  refine Stages.bind ((stages_createDirAll hdir _).mono fun _ _ _ => ?_)
  refine Stages.bind ((stages_of_makes (makes_orFail (makes_perform (quiet_below hdest).1))).mono fun _ _ _ => ?_)
  refine Stages.bind ((stages_of_makes (makes_orFail (makes_perform ((quiet_below hdest).2.1 data)))).mono fun _ _ _ => ?_)
  cases readError with
  | some => exact Looks.throw.stages
  | none => exact (Looks.pure trivial).stages

/-- **Extraction**: the manifest it finds is the first one. -/
theorem stages_extractEntries (items : List (Except String TarEntry)) (found : Option BackupManifest) :
    Stages staging (extractEntries libs staging items found) (fun r _ => r = found.or (manifestAmong libs items)) d := by
  induction items generalizing found d with
  | nil => exact (Looks.pure (by simp [manifestAmong])).stages
  | cons item items ih =>
    unfold extractEntries
    cases hread : readEntry libs found.isSome item with
    | error => exact Looks.throw.stages
    | ok what =>
      -- with a manifest already found no other is taken, without one the first is
      have hamong : (∀ m, what ≠ .manifest m) →
          found.or (manifestAmong libs (item :: items)) = found.or (manifestAmong libs items) := by
        intro hwhat
        cases found with
        | some => rfl
        | none =>
          have hfalse : readEntry libs false item = .ok what := hread
          simp only [none_or, manifestAmong, hfalse]
          split
          · rename_i m heq
            exact absurd (Except.ok.inj heq) (hwhat m)
          · rfl
      cases what with
      | skipped =>
        rw [hamong fun m h => nomatch h]
        exact ih found
      | staged rel data readError =>
        rw [hamong fun m h => nomatch h]
        obtain ⟨raw, hvalid⟩ := readEntry_staged hread
        exact Stages.bind ((stages_stageFile hvalid data readError).mono fun _ _ _ => ih found)
      | manifest m =>
        cases found with
        | some => exact absurd hread readEntry_true_ne_manifest
        | none =>
          have hfalse : readEntry libs false item = .ok (.manifest m) := hread
          refine (ih (some m)).mono fun r _ hr => ?_
          rw [hr]
          simp only [none_or, manifestAmong, hfalse, some_or]

/-- **What is known of the staged files when a restore starts to install.** -/
theorem stages_verified (auditHome : Location) (archive : Archive) :
    Stages staging (verified libs staging auditHome archive)
      (fun manifest d' => manifestIn libs archive = some manifest ∧ Checked libs staging auditHome manifest d') d := by
  have hextract : Stages staging (extractArchive libs staging archive)
      (fun manifest _ => manifestIn libs archive = some manifest) d := by
    cases archive with
    | unopened _ | unreadable _ => exact Looks.throw.stages
    | entries items =>
      refine Stages.bind ((stages_extractEntries items none).mono fun r d₁ hr => ?_)
      cases r with
      | none => exact Looks.throw.stages
      | some => exact (Looks.pure (by simpa [manifestIn] using hr.symm)).stages
  unfold verified
  refine Stages.bind (hextract.mono fun manifest d₁ hmanifest => Looks.stages ?_)
  refine Looks.bind looks_verifyStagedManifest fun _ hlisted => ?_
  refine Looks.bind looks_checkChains fun _ hchains => ?_
  refine Looks.bind looks_checkAudit fun _ haudit => ?_
  exact Looks.pure ⟨hmanifest, hlisted, hchains, haudit⟩

theorem makes_looking (markers : List Location) :
    (homeHasState home markers).Makes fun o => ∀ x, FsOp.touches o x = false := by
  induction markers with
  | nil => trivial
  | cons marker markers ih =>
    refine Prog.Makes.bind (makes_perform fun _ => rfl) fun there => ?_
    split
    · trivial
    · exact ih

theorem stages_prepare (lockHeld force : Bool) :
    Stages staging (prepare lockHeld force staging home) (fun _ _ => True) d := by
  have hself : staging <+: staging := prefix_refl _
  have hfresh : ∀ d₁, Stages staging (do
      if ← (existsAt staging : Restoring _) then orFail (removeDirAll staging) .io
      orFail (createDirAll staging) .io : Restoring Unit) (fun _ _ => True) d₁ := by
    intro d₁
    refine Stages.bind ((stages_of_makes (Prog.Makes.lift (makes_perform fun _ _ => rfl))).mono fun there d₂ _ => ?_)
    split
    · exact Stages.bind ((stages_of_makes (makes_orFail (makes_perform (quiet_below hself).2.2))).mono fun _ _ _ =>
        stages_createDirAll hself _)
    · exact stages_createDirAll hself _
  unfold prepare
  split
  · exact Looks.throw.stages
  · split
    · refine Stages.bind ((stages_of_makes (Prog.Makes.lift ((makes_looking homeMarkers).mono fun o ho x _ => ho x))).mono
        fun state d₁ _ => ?_)
      split
      · exact Looks.throw.stages
      · exact hfresh d₁
    · exact hfresh d

end Staging

/-! ## Installation -/

section Installation

variable {libs : RestoreLibs} {staging home : Location} {d : Disk}

/-- **Installing one file**: its bytes are at the destination, and nothing else is new. -/
theorem ensures_installFile (pid n : Nat) (src dest : Location) : (installFile pid n src dest).Ensures fileSystem
      (fun r d' => r = .ok () → ∃ bytes, d.get src = some (.file bytes) ∧
        ∀ x, d'.get x = if x = dest then some (.file bytes)
          else if installTmpName pid n dest <+: x then none else d.get x) d := by
  have hthree : Succeeds fileSystem (do
      orFail (copyFile src (installTmpName pid n dest)) .io
      orFail (setMode (installTmpName pid n dest)) .io
      orFail (renameFile (installTmpName pid n dest) dest) .io : Restoring Unit)
      (fun _ d' => ∃ bytes, d.get src = some (.file bytes) ∧ ∀ x, d'.get x = if x = dest then some (.file bytes)
          else if installTmpName pid n dest <+: x then none else d.get x) d := by
    refine Succeeds.bind (succeeds_orFail ((ensures_copyFile _ _).mono fun r d₁ hcopy a ha => ?_))
    obtain ⟨htmp, bytes, hsrc, rfl⟩ := hcopy ha
    refine Succeeds.bind (succeeds_orFail ((ensures_setMode _).mono ?_))
    rintro r d₂ rfl a -
    refine succeeds_orFail ((ensures_renameFile _ _).mono fun r d₃ hrename a ha => ?_)
    obtain ⟨hdest, found, hfound, rfl⟩ := hrename ha
    rw [get_set htmp, if_pos rfl] at hfound
    obtain rfl : bytes = found := by simpa using hfound
    refine ⟨bytes, hsrc, fun x => ?_⟩
    rw [get_set hdest, get_removeTree htmp, get_set htmp]
    by_cases hx : x = dest
    · rw [if_pos hx, if_pos hx]
    · rw [if_neg hx, if_neg hx]
      by_cases hbelow : installTmpName pid n dest <+: x
      · rw [if_pos hbelow, if_pos hbelow]
      · have hne : x ≠ installTmpName pid n dest := fun h => hbelow (h ▸ prefix_refl _)
        rw [if_neg hbelow, if_neg hbelow, if_neg hne]
  unfold installFile
  refine bind (mono hthree fun r d₁ hr => ?_)
  cases r with
  | ok u => exact Prog.ensures_ret.mpr fun _ => hr u rfl
  | error => exact fun _ => Prog.ensures_ret.mpr nofun

/-- What is installed at `x`: a listed file, with the bytes it is listed with, in order as far as it carries a chain. -/
def Installed (libs : RestoreLibs) (home : Location) (files : List ManifestEntry) (x : Location) (bytes : Bytes) : Prop :=
  ∃ entry ∈ files, ∃ parts, partsOf (.ofText entry.path) = some parts ∧ x = home ++ parts ∧
    bytes.length = entry.sizeBytes ∧ libs.sha256 bytes = entry.sha256 ∧
    (∀ id, parts = [sessionsDir, id, reviewsFile] → ∀ label, ∃ n, verifyReviewBytes libs.chain bytes label = .ok n) ∧
    (parts = [auditFile] → ∃ n, verifyGrantAudit libs.audit bytes = .ok n)

/-- The place of a manifest entry below a directory. -/
def places (home : Location) (files : List ManifestEntry) (x : Location) : Prop :=
  ∃ entry ∈ files, ∃ parts, partsOf (.ofText entry.path) = some parts ∧ x = home ++ parts

/-- What the staged files are good for: every listed file, copied into the home, is `Installed`. -/
def Sound (libs : RestoreLibs) (staging home : Location) (files : List ManifestEntry) (d : Disk) : Prop :=
  ∀ entry ∈ files, ∀ parts bytes, partsOf (.ofText entry.path) = some parts →
    d.get (staging ++ parts) = some (.file bytes) → Installed libs home files (home ++ parts) bytes

/-- The loop that installs: the staged files stay, and outside of the staging directory a file is one that was there and is
    not in the way of those installed so far, or an installed one. -/
theorem succeeds_installFiles (hapart : Apart staging home) (pid : Nat)
    (hsound : Sound libs staging home files d₀) (done : List ManifestEntry) (hfiles : files = done ++ todo) (n : Nat)
    (hstaged : ∀ x, staging <+: x → d.get x = d₀.get x)
    (hrest : ∀ x, ¬ staging <+: x → ∀ bytes, d.get x = some (.file bytes) →
      (d₀.get x = some (.file bytes) ∧ ¬ places home done x) ∨ Installed libs home files x bytes) :
    Succeeds fileSystem (installFiles pid staging home todo n)
      (fun _ d' => ∀ x, ¬ staging <+: x → ∀ bytes, d'.get x = some (.file bytes) →
        (d₀.get x = some (.file bytes) ∧ ¬ places home files x) ∨ Installed libs home files x bytes) d := by
  induction todo generalizing done n d with
  | nil =>
    rw [append_nil] at hfiles
    exact Succeeds.pure (hfiles ▸ hrest)
  | cons entry todo ih =>
    unfold installFiles
    cases hvalid : validateArchivePath (.ofText entry.path) with
    | error => exact Succeeds.throw
    | ok rel =>
      obtain ⟨parts, hparts, hhome⟩ := join_validateArchivePath hvalid home
      obtain ⟨parts', hparts', hstage⟩ := join_validateArchivePath hvalid staging
      obtain rfl : parts = parts' := mem_unique hparts hparts'
      have hdest := prefix_join home hvalid
      have hentry : entry ∈ files := by simp [hfiles]
      refine Succeeds.bind (succeeds_orFail ((ensures_createDirAll _).mono fun r d₁ hdirs a ha => ?_))
      obtain rfl := hdirs ha
      refine Succeeds.bind (succeeds_orFail ((ensures_installFile pid n _ _).mono fun r d₂ hinstall a ha => ?_))
      obtain ⟨bytes, hsrc, hget⟩ := hinstall ha
      -- the directories made on the way are above the destination, so not below the staging directory
      have habove : ∀ x, staging <+: x → ¬ x <+: (join home rel).dropLast :=
        fun x hx hpre => hapart.not_both (hx.trans hpre) hdest.2
      have hold : ∀ x, staging <+: x → d₂.get x = d₀.get x := by
        intro x hx
        have hnotdest : x ≠ join home rel := fun h => hapart.not_both hx (h ▸ hdest.1)
        have hnottmp : ¬ installTmpName pid n (join home rel) <+: x :=
          fun h => hapart.not_both hx ((hdest.2.trans (prefix_append _ _)).trans h)
        rw [hget x, if_neg hnotdest, if_neg hnottmp, get_addDirs, if_neg (habove x hx), hstaged x hx]
      have hbytes : d₀.get (staging ++ parts) = some (.file bytes) := by
        rw [← hstaged _ (prefix_append _ _), ← hstage]
        rwa [get_addDirs, if_neg (habove _ (prefix_join staging hvalid).1)] at hsrc
      refine ih (done ++ [entry]) (by simp [hfiles]) (n + 1) hold fun x hx b hb => ?_
      rw [hget x] at hb
      split at hb
      · rename_i hxdest
        obtain rfl : bytes = b := by simpa using hb
        exact .inr (hxdest ▸ hhome ▸ hsound entry hentry parts bytes hparts hbytes)
      · rename_i hxdest
        split at hb
        · cases hb
        · rw [get_addDirs] at hb
          split at hb
          · cases hb
          · refine (hrest x hx b hb).imp (fun h => ⟨h.1, ?_⟩) id
            rintro ⟨other, hother, parts₂, hparts₂, hx₂⟩
            rcases mem_append.mp hother with hdone | hlast
            · exact h.2 ⟨other, hdone, parts₂, hparts₂, hx₂⟩
            · rw [mem_singleton.mp hlast, hparts] at hparts₂
              rw [← some.inj hparts₂] at hx₂
              exact hxdest (hx₂.trans hhome.symm)

theorem succeeds_installAll (hapart : Apart staging home) (proc : Process)
    (hsound : Sound libs staging home manifest.files d) :
    Succeeds fileSystem (installAll proc staging home manifest)
      (fun _ d' => ∀ x, ¬ staging <+: x → ∀ bytes, d'.get x = some (.file bytes) →
        (d.get x = some (.file bytes) ∧ ¬ places home manifest.files x) ∨ Installed libs home manifest.files x bytes) d := by
  unfold installAll
  refine Succeeds.bind (succeeds_orFail ((ensures_createDirAll home).mono fun r d₁ hdirs a ha => ?_))
  obtain rfl := hdirs ha
  refine Succeeds.bind ((succeeds_installFiles hapart proc.pid hsound [] rfl proc.counter ?_ ?_).mono
    fun _ _ h => Succeeds.pure h)
  · intro x hx
    rw [get_addDirs, if_neg fun hpre => hapart.1 (hx.trans hpre)]
  · intro x hx bytes hget
    refine .inl ⟨Quiet.addDirs x hx bytes hget, ?_⟩
    rintro ⟨entry, hentry, -⟩
    cases hentry

end Installation

end Supercli.Backup
