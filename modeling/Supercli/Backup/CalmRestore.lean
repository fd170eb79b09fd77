import Supercli.Backup.Verified

/-!
# `Backup.CalmRestore` — a restore nothing goes wrong with

The run of a restore in which the environment never fails. `Holds` says what the disk consists of while files are put below
the staging directory and below the home; one lemma says how a file is put there (`Holds.put`), and the loops follow.
-/

namespace Supercli.Backup

open List Disk

/-! ## Calm runs -/

/-- Without failures of the environment, the program succeeds with `a` and leaves `d'`. -/
def Calm {α : Type} (p : Restoring α) (d : Disk) (a : α) (d' : Disk) : Prop :=
  p.run.always fileSystem none d = (.ok a, d')

section Calm

variable {α : Type} {d d₁ d₂ : Disk}

theorem calm_pure (a : α) : Calm (pure a) d a d := rfl

variable {l : Location} {p : Restoring α} {a : α}

/-- After a first part that succeeds, the run is that of the rest. -/
theorem Calm.goesOn (hp : Calm p d a d₁) (hf : (f a).run.always fileSystem none d₁ = out) :
    (p >>= f).run.always fileSystem none d = out := by
  have hrun : (p >>= f).run = p.run >>= ExceptT.bindCont f := rfl
  rw [hrun, Prog.always_bind, hp]
  exact hf

theorem Calm.bind (hp : Calm p d a d₁) (hf : Calm (f a) d₁ b d₂) : Calm (p >>= f) d b d₂ := hp.goesOn hf

/-- A first part that fails is the end. -/
theorem always_bind_error (hp : p.run.always fileSystem none d = (.error e, d₁)) :
    (p >>= f).run.always fileSystem none d = (.error e, d₁) := by
  have hrun : (p >>= f).run = p.run >>= ExceptT.bindCont f := rfl
  rw [hrun, Prog.always_bind, hp]
  rfl

theorem calm_lift {p : Prog Fs α} (hp : p.always fileSystem none d = (a, d₁)) :
    Calm (ExceptT.lift p : Restoring α) d a d₁ := by
  have hrun : (ExceptT.lift p : Restoring α).run = p >>= fun a => pure (.ok a) := rfl
  unfold Calm
  rw [hrun, Prog.always_bind, hp]
  rfl

theorem calm_orFail {p : Prog Fs (Except String α)} (hp : p.always fileSystem none d = (.ok a, d₁)) :
    Calm (orFail p wrap) d a d₁ := by
  unfold Calm
  rw [orFail, ExceptT.run_mk, Prog.always_bind, hp]
  rfl

theorem calm_createDirAll (h : ∀ x, x <+: l → d.isFile x = false) :
    Calm (orFail (createDirAll l) wrap) d () (d.addDirs l) := by
  refine calm_orFail ?_
  have hnone : l.inits.any d.isFile = false := by
    simp only [any_eq_false, Bool.not_eq_true]
    exact fun x hx => h x ((mem_inits x l).mp hx)
  change d.act (.createDirAll l) = _
  simp only [act, hnone]
  rfl

section

variable (hdir : d.get l ≠ some .dir) (hparent : d.get l.dropLast = some .dir)

include hdir hparent

theorem place_calm : d.place l bytes = (.ok (), d.set l (.file bytes)) := by
  simp [place, writable, hdir, hparent]

theorem calm_createFile : Calm (orFail (createFile l) wrap) d () (d.set l (.file [])) := by
  refine calm_orFail ?_
  exact place_calm hdir hparent

end

theorem calm_appendTo (h : d.get l = some (.file old)) (bytes : Bytes) :
    Calm (orFail (appendTo l bytes) wrap) d () (d.set l (.file (old ++ bytes))) := by
  refine calm_orFail ?_
  change d.act (.append l bytes) = _
  simp only [act, h]
  rfl

theorem calm_copyFile (hsrc : d.get src = some (.file bytes)) (hdir : d.get dst ≠ some .dir)
    (hparent : d.get dst.dropLast = some .dir) :
    Calm (orFail (copyFile src dst) wrap) d () (d.set dst (.file bytes)) := by
  refine calm_orFail ?_
  change d.act (.copy src dst) = _
  simp only [act, hsrc]
  exact place_calm hdir hparent

theorem calm_setMode (h : (d.get l).isSome) : Calm (orFail (setMode l) wrap) d () d := by
  refine calm_orFail ?_
  change d.act (.setMode l) = _
  simp only [act, h]
  rfl

theorem calm_renameFile (hsrc : d.get src = some (.file bytes)) (hdir : d.get dst ≠ some .dir)
    (hparent : d.get dst.dropLast = some .dir) :
    Calm (orFail (renameFile src dst) wrap) d () ((d.removeTree src).set dst (.file bytes)) := by
  refine calm_orFail ?_
  have hw : d.writable dst = none := by simp [writable, hdir, hparent]
  change d.act (.rename src dst) = _
  simp only [act, hsrc, hw]
  rfl

theorem always_readFile (l : Location) : (readFile l).always fileSystem none d = (d.read l, d) := rfl

theorem always_existsAt : (existsAt l).always fileSystem none d = ((d.get l).isSome, d) := rfl

theorem Calm.exec (h : Calm p d a d₁) : ∃ es, p.run.exec fileSystem d es = some (.ok a, d₁) := by
  obtain ⟨n, hn⟩ := Prog.exec_always fileSystem none p.run d
  exact ⟨_, hn.trans (congrArg some h)⟩

end Calm

/-! ## What the disk consists of -/

/-- Below the `roots` the disk holds just the files `contents` and the directories above them; everywhere else it is as
    `d₀`, but for the directories above the roots. -/
structure Holds (d₀ : Disk) (roots : List Location) (contents : List (Location × Bytes)) (d : Disk) : Prop where
  files : ∀ x bytes, (∃ r ∈ roots, r <+: x) → (d.get x = some (.file bytes) ↔ (x, bytes) ∈ contents)
  dirs : ∀ x, (∃ r ∈ roots, r <+: x) → d.get x = some .dir → x ∈ roots ∨ ∃ e ∈ contents, x <+: e.1.dropLast
  above : ∀ r ∈ roots, ∀ x, x <+: r → d.isFile x = false
  outside : ∀ x, (∀ r ∈ roots, ¬ r <+: x) → d.get x = d₀.get x ∨ (d.get x = some .dir ∧ ∃ r ∈ roots, x <+: r)

/-- No root is below another. -/
def RootsApart (roots : List Location) : Prop := ∀ r ∈ roots, ∀ r' ∈ roots, r <+: r' → r = r'

/-- A place for a file: strictly below a root, and not above, below or at one of the files there are. -/
structure Free (roots : List Location) (contents : List (Location × Bytes)) (l : Location) : Prop where
  below : ∃ r ∈ roots, r <+: l.dropLast
  ne_nil : l ≠ []
  apart : ∀ e ∈ contents, ¬ e.1 <+: l ∧ ¬ l <+: e.1

section Holds

variable {d₀ d d' : Disk} {roots : List Location} {contents : List (Location × Bytes)} {l : Location}

theorem isFile_eq_false : d.isFile x = false ↔ ∀ bytes, d.get x ≠ some (.file bytes) := by
  unfold isFile
  split
  · rename_i bytes hget
    exact ⟨nofun, fun h => absurd hget (h bytes)⟩
  · rename_i hnot
    exact ⟨fun _ => hnot, fun _ => rfl⟩

theorem not_prefix_dropLast (h : l ≠ []) : ¬ l <+: l.dropLast := by
  intro hpre
  have hlen := hpre.length_le
  rw [length_dropLast] at hlen
  have hpos := length_pos_iff.mpr h
  omega

theorem Free.root_prefix (hfree : Free roots contents l) : ∃ r ∈ roots, r <+: l ∧ r ≠ l := by
  obtain ⟨r, hr, hpre⟩ := hfree.below
  exact ⟨r, hr, hpre.trans ( dropLast_prefix l), fun heq => not_prefix_dropLast hfree.ne_nil (heq ▸ hpre)⟩

section

variable (h : Holds d₀ roots contents d)

include h

/-- No file stands in the way of the directories of a free place. -/
theorem Holds.dirs_free (hfree : Free roots contents l) : ∀ x, x <+: l.dropLast → d.isFile x = false := by
  intro x hx
  obtain ⟨r, hr, hpre⟩ := hfree.below
  rcases prefix_or_prefix_of_prefix hx hpre with hxr | hrx
  · exact h.above r hr x hxr
  · refine isFile_eq_false.mpr fun bytes hget => ?_
    have hmem := (h.files x bytes ⟨r, hr, hrx⟩).mp hget
    exact (hfree.apart _ hmem).1 (hx.trans ( dropLast_prefix l))

theorem Holds.not_dir (hroots : RootsApart roots) (hfree : Free roots contents l) : d.get l ≠ some .dir := by
  intro hdir
  obtain ⟨r, hr, hrl, hne⟩ := hfree.root_prefix
  rcases h.dirs l ⟨r, hr, hrl⟩ hdir with hroot | ⟨e, he, hle⟩
  · exact hne (hroots r hr l hroot hrl)
  · exact (hfree.apart e he).2 (hle.trans ( dropLast_prefix _))

/-- **One more file.** -/
theorem Holds.put (hroots : RootsApart roots) (hfree : Free roots contents l)
    (hget : ∀ x, d'.get x = if x = l then some (.file bytes) else if x <+: l.dropLast then some .dir else d.get x) :
    Holds d₀ roots (contents ++ [(l, bytes)]) d' := by
  obtain ⟨r₀, hr₀, hbelow⟩ := hfree.below
  obtain ⟨r₁, hr₁, hr₁l, hr₁ne⟩ := hfree.root_prefix
  have hnotabove : ∀ r ∈ roots, ∀ x, x <+: r → x ≠ l := by
    rintro r hr x hx rfl
    obtain rfl : r₁ = r := hroots r₁ hr₁ r hr (hr₁l.trans hx)
    exact hr₁ne (hr₁l.eq_of_length_le hx.length_le)
  refine ⟨fun x b hx => ?_, fun x hx hdir => ?_, fun r hr x hx => ?_, fun x hx => ?_⟩
  · rw [hget x, mem_append, mem_singleton, Prod.mk.injEq]
    by_cases hxl : x = l
    · subst hxl
      have hnot : (x, b) ∉ contents := fun hmem => (hfree.apart _ hmem).1 (prefix_refl _)
      simp [hnot, eq_comm]
    · rw [if_neg hxl]
      by_cases hxd : x <+: l.dropLast
      · have hnot : (x, b) ∉ contents := fun hmem => (hfree.apart _ hmem).1 (hxd.trans ( dropLast_prefix l))
        simp [hxd, hnot, hxl]
      · rw [if_neg hxd, h.files x b hx]
        simp [hxl]
  · rw [hget x] at hdir
    split at hdir
    · cases hdir
    · split at hdir
      · rename_i hxd
        exact .inr ⟨(l, bytes), by simp, hxd⟩
      · exact (h.dirs x hx hdir).imp id fun ⟨e, he, hxe⟩ => ⟨e, mem_append_left _ he, hxe⟩
  · refine isFile_eq_false.mpr fun b hb => ?_
    rw [hget x, if_neg (hnotabove r hr x hx)] at hb
    split at hb
    · cases hb
    · exact isFile_eq_false.mp (h.above r hr x hx) b hb
  · have hxl : x ≠ l := fun hxl => hx r₁ hr₁ (hxl ▸ hr₁l)
    rw [hget x, if_neg hxl]
    split
    · rename_i hxd
      -- a directory above the place and not below a root is above the root
      rcases prefix_or_prefix_of_prefix hxd hbelow with hxr | hrx
      · exact .inr ⟨rfl, r₀, hr₀, hxr⟩
      · exact absurd hrx (hx r₀ hr₀)
    · exact h.outside x hx

/-- The directories down to a root. -/
theorem Holds.addRoot (hroots : RootsApart roots) (hr : r ∈ roots) : Holds d₀ roots contents (d.addDirs r) := by
  refine ⟨fun x bytes hx => ?_, fun x hx hdir => ?_, fun r' hr' x hx => ?_, fun x hx => ?_⟩
  · rw [get_addDirs]
    split
    · rename_i hxr
      have hnot : (x, bytes) ∉ contents := fun hmem =>
        isFile_eq_false.mp (h.above r hr x hxr) bytes ((h.files x bytes hx).mpr hmem)
      simp [hnot]
    · exact h.files x bytes hx
  · rw [get_addDirs] at hdir
    split at hdir
    · rename_i hxr
      obtain ⟨r', hr', hpre⟩ := hx
      obtain rfl := hroots r' hr' r hr (hpre.trans hxr)
      exact .inl (hxr.eq_of_length_le hpre.length_le ▸ hr)
    · exact h.dirs x hx hdir
  · refine isFile_eq_false.mpr fun bytes hget => ?_
    rw [get_addDirs] at hget
    split at hget
    · cases hget
    · exact isFile_eq_false.mp (h.above r' hr' x hx) bytes hget
  · rw [get_addDirs]
    split
    · rename_i hxr
      exact .inr ⟨rfl, r, hr, hxr⟩
    · exact h.outside x hx

end

end Holds

/-! ## Listings -/

/-- The parts a path of the manifest comes down to. -/
def partsText (path : Text) : Location := (partsOf (.ofText path)).getD []

/-- The paths can be put below one directory together: each is accepted, and none is another's directory. -/
structure Placeable (paths : List Text) : Prop where
  valid : ∀ p ∈ paths, (partsOf (.ofText p)).isSome
  distinct : paths.Pairwise fun p q => ¬ partsText p <+: partsText q ∧ ¬ partsText q <+: partsText p

/-- Files with the paths they are listed under, as they lie below a directory. -/
def filesAt (base : Location) (files : List (Text × Bytes)) : List (Location × Bytes) :=
  files.map fun f => (base ++ partsText f.1, f.2)

section Listing

variable {paths : List Text} {p : Text}

section

variable (h : Placeable paths) (hp : p ∈ paths)

include h hp

theorem Placeable.parts : partsOf (.ofText p) = some (partsText p) := by
  obtain ⟨parts, hparts⟩ := Option.isSome_iff_exists.mp (h.valid p hp)
  simp [partsText, hparts]

theorem Placeable.rel : validateArchivePath (.ofText p) = .ok (slashed (partsText p)) :=
  (validateArchivePath_eq _).1 _ (h.parts hp)

theorem Placeable.join (base : Location) : join base (slashed (partsText p)) = base ++ partsText p :=
  join_slashed (partsOf_plain (h.parts hp)).1 (partsOf_plain (h.parts hp)).2

theorem Placeable.ne_nil : partsText p ≠ [] :=
  (partsOf_plain (h.parts hp)).1

end

/-- The next path is free below the directory the earlier ones are in. -/
theorem Placeable.free (h : Placeable ((done ++ f :: todo).map (·.1))) (hr : r <+: base)
    (hroots : r ∈ roots) : Free roots (filesAt base done) (base ++ partsText f.1) := by
  have hf : f.1 ∈ (done ++ f :: todo).map (·.1) := by simp
  refine ⟨⟨r, hroots, ?_⟩, by simp [h.ne_nil hf], ?_⟩
  · rw [dropLast_append_of_ne_nil (h.ne_nil hf)]
    exact hr.trans (prefix_append _ _)
  · intro e he
    obtain ⟨g, hg, rfl⟩ := mem_map.mp he
    have hpair := h.distinct
    rw [map_append, pairwise_append] at hpair
    have hboth := hpair.2.2 g.1 (mem_map_of_mem hg) f.1 (by simp)
    simpa [prefix_append_right_inj] using hboth

end Listing

/-! ## Extraction -/

section Extraction

variable {libs : RestoreLibs} {staging : Location} {d₀ d : Disk} {roots : List Location}
  {contents : List (Location × Bytes)}

theorem calm_stageFile (hrel : join staging rel = l)
    (h : Holds d₀ roots contents d) (hroots : RootsApart roots) (hfree : Free roots contents l) (data : Bytes) :
    ∃ d', Calm (stageFile staging rel data none) d () d' ∧ Holds d₀ roots (contents ++ [(l, data)]) d' := by
  have hdirs := h.dirs_free hfree
  -- the disk with the directories of the place
  have hnotdir : (d.addDirs l.dropLast).get l ≠ some .dir := by
    rw [get_addDirs, if_neg (not_prefix_dropLast hfree.ne_nil)]
    exact h.not_dir hroots hfree
  have hparent : (d.addDirs l.dropLast).get l.dropLast = some .dir := by
    rw [get_addDirs, if_pos (prefix_refl _)]
  have hempty : ((d.addDirs l.dropLast).set l (.file [])).get l = some (.file []) := by
    rw [get_set hfree.ne_nil, if_pos rfl]
  refine ⟨((d.addDirs l.dropLast).set l (.file [])).set l (.file ([] ++ data)), ?_, h.put hroots hfree fun x => ?_⟩
  · unfold stageFile
    rw [hrel]
    exact (calm_createDirAll hdirs).bind
      ((calm_createFile hnotdir hparent).bind ((calm_appendTo hempty data).bind (calm_pure ())))
  · rw [get_set hfree.ne_nil, get_set hfree.ne_nil, get_addDirs, nil_append]
    by_cases hx : x = l
    · rw [if_pos hx, if_pos hx]
    · rw [if_neg hx, if_neg hx, if_neg hx]

/-- The tar entry of a file. -/
def fileItem (f : Text × Bytes) : Except String TarEntry :=
  .ok ⟨.regular, .ok f.2.length, .ok (.ofText f.1), f.2, none⟩

theorem slashed_singleton (name : Name) : slashed [name] = name := by
  simp [slashed]

theorem slashed_injective (h : slashed parts = slashed parts')
    (hp : parts ≠ [] ∧ ∀ name ∈ parts, PlainName name) (hp' : parts' ≠ [] ∧ ∀ name ∈ parts', PlainName name) :
    parts = parts' := by
  have hparts := partsOf_slashed hp.1 hp.2
  rw [h, partsOf_slashed hp'.1 hp'.2] at hparts
  exact (Option.some.inj hparts).symm

theorem plainName_manifestName : PlainName manifestName := by decide

theorem readEntry_fileItem (h : Placeable paths) (hf : f.1 ∈ paths)
    (hname : partsText f.1 ≠ [manifestName]) (hsize : f.2.length ≤ maxRestoreFileBytes) (have_ : Bool) :
    readEntry libs have_ (fileItem f) = .ok (.staged (slashed (partsText f.1)) f.2 none) := by
  have hne : slashed (partsText f.1) ≠ manifestName := by
    intro heq
    rw [← slashed_singleton manifestName] at heq
    exact hname (slashed_injective heq (partsOf_plain (h.parts hf)) ⟨by simp, by simp [plainName_manifestName]⟩)
  simp [readEntry, fileItem, Nat.not_lt.mpr hsize, h.rel hf, hne]

/-- The tar entry of a manifest. -/
def manifestItem (bytes : Bytes) : Except String TarEntry :=
  .ok ⟨.regular, .ok bytes.length, .ok (.ofText manifestName), bytes, none⟩

theorem readEntry_manifestItem (hparse : libs.parseManifest bytes = .ok manifest)
    (hsize : bytes.length ≤ maxRestoreFileBytes) : readEntry libs false (manifestItem bytes) = .ok (.manifest manifest) := by
  have hrel : validateArchivePath (.ofText manifestName) = .ok manifestName := by decide
  simp [readEntry, manifestItem, Nat.not_lt.mpr hsize, hrel, hparse]

/-- **The files of an archive end up below the staging directory.** -/
theorem calm_extractEntries (libs : RestoreLibs) (hroots : RootsApart roots) (hstaging : staging ∈ roots)
    (rest : List (Except String TarEntry)) (done : List (Text × Bytes)) (h : Holds d₀ roots (filesAt staging done) d)
    (hplace : Placeable ((done ++ todo).map (·.1))) (hnames : ∀ f ∈ todo, partsText f.1 ≠ [manifestName])
    (hsizes : ∀ f ∈ todo, f.2.length ≤ maxRestoreFileBytes) (found : Option BackupManifest) :
    ∃ d', Holds d₀ roots (filesAt staging (done ++ todo)) d' ∧ ∀ m d'',
      Calm (extractEntries libs staging rest found) d' m d'' →
        Calm (extractEntries libs staging (todo.map fileItem ++ rest) found) d m d'' := by
  induction todo generalizing done d with
  | nil => exact ⟨d, by simpa using h, fun m d'' hrest => hrest⟩
  | cons f todo ih =>
    have hf : f.1 ∈ (done ++ f :: todo).map (·.1) := by simp
    obtain ⟨d₁, hcalm, hholds⟩ := calm_stageFile (hplace.join hf staging) h hroots
      (hplace.free (prefix_refl _) hstaging) f.2
    have hdone : filesAt staging done ++ [(staging ++ partsText f.1, f.2)] = filesAt staging (done ++ [f]) := by
      simp [filesAt]
    rw [hdone] at hholds
    obtain ⟨d', hholds', hcont⟩ := ih (done ++ [f]) hholds (by simpa using hplace)
      (fun g hg => hnames g (mem_cons_of_mem _ hg)) (fun g hg => hsizes g (mem_cons_of_mem _ hg))
    refine ⟨d', by simpa using hholds', fun m d'' hrest => ?_⟩
    have hread : readEntry libs found.isSome (fileItem f) = .ok (.staged (slashed (partsText f.1)) f.2 none) :=
      readEntry_fileItem hplace hf (hnames f mem_cons_self) (hsizes f mem_cons_self) _
    rw [map_cons, cons_append]
    unfold extractEntries
    rw [hread]
    exact hcalm.bind (hcont m d'' hrest)

end Extraction

/-! ## Verification -/

section Verification

variable {libs : RestoreLibs} {staging : Location} {d₀ d : Disk} {roots : List Location}

/-- How a file is listed. -/
def manifestEntry (libs : RestoreLibs) (f : Text × Bytes) : ManifestEntry := ⟨f.1, libs.sha256 f.2, f.2.length⟩

/-- The path of a file as it is looked up. -/
def relOf (f : Text × Bytes) : Text := slashed (partsText f.1)

theorem Placeable.relOf_not_mem (h : Placeable ((done ++ f :: todo).map (·.1))) : relOf f ∉ done.map relOf := by
  intro hmem
  obtain ⟨g, hg, heq⟩ := mem_map.mp hmem
  have hf : f.1 ∈ (done ++ f :: todo).map (·.1) := by simp
  have hg' : g.1 ∈ (done ++ f :: todo).map (·.1) := by simp [mem_map_of_mem hg]
  have hparts : partsText g.1 = partsText f.1 :=
    slashed_injective heq (partsOf_plain (h.parts hg')) (partsOf_plain (h.parts hf))
  have hpair := h.distinct
  rw [map_append, pairwise_append] at hpair
  exact (hpair.2.2 g.1 (mem_map_of_mem hg) f.1 (by simp)).1 (hparts ▸ prefix_refl _)

theorem calm_checkListed (done : List (Text × Bytes)) (hplace : Placeable ((done ++ todo).map (·.1)))
    (hstaged : ∀ f ∈ todo, d.get (staging ++ partsText f.1) = some (.file f.2)) :
    Calm (checkListed libs staging (todo.map (manifestEntry libs)) (done.map relOf).reverse) d
      ((done ++ todo).map relOf).reverse d := by
  induction todo generalizing done with
  | nil =>
    rw [append_nil]
    exact calm_pure _
  | cons f todo ih =>
    have hf : f.1 ∈ (done ++ f :: todo).map (·.1) := by simp
    have hnew : slashed (partsText f.1) ∉ (done.map relOf).reverse := by
      rw [mem_reverse]
      exact hplace.relOf_not_mem
    have hread : d.read (join staging (slashed (partsText f.1))) = .ok f.2 := by
      rw [hplace.join hf, Disk.read, hstaged f mem_cons_self]
    have hrest := ih (done ++ [f]) (by simpa using hplace) fun g hg => hstaged g (mem_cons_of_mem _ hg)
    have hseen : ((done ++ [f]).map relOf).reverse = relOf f :: (done.map relOf).reverse := by simp
    have hall : ((done ++ [f] ++ todo).map relOf).reverse = ((done ++ f :: todo).map relOf).reverse := by simp
    rw [hseen, hall] at hrest
    have hvalid : validateArchivePath (.ofText (manifestEntry libs f).path) = .ok (slashed (partsText f.1)) := hplace.rel hf
    rw [map_cons]
    unfold checkListed
    rw [hvalid]
    dsimp only
    rw [if_neg hnew]
    refine (calm_lift (always_readFile _)).bind ?_
    rw [hread]
    dsimp only
    rw [if_neg (by simp [manifestEntry])]
    exact hrest

variable {files : List (Text × Bytes)}

theorem extraFiles_eq_nil (hplace : Placeable (files.map (·.1)))
    (hfound : ∀ x ∈ found, ∃ f ∈ files, x = staging ++ partsText f.1) :
    extraFiles staging (files.map relOf).reverse found = .ok [] := by
  induction found with
  | nil => rfl
  | cons x found ih =>
    obtain ⟨f, hf, rfl⟩ := hfound x mem_cons_self
    have hparts := partsOf_plain (hplace.parts (mem_map_of_mem (f := (·.1)) hf))
    have hvalid : validateArchivePath (.ofText (slashed (partsText f.1))) = .ok (slashed (partsText f.1)) :=
      (validateArchivePath_eq _).1 _ (partsOf_slashed hparts.1 hparts.2)
    have hmem : slashed (partsText f.1) ∈ (files.map relOf).reverse := by
      rw [mem_reverse]
      exact mem_map_of_mem hf
    simp only [extraFiles, drop_left, hvalid, ih fun x hx => hfound x (mem_cons_of_mem _ hx), hmem, if_true]

theorem calm_verifyStagedManifest (hstaging : staging ∈ roots) (hne : staging ≠ [])
    (hplace : Placeable (files.map (·.1))) (h : Holds d₀ roots (filesAt staging files) d) {manifest : BackupManifest}
    (hversion : manifest.formatVersion = backupFormatVersion)
    (hfiles : manifest.files = files.map (manifestEntry libs)) :
    Calm (verifyStagedManifest libs staging manifest) d () d := by
  have hstaged : ∀ f ∈ files, d.get (staging ++ partsText f.1) = some (.file f.2) := fun f hf =>
    (h.files _ _ ⟨staging, hstaging, prefix_append _ _⟩).mpr (mem_map_of_mem hf)
  have hlisted : Calm (checkListed libs staging (files.map (manifestEntry libs)) []) d (files.map relOf).reverse d :=
    calm_checkListed [] hplace hstaged
  have hextra : extraFiles staging (files.map relOf).reverse (d.filesBelow staging) = .ok [] := by
    refine extraFiles_eq_nil hplace fun x hx => ?_
    obtain ⟨hpre, bytes, hget⟩ := (mem_filesBelow hne).mp hx
    obtain ⟨f, hf, heq⟩ := mem_map.mp ((h.files x bytes ⟨staging, hstaging, hpre⟩).mp hget)
    exact ⟨f, hf, (Prod.mk.inj heq).1.symm⟩
  unfold verifyStagedManifest
  rw [if_neg (not_not.mpr hversion), hfiles]
  have hwalk : Calm (orFail (walkFiles staging) .io) d (d.filesBelow staging) d := calm_orFail rfl
  refine hlisted.bind (hwalk.bind ?_)
  rw [hextra]
  exact calm_pure ()

/-- A log that is looked at is in order or not there. -/
def LogFine (libs : RestoreLibs) (d : Disk) (path : Location) : Prop :=
  d.read path = .error .notFound ∨
    ∃ bytes n, d.get path = some (.file bytes) ∧ verifyReviewBytes libs.chain bytes (showLocation path) = .ok n

theorem always_checkFile {ε : Type} {check : Bytes → Except ε Nat} (fail : String → ε)
    (h : d.read path = .error .notFound ∨ ∃ bytes n, d.get path = some (.file bytes) ∧ check bytes = .ok n) :
    ∃ n, (checkFile path check fail).always fileSystem none d = (.ok n, d) := by
  unfold checkFile
  rw [Prog.always_bind, always_readFile]
  rcases h with hnone | ⟨bytes, n, hget, hn⟩
  · rw [hnone]
    exact ⟨0, rfl⟩
  · rw [Disk.read, hget]
    exact ⟨n, Prod.ext hn rfl⟩

theorem calm_checkChains {ids : List Text} (h : ∀ id ∈ ids, LogFine libs d (checkedLog staging id)) :
    Calm (checkChains libs staging ids) d () d := by
  induction ids with
  | nil => exact calm_pure ()
  | cons id ids ih =>
    obtain ⟨n, hn⟩ := always_checkFile _ (h id mem_cons_self)
    unfold checkChains
    exact (calm_lift hn).bind (ih fun id' hid' => h id' (mem_cons_of_mem _ hid'))

/-- So is the audit. -/
def AuditFine (libs : RestoreLibs) (d : Disk) (path : Location) : Prop :=
  d.read path = .error .notFound ∨ ∃ bytes n, d.get path = some (.file bytes) ∧ verifyGrantAudit libs.audit bytes = .ok n

theorem calm_checkAudit (h : (d.get (staging ++ [auditFile])).isSome → AuditFine libs d (auditHome ++ [auditFile])) :
    Calm (checkAudit libs staging auditHome) d () d := by
  have hjoin : join staging auditFile = staging ++ [auditFile] := rfl
  unfold checkAudit
  refine (calm_lift always_existsAt).bind ?_
  rw [hjoin]
  split
  · rename_i hthere
    obtain ⟨n, hn⟩ := always_checkFile _ (h hthere)
    exact (calm_lift hn).bind (calm_pure ())
  · exact calm_pure ()

end Verification

/-! ## Installation -/

section Installation

variable {staging home : Location} {d₀ d : Disk} {roots : List Location} {contents : List (Location × Bytes)}

theorem Holds.nothing_below (h : Holds d₀ roots contents d) (hroots : RootsApart roots) (hfree : Free roots contents l)
    (hx : l <+: x) : d.get x = none := by
  obtain ⟨r, hr, hrl, hne⟩ := hfree.root_prefix
  cases hget : d.get x with
  | none => rfl
  | some node =>
    cases node with
    | file bytes => exact absurd hx (hfree.apart _ ((h.files x bytes ⟨r, hr, hrl.trans hx⟩).mp hget)).2
    | dir =>
      rcases h.dirs x ⟨r, hr, hrl.trans hx⟩ hget with hroot | ⟨e, he, hxe⟩
      · obtain rfl := hroots r hr x hroot (hrl.trans hx)
        exact absurd (hrl.eq_of_length_le hx.length_le) hne
      · exact absurd (hx.trans (hxe.trans ( dropLast_prefix _))) (hfree.apart e he).2

/-- The three operations that install a file. -/
theorem calm_copyRename (hsrc : d.get src = some (.file bytes))
    (htmp : d.get tmp ≠ some .dir) (hdest : d.get dest ≠ some .dir) (hdir : d.get dest.dropLast = some .dir)
    (hparent : tmp.dropLast = dest.dropLast) (hnil : tmp ≠ []) (hne : tmp ≠ dest) :
    Calm (do
      orFail (copyFile src tmp) .io
      orFail (setMode tmp) .io
      orFail (renameFile tmp dest) .io : Restoring Unit) d ()
      (((d.set tmp (.file bytes)).removeTree tmp).set dest (.file bytes)) := by
  have hother : dest.dropLast ≠ tmp := by
    intro heq
    refine not_prefix_dropLast hnil ?_
    rw [hparent, heq]
  have hcopied : (d.set tmp (.file bytes)).get tmp = some (.file bytes) := by
    rw [get_set hnil, if_pos rfl]
  have hdest' : (d.set tmp (.file bytes)).get dest ≠ some .dir := by rwa [get_set_of_ne hne.symm]
  have hdir' : (d.set tmp (.file bytes)).get dest.dropLast = some .dir := by rwa [get_set_of_ne hother]
  have hthere : ((d.set tmp (.file bytes)).get tmp).isSome := by
    rw [hcopied]
    rfl
  exact (calm_copyFile hsrc htmp (hparent.symm ▸ hdir)).bind
    ((calm_setMode hthere).bind (calm_renameFile hcopied hdest' hdir'))

/-- **Installing one file.** -/
theorem calm_installFile (h : Holds d₀ roots contents d) (hroots : RootsApart roots)
    (hsrc : d.get src = some (.file bytes)) (hdest : Free roots contents dest)
    (htmp : Free roots contents (installTmpName pid n dest)) (hne : installTmpName pid n dest ≠ dest) :
    ∃ d', (installFile pid n src dest).always fileSystem none (d.addDirs dest.dropLast) = (.ok (), d') ∧
      Holds d₀ roots (contents ++ [(dest, bytes)]) d' := by
  have hparent : (installTmpName pid n dest).dropLast = dest.dropLast := by simp [installTmpName]
  unfold installFile
  generalize installTmpName pid n dest = tmp at htmp hne hparent ⊢
  have htmpshort : ¬ tmp <+: dest.dropLast := hparent ▸ not_prefix_dropLast htmp.ne_nil
  have hsrc₁ : (d.addDirs dest.dropLast).get src = some (.file bytes) := by
    rw [get_addDirs, if_neg, hsrc]
    exact fun hpre => isFile_eq_false.mp (h.dirs_free hdest src hpre) bytes hsrc
  have htmp₁ : (d.addDirs dest.dropLast).get tmp ≠ some .dir := by
    rw [get_addDirs, if_neg htmpshort]
    exact h.not_dir hroots htmp
  have hdest₁ : (d.addDirs dest.dropLast).get dest ≠ some .dir := by
    rw [get_addDirs, if_neg (not_prefix_dropLast hdest.ne_nil)]
    exact h.not_dir hroots hdest
  have hdir₁ : (d.addDirs dest.dropLast).get dest.dropLast = some .dir := by
    rw [get_addDirs, if_pos (prefix_refl _)]
  have hthree := calm_copyRename hsrc₁ htmp₁ hdest₁ hdir₁ hparent htmp.ne_nil hne
  refine ⟨(((d.addDirs dest.dropLast).set tmp (.file bytes)).removeTree tmp).set dest (.file bytes), ?_,
    h.put hroots hdest fun x => ?_⟩
  · rw [Prog.always_bind]
    unfold Calm ExceptT.run at hthree
    rw [hthree]
    rfl
  · rw [get_set hdest.ne_nil, get_removeTree htmp.ne_nil, get_set htmp.ne_nil, get_addDirs]
    by_cases hx : x = dest
    · rw [if_pos hx, if_pos hx]
    · rw [if_neg hx, if_neg hx]
      by_cases hbelow : tmp <+: x
      · have hnot : ¬ x <+: dest.dropLast := fun hpre => htmpshort (hbelow.trans hpre)
        rw [if_pos hbelow, if_neg hnot, h.nothing_below hroots htmp hbelow]
      · have hother : x ≠ tmp := fun heq => hbelow (heq ▸ prefix_refl _)
        rw [if_neg hbelow, if_neg hother]

/-- No path is, or is below, the temporary name of one. -/
def TempsApart (pid counter : Nat) (home : Location) (paths : List Text) : Prop :=
  ∀ k p, paths[k]? = some p → ∀ q ∈ paths, ¬ installTmpName pid (counter + k) (home ++ partsText p) <+: home ++ partsText q

/-- Files below one directory do not stand in the way of a place below the other. -/
theorem Free.of_home (hapart : Apart staging home) (files : List (Text × Bytes)) (hl : home <+: l)
    (hfree : Free roots (filesAt home done) l) : Free roots (filesAt staging files ++ filesAt home done) l := by
  refine ⟨hfree.below, hfree.ne_nil, fun e he => ?_⟩
  rcases mem_append.mp he with hstaged | hinstalled
  · obtain ⟨f, -, rfl⟩ := mem_map.mp hstaged
    refine ⟨fun hpre => hapart.not_both ((prefix_append _ _).trans hpre) hl, fun hpre => ?_⟩
    exact hapart.not_both (prefix_append _ _) (hl.trans hpre)
  · exact hfree.apart e hinstalled

theorem installTmpName_prefix (hparts : parts ≠ []) (hx : base ++ x <+: installTmpName pid n (base ++ parts)) :
    base ++ x = installTmpName pid n (base ++ parts) ∨ x <+: parts.dropLast := by
  unfold installTmpName at hx ⊢
  rw [dropLast_append_of_ne_nil hparts] at hx ⊢
  rcases prefix_concat_iff.mp hx with heq | hpre
  · exact .inl heq
  · exact .inr ((prefix_append_right_inj _).mp hpre)

/-- **The staged files end up below the home.** -/
theorem calm_installFiles (hapart : Apart staging home) (hroots : RootsApart roots) (hhome : home ∈ roots)
    (hstaging : staging ∈ roots) (libs : RestoreLibs) (pid counter : Nat)
    (hplace : Placeable (files.map (·.1))) (htemps : TempsApart pid counter home (files.map (·.1)))
     (done : List (Text × Bytes)) (hfiles : files = done ++ todo)
    (h : Holds d₀ roots (filesAt staging files ++ filesAt home done) d) :
    ∃ d', Calm (installFiles pid staging home (todo.map (manifestEntry libs)) (counter + done.length)) d () d' ∧
      Holds d₀ roots (filesAt staging files ++ filesAt home files) d' := by
  induction todo generalizing done d with
  | nil =>
    obtain rfl : files = done := by simpa using hfiles
    exact ⟨d, calm_pure (), h⟩
  | cons f todo ih =>
    subst hfiles
    have hf : f.1 ∈ (done ++ f :: todo).map (·.1) := by simp
    have hne := hplace.ne_nil hf
    have hdest : Free roots (filesAt home done) (home ++ partsText f.1) := hplace.free (prefix_refl _) hhome
    have hdest' := Free.of_home hapart (done ++ f :: todo) (prefix_append home (partsText f.1)) hdest
    have hthis : ((done ++ f :: todo).map (·.1))[done.length]? = some f.1 := by simp
    have hapartTmp := htemps done.length f.1 hthis
    have hbelow : home <+: (installTmpName pid (counter + done.length) (home ++ partsText f.1)).dropLast := by
      simp [installTmpName, dropLast_append_of_ne_nil hne]
    have htmp : Free roots (filesAt home done) (installTmpName pid (counter + done.length) (home ++ partsText f.1)) := by
      refine ⟨⟨home, hhome, hbelow⟩, by simp [installTmpName], fun e he => ?_⟩
      obtain ⟨g, hg, rfl⟩ := mem_map.mp he
      have hg' : g.1 ∈ (done ++ f :: todo).map (·.1) := by simp [mem_map_of_mem hg]
      refine ⟨fun hpre => ?_, hapartTmp g.1 hg'⟩
      rcases installTmpName_prefix hne hpre with heq | hdir
      · exact hapartTmp g.1 hg' (heq ▸ prefix_refl _)
      · exact (hdest.apart _ he).1
          ((prefix_append_right_inj _).mpr (hdir.trans ( dropLast_prefix _)))
    have htmp' := Free.of_home hapart (done ++ f :: todo) (hbelow.trans ( dropLast_prefix _)) htmp
    have htmpne : installTmpName pid (counter + done.length) (home ++ partsText f.1) ≠ home ++ partsText f.1 :=
      fun heq => hapartTmp f.1 hf (by rw [heq])
    have hsrc : d.get (staging ++ partsText f.1) = some (.file f.2) := by
      refine (h.files _ _ ⟨staging, hstaging, prefix_append _ _⟩).mpr (mem_append_left _ ?_)
      exact mem_map.mpr ⟨f, by simp, rfl⟩
    obtain ⟨d₁, hinstall, hholds⟩ := calm_installFile h hroots hsrc hdest' htmp' htmpne
    rw [append_assoc] at hholds
    have hdone : filesAt home done ++ [(home ++ partsText f.1, f.2)] = filesAt home (done ++ [f]) := by simp [filesAt]
    rw [hdone] at hholds
    obtain ⟨d', hcalm, hholds'⟩ := ih (done ++ [f]) (by simp) hholds
    refine ⟨d', ?_, hholds'⟩
    have hvalid : validateArchivePath (.ofText (manifestEntry libs f).path) = .ok (slashed (partsText f.1)) := hplace.rel hf
    rw [length_append, length_singleton, ← Nat.add_assoc] at hcalm
    rw [map_cons]
    unfold installFiles
    rw [hvalid]
    dsimp only
    rw [hplace.join hf, hplace.join hf]
    exact (calm_createDirAll (h.dirs_free hdest')).bind ((calm_orFail hinstall).bind hcalm)

end Installation

/-! ## The whole -/

section Whole

variable {libs : RestoreLibs} {staging home : Location} {d₀ : Disk}

/-- A disk that has nothing where the staging directory will be, nothing in the home, and no file above either. -/
structure Fresh (staging home : Location) (d₀ : Disk) : Prop where
  staging_none : ∀ x, staging <+: x → d₀.get x = none
  home_none : ∀ x, home <+: x → x ≠ home → d₀.get x = none
  staging_above : ∀ x, x <+: staging → d₀.isFile x = false
  home_above : ∀ x, x <+: home → d₀.isFile x = false

theorem Fresh.staging_ne_nil (h : Fresh staging home d₀) : staging ≠ [] := by
  rintro rfl
  have := h.staging_none [] (prefix_refl _)
  simp [Disk.get] at this

theorem Apart.roots (hapart : Apart staging home) : RootsApart [staging, home] := by
  intro r hr r' hr' hpre
  rcases mem_pair.mp hr with rfl | rfl <;> rcases mem_pair.mp hr' with rfl | rfl
  · rfl
  · exact absurd hpre hapart.1
  · exact absurd hpre hapart.2
  · rfl

/-- The disk with its staging directory. -/
theorem Fresh.holds (h : Fresh staging home d₀) (hapart : Apart staging home) :
    Holds d₀ [staging, home] [] (d₀.addDirs staging) := by
  have hbare : Holds d₀ [staging, home] [] d₀ := by
    refine ⟨fun x bytes hx => ⟨fun hget => ?_, nofun⟩, fun x hx hdir => ?_, fun r hr => ?_, fun x _ => .inl rfl⟩
    · obtain ⟨r, hr, hpre⟩ := hx
      rcases mem_pair.mp hr with rfl | rfl
      · cases (h.staging_none x hpre).symm.trans hget
      · by_cases hx : x = r
        · exact absurd hget (isFile_eq_false.mp (h.home_above x (hx ▸ prefix_refl _)) bytes)
        · cases (h.home_none x hpre hx).symm.trans hget
    · obtain ⟨r, hr, hpre⟩ := hx
      rcases mem_pair.mp hr with rfl | rfl
      · cases (h.staging_none x hpre).symm.trans hdir
      · by_cases hx : x = r
        · exact .inl (hx ▸ hr)
        · cases (h.home_none x hpre hx).symm.trans hdir
    · rcases mem_pair.mp hr with rfl | rfl
      · exact h.staging_above
      · exact h.home_above
  exact hbare.addRoot hapart.roots mem_cons_self

theorem calm_prepare (h : Fresh staging home d₀) (force : Bool) :
    Calm (prepare false force staging home) d₀ () (d₀.addDirs staging) := by
  have hnone : (d₀.get staging).isSome = false := by rw [h.staging_none staging (prefix_refl _)]; rfl
  have hmarkers : ∀ marker ∈ homeMarkers, (d₀.get (home ++ marker)).isSome = false := by
    intro marker hmarker
    have hne : marker ≠ [] := by
      revert marker
      decide
    rw [h.home_none _ (prefix_append _ _) (by simpa using hne)]
    rfl
  have hstate : (homeHasState home homeMarkers).always fileSystem none d₀ = (false, d₀) := by
    have hall : ∀ markers : List Location, (∀ marker ∈ markers, (d₀.get (home ++ marker)).isSome = false) →
        (homeHasState home markers).always fileSystem none d₀ = (false, d₀) := by
      intro markers hnone
      induction markers with
      | nil => rfl
      | cons marker markers ih =>
        unfold homeHasState
        rw [Prog.always_bind, always_existsAt, hnone marker mem_cons_self]
        exact ih fun m hm => hnone m (mem_cons_of_mem _ hm)
    exact hall homeMarkers hmarkers
  have hfresh : Calm (do
      if ← (existsAt staging : Restoring _) then orFail (removeDirAll staging) .io
      orFail (createDirAll staging) .io : Restoring Unit) d₀ () (d₀.addDirs staging) := by
    refine (calm_lift always_existsAt).bind ?_
    rw [hnone]
    exact calm_createDirAll h.staging_above
  unfold prepare
  cases force with
  | true => exact hfresh
  | false => exact (calm_lift hstate).bind hfresh

/-- An archive with the files and then the manifest. -/
def archiveOf (files : List (Text × Bytes)) (manifestBytes : Bytes) : Archive :=
  .entries (files.map fileItem ++ [manifestItem manifestBytes])

/-- **A restore into an empty home succeeds**, if the paths can be placed, none is a temporary name or the manifest's, and
    the chains that are looked at are in order; the home then has just the files of the archive. -/
theorem calm_restoreBackup (hloc : proc.locate stagingPath = staging) (hapart : Apart staging home)
    (hfresh : Fresh staging home d₀) (hplace : Placeable (files.map (·.1)))
    (hnames : ∀ f ∈ files, partsText f.1 ≠ [manifestName]) (hsizes : ∀ f ∈ files, f.2.length ≤ maxRestoreFileBytes)
    (htemps : TempsApart proc.pid proc.counter home (files.map (·.1)))
    (hparse : libs.parseManifest manifestBytes = .ok manifest) (hmsize : manifestBytes.length ≤ maxRestoreFileBytes)
    (hversion : manifest.formatVersion = backupFormatVersion)
    (hmfiles : manifest.files = files.map (manifestEntry libs))
    (hchains : ∀ d, Holds d₀ [staging, home] (filesAt staging files) d → ∀ id ∈ chainedIds manifest.files,
      LogFine libs d (checkedLog staging id))
    (haudit : ∀ d, Holds d₀ [staging, home] (filesAt staging files) d → (d.get (staging ++ [auditFile])).isSome →
      AuditFine libs d (proc.supercliHome stagingPath ++ [auditFile])) (force : Bool) :
    ∃ report d', Calm (restoreBackup libs proc false (archiveOf files manifestBytes) stagingPath home force) d₀ report d' ∧
      (∀ x bytes, home <+: x → (d'.get x = some (.file bytes) ↔ (x, bytes) ∈ filesAt home files)) ∧
      (∀ x, ¬ staging <+: x → ¬ home <+: x →
        d'.get x = d₀.get x ∨ (d'.get x = some .dir ∧ (x <+: staging ∨ x <+: home))) := by
  have hroots := hapart.roots
  have hstaging : staging ∈ [staging, home] := by simp
  have hhome : home ∈ [staging, home] := by simp
  -- the files are staged
  obtain ⟨d₁, hholds₁, hextract⟩ := calm_extractEntries libs hroots hstaging [manifestItem manifestBytes] []
    (hfresh.holds hapart) hplace hnames hsizes none
  rw [nil_append] at hholds₁
  have hlast : Calm (extractEntries libs staging [manifestItem manifestBytes] none) d₁ (some manifest) d₁ := by
    unfold extractEntries
    rw [Option.isSome_none, readEntry_manifestItem hparse hmsize]
    exact calm_pure _
  have hverified : Calm (verified libs staging (proc.supercliHome stagingPath) (archiveOf files manifestBytes))
      (d₀.addDirs staging) manifest d₁ := by
    have harchive : Calm (extractArchive libs staging (archiveOf files manifestBytes)) (d₀.addDirs staging) manifest d₁ :=
      (hextract _ _ hlast).bind (calm_pure _)
    refine harchive.bind ((calm_verifyStagedManifest hstaging hfresh.staging_ne_nil hplace hholds₁ hversion
      hmfiles).bind ?_)
    exact (calm_checkChains (hchains d₁ hholds₁)).bind ((calm_checkAudit (haudit d₁ hholds₁)).bind (calm_pure _))
  -- and installed
  have hholds₂ : Holds d₀ [staging, home] (filesAt staging files ++ filesAt home []) (d₁.addDirs home) := by
    simpa [filesAt] using hholds₁.addRoot hroots hhome
  obtain ⟨d₂, hinstall, hholds₃⟩ := calm_installFiles hapart hroots hhome hstaging libs proc.pid proc.counter
    hplace htemps [] rfl hholds₂
  rw [← hmfiles] at hinstall
  obtain ⟨report, hall⟩ : ∃ report, Calm (do
      let manifest ← verified libs staging (proc.supercliHome stagingPath) (archiveOf files manifestBytes)
      installAll proc staging home manifest : Restoring RestoreReport) (d₀.addDirs staging) report d₂ :=
    ⟨_, hverified.bind ((calm_createDirAll (hholds₁.above home hhome)).bind (hinstall.bind (calm_pure _)))⟩
  -- taking the staging directory away changes nothing outside of it
  have hkeep : ∀ x, ¬ staging <+: x → ((removeDirAll staging).always fileSystem none d₂).2.get x = d₂.get x := by
    intro x hx
    exact answer_get ((quiet_below (prefix_refl staging)).2.2 x hx)
  refine ⟨report, ((removeDirAll staging).always fileSystem none d₂).2, ?_, fun x bytes hx => ?_, fun x hs hh => ?_⟩
  · unfold restoreBackup
    rw [hloc]
    exact (calm_prepare hfresh force).bind ((calm_lift hall).bind ((calm_lift rfl).bind (calm_pure _)))
  · rw [hkeep x fun hs => hapart.not_both hs hx, hholds₃.files x bytes ⟨home, hhome, hx⟩, mem_append]
    refine ⟨fun hmem => hmem.resolve_left fun hstaged => ?_, .inr⟩
    obtain ⟨f, -, heq⟩ := mem_map.mp hstaged
    exact hapart.not_both (prefix_append _ _) ((Prod.mk.inj heq).1 ▸ hx)
  · rw [hkeep x hs]
    refine (hholds₃.outside x ?_).imp id fun hout => ⟨hout.1, ?_⟩
    · intro r hr
      rcases mem_pair.mp hr with rfl | rfl
      · exact hs
      · exact hh
    · obtain ⟨-, r, hr, hpre⟩ := hout
      rcases mem_pair.mp hr with rfl | rfl
      · exact .inl hpre
      · exact .inr hpre

end Whole

end Supercli.Backup
