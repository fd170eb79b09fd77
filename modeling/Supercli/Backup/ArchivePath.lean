import Supercli.Lib.Disk
import Supercli.Lib.TextLog

/-!
# `Backup.ArchivePath` — the spellings of a path in an archive

`validate_archive_path` walks `Path::components`, which skips repeated separators and inner `.` components, and joins what
it finds. Everything that extracts, checks or installs a file goes through it; `partsOf` is what a spelling comes down to,
and `join_validateArchivePath` says that the joined text leads to just these parts below any directory.
-/

namespace Supercli.Backup

open List Option

/-- A path as the system hands it over; `none` stands for bytes that are not UTF-8. -/
abbrev RawPath := List (Option Char)

/-- The path of a text. -/
def RawPath.ofText (text : Text) : RawPath := text.map some

/-- `Path::display`. -/
def RawPath.display (path : RawPath) : Text := path.map fun c => c.getD (Char.ofNat 0xFFFD)

/-- `OsStr::to_str`. -/
def RawPath.toStr (path : RawPath) : Option Text := path.mapM id

/-- `std::path::Component`. -/
inductive Component
  | rootDir
  | curDir
  | parentDir
  | normal (part : RawPath)
deriving DecidableEq

/-- One piece between separators: empty pieces and `.` are skipped. -/
def component : RawPath → Option Component
  | [] => none
  | [some '.'] => none
  | [some '.', some '.'] => some .parentDir
  | part => some (.normal part)

def RawPath.isAbsolute (path : RawPath) : Bool := path.head? = some (some '/')

/-- `Path::components`; a leading `.` of a relative path is kept. -/
def RawPath.components (path : RawPath) : List Component :=
  let pieces := path.splitOn (some '/')
  (if path.isAbsolute then [.rootDir] else if pieces.head? = some [some '.'] then [.curDir] else []) ++
    pieces.filterMap component

/-- Failure modes of backup and restore. -/
inductive BackupError
  | io (message : String)
  | homeNotEmpty (home : Location)
  | hostRunning (home : Location)
  | archiveInvalid (message : String)
  | hashMismatch (path : Text)
  | chainInvalid (session : Text) (reason : String)
  | unsupportedFormat (version : Nat)
deriving DecidableEq

/-- One component of an archive path: appended to what is there, or refused. -/
def pushComponent (path : RawPath) (rel : Text) : Component → Except BackupError Text
  | .normal part =>
    match RawPath.toStr part with
    | none => .error (.archiveInvalid "non-UTF8 path in archive")
    | some s => .ok ((if rel = [] then rel else rel ++ ['/']) ++ s)
  | _ => .error (.archiveInvalid ("unsafe path " ++ String.ofList path.display ++ " in archive"))

def validateArchivePath (path : RawPath) : Except BackupError Text :=
  if path.isAbsolute then .error (.archiveInvalid ("absolute path " ++ String.ofList path.display))
  else match path.components.foldlM (pushComponent path) [] with
    | .error e => .error e
    | .ok rel => if rel = [] then .error (.archiveInvalid "empty path in archive") else .ok rel

/-- How the system reads one piece of a path. -/
def enter (at_ : Location) (piece : Text) : Location :=
  if piece = [] ∨ piece = ['.'] then at_
  else if piece = ['.', '.'] then at_.dropLast
  else at_ ++ [piece]

/-- `base.join(rel)`, and where the system finds it. -/
def join (base : Location) (rel : Text) : Location :=
  (rel.splitOn '/').foldl enter (if rel.head? = some '/' then [] else base)

/-! ## What a spelling comes down to -/

/-- The text of a component that may stand in an archive path. -/
def Component.part : Component → Option Name
  | .normal part => RawPath.toStr part
  | _ => none

/-- The parts of a path that is accepted. -/
def partsOf (path : RawPath) : Option Location :=
  match path.components.mapM Component.part with
  | some [] => none
  | some parts => some parts
  | none => none

/-- A name that is not read as something else. -/
def PlainName (name : Name) : Prop := name ≠ [] ∧ name ≠ ['.'] ∧ name ≠ ['.', '.'] ∧ '/' ∉ name

instance (name : Name) : Decidable (PlainName name) :=
  inferInstanceAs (Decidable (_ ∧ _ ∧ _ ∧ _))

/-- The parts with separators between them. -/
def slashed (parts : Location) : Text := List.intercalate ['/'] parts

variable {parts : Location} {path : RawPath} {name : Name}

theorem enter_plain (h : PlainName name) : enter at_ name = at_ ++ [name] := by
  obtain ⟨h1, h2, h3, -⟩ := h
  simp [enter, h1, h2, h3]

theorem foldl_enter (h : ∀ name ∈ parts, PlainName name) : parts.foldl enter at_ = at_ ++ parts := by
  induction parts generalizing at_ with
  | nil => simp
  | cons name parts ih =>
    rw [foldl_cons, enter_plain (h name mem_cons_self),
      ih (fun n hn => h n (mem_cons_of_mem _ hn)), append_assoc, singleton_append]

theorem slashed_head (h : ∀ name ∈ parts, PlainName name) : (slashed parts).head? ≠ some '/' := by
  cases parts with
  | nil => simp [slashed]
  | cons name parts =>
    obtain ⟨hne, -, -, hslash⟩ := h name mem_cons_self
    cases name with
    | nil => exact absurd rfl hne
    | cons c name =>
      have hc : c ≠ '/' := fun hc => hslash (hc ▸ mem_cons_self)
      cases parts with
      | nil => simpa [slashed] using hc
      | cons => simpa [slashed, intercalate_cons_cons] using hc

/-- Joined parts lead to the parts. -/
theorem join_slashed (hne : parts ≠ []) (h : ∀ name ∈ parts, PlainName name) :
    join base (slashed parts) = base ++ parts := by
  have hsplit : (slashed parts).splitOn '/' = parts :=
    splitOn_intercalate '/' (fun name hname => (h name hname).2.2.2) hne
  rw [join, hsplit, if_neg (slashed_head h), foldl_enter h]

/-! ## Validation -/

theorem slashed_cons (name : Name) :
    slashed (name :: parts) = name ++ parts.flatMap fun part => '/' :: part := by
  induction parts generalizing name with
  | nil => simp [slashed]
  | cons next parts ih =>
    have hrec := ih next
    simp only [slashed] at hrec ⊢
    rw [intercalate_cons_cons, hrec]
    simp

/-- The text grown by one part. -/
def pushPart (rel : Text) (s : Text) : Text := (if rel = [] then rel else rel ++ ['/']) ++ s

theorem foldl_pushPart (hrel : rel ≠ []) :
    parts.foldl pushPart rel = rel ++ parts.flatMap fun part => '/' :: part := by
  induction parts generalizing rel with
  | nil => simp
  | cons part parts ih =>
    have hpush : pushPart rel part = rel ++ '/' :: part := by simp [pushPart, hrel]
    rw [foldl_cons, hpush, ih (by simp [hrel])]
    simp

/-- The loop of `validate_archive_path` accepts just the components that are parts. -/
theorem foldlM_pushComponent (path : RawPath) (comps : List Component) (rel : Text) :
    (∀ parts, comps.mapM Component.part = some parts →
      comps.foldlM (pushComponent path) rel = .ok (parts.foldl pushPart rel)) ∧
    (comps.mapM Component.part = none → ∃ e, comps.foldlM (pushComponent path) rel = .error e) := by
  induction comps generalizing rel with
  | nil => exact ⟨fun parts h => by simp at h; subst h; rfl, fun h => by simp at h⟩
  | cons comp comps ih =>
    cases hpart : comp.part with
    | none =>
      have hpush : ∃ e, pushComponent path rel comp = .error e := by
        cases comp with
        | normal part =>
          have hstr : RawPath.toStr part = none := hpart
          exact ⟨_, by simp only [pushComponent, hstr]; rfl⟩
        | rootDir | curDir | parentDir => exact ⟨_, rfl⟩
      obtain ⟨e, he⟩ := hpush
      refine ⟨fun parts h => by simp [mapM_cons, hpart] at h, fun _ => ⟨e, ?_⟩⟩
      rw [foldlM_cons, he]
      rfl
    | some s =>
      have hpush : pushComponent path rel comp = .ok (pushPart rel s) := by
        cases comp with
        | normal part =>
          have hstr : RawPath.toStr part = some s := hpart
          simp only [pushComponent, hstr]
          rfl
        | rootDir | curDir | parentDir => cases hpart
      have hstep : (comp :: comps).foldlM (pushComponent path) rel =
          comps.foldlM (pushComponent path) (pushPart rel s) := by
        rw [foldlM_cons, hpush]
        rfl
      rw [hstep, mapM_cons, hpart]
      cases hrest : comps.mapM Component.part with
      | none => exact ⟨fun parts h => by simp at h, fun _ => (ih (pushPart rel s)).2 hrest⟩
      | some rest =>
        refine ⟨fun parts h => ?_, fun h => by simp at h⟩
        have hparts : s :: rest = parts := by simpa using h
        rw [← hparts]
        exact (ih (pushPart rel s)).1 rest hrest

theorem toStr_eq_some (h : RawPath.toStr part = some s) : part = s.map some := by
  induction part generalizing s with
  | nil =>
    have : s = [] := by simpa [RawPath.toStr] using h.symm
    simp [this]
  | cons c part ih =>
    cases c with
    | none => simp [RawPath.toStr, mapM_cons] at h
    | some c =>
      cases hrest : RawPath.toStr part with
      | none =>
        have hnone : part.mapM id = none := hrest
        simp [RawPath.toStr, mapM_cons, hnone] at h
      | some rest =>
        have hsome : part.mapM id = some rest := hrest
        have hs : c :: rest = s := by simpa [RawPath.toStr, mapM_cons, hsome] using h
        rw [← hs, ih hrest]
        rfl

/-- What a component that is a part is read as. -/
theorem plainName_of_component (hpiece : some '/' ∉ piece) (hcomp : component piece = some comp)
    (hpart : comp.part = some name) : PlainName name := by
  have hnormal : comp = .normal piece := by
    unfold component at hcomp
    split at hcomp
    · cases hcomp
    · cases hcomp
    · obtain rfl := some.inj hcomp
      cases hpart
    · exact (some.inj hcomp).symm
  subst hnormal
  have hmap : piece = name.map some := toStr_eq_some hpart
  subst hmap
  refine ⟨?_, ?_, ?_, ?_⟩
  · rintro rfl
    cases hcomp
  · rintro rfl
    cases hcomp
  · rintro rfl
    cases hcomp
  · intro hmem
    exact hpiece (mem_map_of_mem hmem)

theorem mem_of_mapM {f : α → Option β} {xs : List α} {ys : List β} (h : xs.mapM f = some ys) {y : β}
    (hy : y ∈ ys) : ∃ x ∈ xs, f x = some y := by
  induction xs generalizing ys with
  | nil =>
    have : ys = [] := by simpa using h.symm
    simp [this] at hy
  | cons x xs ih =>
    cases hx : f x with
    | none => simp [mapM_cons, hx] at h
    | some z =>
      cases hrest : xs.mapM f with
      | none => simp [mapM_cons, hx, hrest] at h
      | some zs =>
        have hys : z :: zs = ys := by simpa [mapM_cons, hx, hrest] using h
        rw [← hys] at hy
        rcases mem_cons.mp hy with rfl | hy
        · exact ⟨x, mem_cons_self, hx⟩
        · obtain ⟨x', hx', hf⟩ := ih hrest hy
          exact ⟨x', mem_cons_of_mem _ hx', hf⟩

/-- The parts of an accepted path are plain names, and there is one. -/
theorem partsOf_plain (h : partsOf path = some parts) : parts ≠ [] ∧ ∀ name ∈ parts, PlainName name := by
  unfold partsOf at h
  split at h
  · cases h
  · rename_i found hne hmap
    obtain rfl := some.inj h
    refine ⟨fun hnil => hne (by rw [hnil]), fun name hname => ?_⟩
    obtain ⟨comp, hcomp, hpart⟩ := mem_of_mapM hmap hname
    rcases mem_append.mp hcomp with hlead | hpiece
    · -- the leading component is never a part
      have hlead' : comp.part = none := by
        split at hlead
        · simp only [mem_singleton] at hlead
          rw [hlead]
          rfl
        · split at hlead
          · simp only [mem_singleton] at hlead
            rw [hlead]
            rfl
          · simp at hlead
      rw [hlead'] at hpart
      cases hpart
    · obtain ⟨piece, hpiece, hcomp⟩ := mem_filterMap.mp hpiece
      exact plainName_of_component (not_mem_of_mem_splitOn hpiece) hcomp hpart
  · cases h

theorem slashed_ne_nil (hne : parts ≠ []) (h : ∀ name ∈ parts, PlainName name) : slashed parts ≠ [] := by
  cases parts with
  | nil => exact absurd rfl hne
  | cons name parts =>
    rw [slashed_cons]
    simp [(h name mem_cons_self).1]

/-- **A path is accepted as its parts joined**, or refused. -/
theorem validateArchivePath_eq (path : RawPath) :
    (∀ parts, partsOf path = some parts → validateArchivePath path = .ok (slashed parts)) ∧
    (partsOf path = none → ∃ e, validateArchivePath path = .error e) := by
  have hloop := foldlM_pushComponent path path.components []
  by_cases habs : path.isAbsolute
  · have hnone : path.components.mapM Component.part = none := by
      simp [RawPath.components, habs, Component.part]
    refine ⟨fun parts h => ?_, fun _ => ⟨_, by rw [validateArchivePath, if_pos habs]⟩⟩
    simp [partsOf, hnone] at h
  · rw [validateArchivePath, if_neg habs]
    cases hmap : path.components.mapM Component.part with
    | none =>
      obtain ⟨e, he⟩ := hloop.2 hmap
      refine ⟨fun parts h => by simp [partsOf, hmap] at h, fun _ => ⟨e, by rw [he]⟩⟩
    | some parts =>
      have hfold := hloop.1 parts hmap
      cases parts with
      | nil =>
        refine ⟨fun parts h => by simp [partsOf, hmap] at h, fun _ => ⟨.archiveInvalid "empty path in archive", ?_⟩⟩
        rw [hfold]
        rfl
      | cons name rest =>
        have hparts : partsOf path = some (name :: rest) := by simp [partsOf, hmap]
        have hplain := partsOf_plain hparts
        have hname : name ≠ [] := (hplain.2 name mem_cons_self).1
        have htext : (name :: rest).foldl pushPart [] = slashed (name :: rest) := by
          have hfirst : pushPart [] name = name := by simp [pushPart]
          rw [foldl_cons, hfirst, foldl_pushPart hname, slashed_cons]
        refine ⟨fun parts h => ?_, fun h => by simp [hparts] at h⟩
        obtain rfl := mem_unique hparts h
        rw [hfold, htext]
        exact if_neg (slashed_ne_nil hplain.1 hplain.2)

theorem validateArchivePath_ok (h : validateArchivePath path = .ok rel) :
    ∃ parts, partsOf path = some parts ∧ rel = slashed parts := by
  cases hparts : partsOf path with
  | none =>
    obtain ⟨e, he⟩ := (validateArchivePath_eq path).2 hparts
    rw [he] at h
    cases h
  | some parts =>
    rw [(validateArchivePath_eq path).1 parts hparts] at h
    exact ⟨parts, rfl, (Except.ok.inj h).symm⟩

theorem splitOn_ofText (hne : parts ≠ []) (h : ∀ name ∈ parts, PlainName name) :
    (RawPath.ofText (slashed parts)).splitOn (some '/') = parts.map RawPath.ofText := by
  have hmap : ∀ parts : Location,
      RawPath.ofText (slashed parts) = intercalate [some '/'] (parts.map RawPath.ofText) := by
    intro parts
    induction parts with
    | nil => rfl
    | cons name parts ih =>
      cases parts with
      | nil => simp [slashed]
      | cons =>
        simp only [slashed, map_cons, intercalate_cons_cons] at ih ⊢
        rw [← ih]
        simp [RawPath.ofText]
  rw [hmap]
  refine splitOn_intercalate _ ?_ (by simpa using hne)
  intro piece hpiece hmem
  obtain ⟨name, hname, rfl⟩ := mem_map.mp hpiece
  obtain ⟨c, hc, hslash⟩ := mem_map.mp hmem
  exact (h name hname).2.2.2 (some.inj hslash ▸ hc)

theorem toStr_ofText : RawPath.toStr (RawPath.ofText s) = some s := by
  induction s with
  | nil => rfl
  | cons c s ih =>
    have hs : (RawPath.ofText s).mapM id = some s := ih
    simp [RawPath.toStr, RawPath.ofText, mapM_cons] at hs ⊢
    simp [hs]

theorem component_plain (h : PlainName name) :
    component (RawPath.ofText name) = some (.normal (RawPath.ofText name)) := by
  obtain ⟨h1, h2, h3, -⟩ := h
  unfold component
  split
  · rename_i heq
    exact absurd (map_eq_nil_iff.mp heq) h1
  · rename_i heq
    have heq' : name.map some = ['.'].map some := heq
    exact absurd (map_injective_iff.mpr (fun _ _ => some.inj) heq') h2
  · rename_i heq
    have heq' : name.map some = ['.', '.'].map some := heq
    exact absurd (map_injective_iff.mpr (fun _ _ => some.inj) heq') h3
  · rfl

/-- **Parts joined are a spelling of the parts.** -/
theorem partsOf_slashed (hne : parts ≠ []) (h : ∀ name ∈ parts, PlainName name) :
    partsOf (RawPath.ofText (slashed parts)) = some parts := by
  have habs : (RawPath.ofText (slashed parts)).isAbsolute = false := by
    have hhead := slashed_head h
    cases htext : slashed parts with
    | nil => rfl
    | cons =>
      rw [htext] at hhead
      simpa [RawPath.isAbsolute, RawPath.ofText] using hhead
  have hcur : (parts.map RawPath.ofText).head? ≠ some [some '.'] := by
    cases parts with
    | nil => exact absurd rfl hne
    | cons name parts =>
      intro heq
      have heq' : name.map some = ['.'].map some := by simpa [RawPath.ofText] using heq
      exact (h name mem_cons_self).2.1 (map_injective_iff.mpr (fun _ _ => some.inj) heq')
  have hcomps : (RawPath.ofText (slashed parts)).components = parts.map fun name => .normal (RawPath.ofText name) := by
    simp only [RawPath.components, habs, splitOn_ofText hne h, if_neg hcur, Bool.false_eq_true, if_false, nil_append]
    clear hcur habs hne
    induction parts with
    | nil => rfl
    | cons name parts ih =>
      rw [map_cons, filterMap_cons, component_plain (h name mem_cons_self), map_cons,
        ih fun n hn => h n (mem_cons_of_mem _ hn)]
  have hmapM : (parts.map fun name => Component.normal (RawPath.ofText name)).mapM Component.part = some parts := by
    clear hcomps hcur habs hne h
    induction parts with
    | nil => rfl
    | cons name parts ih =>
      rw [map_cons, mapM_cons, ih]
      simp [Component.part, toStr_ofText]
  unfold partsOf
  rw [hcomps, hmapM]
  cases parts with
  | nil => exact absurd rfl hne
  | cons => rfl

/-- **What is accepted leads to its parts.** -/
theorem join_validateArchivePath (h : validateArchivePath path = .ok rel) (base : Location) :
    ∃ parts, partsOf path = some parts ∧ join base rel = base ++ parts := by
  obtain ⟨parts, hparts, rfl⟩ := validateArchivePath_ok h
  exact ⟨parts, hparts, join_slashed (partsOf_plain hparts).1 (partsOf_plain hparts).2⟩

end Supercli.Backup
