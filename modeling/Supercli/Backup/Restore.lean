import Supercli.Audit.GrantAudit
import Supercli.Backup.ArchivePath

/-!
# `Backup.Restore` — restoring an archive

`restore_backup` unpacks the archive into a staging directory beside it, checks what it staged against the manifest, checks
the hash chains of the staged review logs and of the grant audit, and only then installs, file by file. The archive is what
the tar reader hands out; SHA-256 and the JSON parsers are parameters.
-/

namespace Supercli.Backup

/-- One archived file's identity in the manifest. -/
structure ManifestEntry where
  path : Text
  sha256 : String
  sizeBytes : Nat
deriving DecidableEq

structure BackupManifest where
  formatVersion : Nat
  createdUnixMs : Nat
  supercliVersion : String
  files : List ManifestEntry
deriving DecidableEq

def backupFormatVersion : Nat := 1

def manifestName : Text := "manifest.json".toList

def maxRestoreFileBytes : Nat := 2 * 1024 * 1024 * 1024

def reviewsFile : Name := "action-reviews.jsonl".toList

def auditFile : Name := "grant-audit.jsonl".toList

def sessionsDir : Name := "app-sessions".toList

/-! ## What the tar reader hands out -/

/-- `tar::EntryType`, as far as it is looked at. -/
inductive EntryKind
  | regular
  | symlink
  | hardLink
  | other
deriving DecidableEq

/-- One entry: the header's size and path if they can be read, the bytes that are delivered, and what breaks them off. -/
structure TarEntry where
  kind : EntryKind
  size : Except String Nat
  path : Except String RawPath
  data : Bytes
  readError : Option String

inductive Archive
  | unopened (message : String)
  | unreadable (message : String)
  | entries (items : List (Except String TarEntry))

/-- The libraries restore is linked with. -/
structure RestoreLibs where
  sha256 : Bytes → String
  parseJson : Text → Except String Json
  parseAudit : Text → Except String GrantAuditEntry
  parseManifest : Bytes → Except String BackupManifest

def RestoreLibs.chain (libs : RestoreLibs) : ChainLibs := ⟨libs.sha256, libs.parseJson⟩

def RestoreLibs.audit (libs : RestoreLibs) : AuditLibs := ⟨libs.sha256, libs.parseAudit⟩

/-- The process that restores: where a path leads from its working directory, the home without an override, and what
    temporary names are made of. -/
structure Process where
  locate : RawPath → Location
  realHome : Location
  pid : Nat
  counter : Nat

/-- `supercli_home` with `SUPERCLI_HOME` set to a path. -/
def Process.supercliHome (proc : Process) (override : RawPath) : Location :=
  let trimmed := trimText override.display
  if trimmed = [] then proc.realHome else proc.locate (.ofText trimmed)

variable (l : Location)

/-- A location in a message. -/
def showLocation : String := String.ofList (l.flatMap fun name => '/' :: name)

/-- A program that may fail. -/
abbrev Restoring := ExceptT BackupError (Prog Fs)

/-- An operation whose failure ends the restore. -/
def orFail {α : Type} (p : Prog Fs (Except String α)) (wrap : String → BackupError) : Restoring α :=
  ExceptT.mk (p >>= fun r => pure (match r with | .ok a => .ok a | .error e => .error (wrap e)))

def createDirAll : Prog Fs (Except String Unit) := Prog.perform (S := Fs) (.createDirAll l)

def createFile : Prog Fs (Except String Unit) := Prog.perform (S := Fs) (.createFile l)

def appendTo (bytes : Bytes) : Prog Fs (Except String Unit) := Prog.perform (S := Fs) (.append l bytes)

def copyFile (src dst : Location) : Prog Fs (Except String Unit) := Prog.perform (S := Fs) (.copy src dst)

def setMode : Prog Fs (Except String Unit) := Prog.perform (S := Fs) (.setMode l)

def renameFile (src dst : Location) : Prog Fs (Except String Unit) := Prog.perform (S := Fs) (.rename src dst)

def removeFile : Prog Fs (Except String Unit) := Prog.perform (S := Fs) (.removeFile l)

def removeDirAll : Prog Fs (Except String Unit) := Prog.perform (S := Fs) (.removeDirAll l)

def walkFiles : Prog Fs (Except String (List Location)) := Prog.perform (S := Fs) (.walk l)

def readFile : Prog Fs (Except ReadError Bytes) := Prog.perform (S := Fs) (.read l)

def existsAt : Prog Fs Bool := Prog.perform (S := Fs) (.existsAt l)

section Restore

variable (libs : RestoreLibs)

/-! ## Extraction -/

/-- What an entry is for. -/
inductive Extracted
  | skipped
  | manifest (m : BackupManifest)
  | staged (rel : Text) (data : Bytes) (readError : Option String)

/-- The checks `extract_archive` makes of one entry before anything is written. -/
def readEntry (haveManifest : Bool) : Except String TarEntry → Except BackupError Extracted
  | .error e => .error (.archiveInvalid ("tar entry: " ++ e))
  | .ok entry =>
    if entry.kind = .symlink ∨ entry.kind = .hardLink then
      .error (.archiveInvalid "archive contains a symlink/hardlink")
    else if entry.kind ≠ .regular then .ok .skipped
    else match entry.size with
      | .error e => .error (.archiveInvalid ("tar header size: " ++ e))
      | .ok size =>
        if maxRestoreFileBytes < size then
          let shown := match entry.path with | .ok p => String.ofList p.display | .error _ => ""
          .error (.archiveInvalid ("entry " ++ shown ++ " exceeds the " ++ toString maxRestoreFileBytes ++
            "-byte restore limit"))
        else match entry.path with
          | .error e => .error (.archiveInvalid ("tar path: " ++ e))
          | .ok raw =>
            match validateArchivePath raw with
            | .error e => .error e
            | .ok rel =>
              if rel = manifestName then
                if haveManifest then .error (.archiveInvalid "duplicate manifest in archive")
                else match entry.readError with
                  | some e => .error (.archiveInvalid ("read manifest: " ++ e))
                  | none =>
                    match libs.parseManifest entry.data with
                    | .error e => .error (.archiveInvalid ("parse manifest: " ++ e))
                    | .ok m => .ok (.manifest m)
              else .ok (.staged rel entry.data entry.readError)

section

variable (staging : Location)

/-- Put the bytes of an entry into the staging directory. -/
def stageFile (rel : Text) (data : Bytes) (readError : Option String) : Restoring Unit := do
  let dest := join staging rel
  orFail (createDirAll dest.dropLast) .io
  orFail (createFile dest) (fun e => .io ("stage " ++ showLocation dest ++ ": " ++ e))
  orFail (appendTo dest data) .io
  match readError with
  | some e => throw (.io e)
  | none => pure ()

/-- The loop of `extract_archive`, with the manifest found so far. -/
def extractEntries : List (Except String TarEntry) → Option BackupManifest → Restoring (Option BackupManifest)
  | [], manifest => pure manifest
  | item :: rest, manifest =>
    match readEntry libs manifest.isSome item with
    | .error e => throw e
    | .ok .skipped => extractEntries rest manifest
    | .ok (.manifest m) => extractEntries rest (some m)
    | .ok (.staged rel data readError) => do
      stageFile staging rel data readError
      extractEntries rest manifest

def extractArchive : Archive → Restoring BackupManifest
  | .unopened e => throw (.io e)
  | .unreadable e => throw (.archiveInvalid ("read tar: " ++ e))
  | .entries items => do
    match ← extractEntries libs staging items none with
    | none => throw (.archiveInvalid "archive has no manifest")
    | some m => pure m

/-! ## Verification -/

/-- The loop over the manifest: every listed file is staged, with the size and hash it is listed with. -/
def checkListed : List ManifestEntry → List Text → Restoring (List Text)
  | [], seen => pure seen
  | entry :: rest, seen =>
    match validateArchivePath (.ofText entry.path) with
    | .error e => throw e
    | .ok rel =>
      if rel ∈ seen then throw (.archiveInvalid ("duplicate manifest entry " ++ String.ofList rel))
      else do
        match ← (readFile (join staging rel) : Restoring _) with
        | .error _ => throw (.hashMismatch rel)
        | .ok bytes =>
          if bytes.length ≠ entry.sizeBytes ∨ libs.sha256 bytes ≠ entry.sha256 then throw (.hashMismatch rel)
          else checkListed rest (rel :: seen)

/-- The staged files that are not listed. -/
def extraFiles (seen : List Text) : List Location → Except BackupError (List Text)
  | [] => .ok []
  | p :: rest =>
    match validateArchivePath (.ofText (slashed (p.drop staging.length))) with
    | .error e => .error e
    | .ok rel =>
      match extraFiles seen rest with
      | .error e => .error e
      | .ok extras => .ok (if rel ∈ seen then extras else rel :: extras)

def verifyStagedManifest (manifest : BackupManifest) : Restoring Unit := do
  if manifest.formatVersion ≠ backupFormatVersion then throw (.unsupportedFormat manifest.formatVersion)
  else
    let seen ← checkListed libs staging manifest.files []
    let found ← orFail (walkFiles staging) .io
    match extraFiles staging seen found with
    | .error e => throw e
    | .ok [] => pure ()
    | .ok extras =>
      throw (.archiveInvalid ("archive contains files outside the manifest: " ++
        String.ofList (List.intercalate ", ".toList extras)))

/-- Insert into a `BTreeSet` of strings. -/
def btreeInsert (x : Text) : List Text → List Text
  | [] => [x]
  | y :: rest => if x = y then y :: rest else if x < y then x :: y :: rest else y :: btreeInsert x rest

/-- `rest` of a path below `app-sessions/`, as it is spelled. -/
def sessionRest (path : Text) : Option Text :=
  let lead := sessionsDir ++ ['/']
  if lead.isPrefixOf path then some (path.drop lead.length) else none

/-- `rest.split('/').next()`. -/
def firstPiece (rest : Text) : Text := (rest.splitOn '/').headD []

/-- `rest.ends_with("/action-reviews.jsonl")`. -/
def endsWithReviews (rest : Text) : Bool := ('/' :: reviewsFile).isSuffixOf rest

/-- The Sessions of the manifest, and those whose review log is checked. -/
def collectSessions : List ManifestEntry → List Text × List Text → List Text × List Text
  | [], acc => acc
  | entry :: rest, (sessions, chained) =>
    match sessionRest entry.path with
    | none => collectSessions rest (sessions, chained)
    | some tail =>
      let id := firstPiece tail
      collectSessions rest
        (btreeInsert id sessions, if endsWithReviews tail then btreeInsert id chained else chained)

/-- `verify_review_chain`: a log that is not there is in order. -/
def verifyReviewChain (dir : Location) : Prog Fs (Except ChainError Nat) := do
  let path := dir ++ [reviewsFile]
  match ← readFile path with
  | .ok bytes => pure (verifyReviewBytes libs.chain bytes (showLocation path))
  | .error .notFound => pure (.ok 0)
  | .error (.other e) => pure (.error (.io ("open " ++ showLocation path ++ ": " ++ e)))

def checkChains : List Text → Restoring Unit
  | [] => pure ()
  | id :: rest => do
    match ← (verifyReviewChain libs (join (join staging sessionsDir) id) : Restoring _) with
    | .error e => throw (.chainInvalid id e.display)
    | .ok _ => checkChains rest

end

/-- `verify_grant_audit`, at the home that is set. -/
def verifyGrantAuditAt (home : Location) : Prog Fs (Except String Nat) := do
  match ← readFile (home ++ [auditFile]) with
  | .ok bytes => pure (verifyGrantAudit libs.audit bytes)
  | .error .notFound => pure (.ok 0)
  | .error (.other e) => pure (.error e)

/-- The audit of the staged archive, checked with `SUPERCLI_HOME` set to the staging path. -/
def checkAudit (staging auditHome : Location) : Restoring Unit := do
  if ← (existsAt (join staging auditFile) : Restoring _) then
    match ← (verifyGrantAuditAt libs auditHome : Restoring _) with
    | .error e => throw (.chainInvalid "grant-audit".toList e)
    | .ok _ => pure ()
  else pure ()

/-- Everything before the first byte is installed. -/
def verified (staging auditHome : Location) (archive : Archive) : Restoring BackupManifest := do
  let manifest ← extractArchive libs staging archive
  verifyStagedManifest libs staging manifest
  checkChains libs staging (collectSessions manifest.files ([], [])).2
  checkAudit libs staging auditHome
  pure manifest

/-! ## Installation -/

/-- `Path::file_stem` of a name: up to the last dot, unless that is the first character. -/
def fileStem (name : Name) : Name :=
  let before := (name.reverse.dropWhile (· ≠ '.')).tail.reverse
  if '.' ∈ name ∧ before ≠ [] ∧ name ≠ "..".toList then before else name

def installTmpName (pid n : Nat) (dest : Location) : Location :=
  dest.dropLast ++
    [fileStem (dest.getLastD []) ++ ".restore-tmp-".toList ++ (toString pid).toList ++ ['-'] ++ (toString n).toList]

/-- `install_file`: copy, set the mode, rename; the temporary file goes if that fails. -/
def installFile (pid n : Nat) (src dest : Location) : Prog Fs (Except String Unit) := do
  let tmp := installTmpName pid n dest
  let result ← (do
    orFail (copyFile src tmp) .io
    orFail (setMode tmp) .io
    orFail (renameFile tmp dest) .io : Restoring Unit)
  match result with
  | .ok () => pure (.ok ())
  | .error e => do
    let _ ← removeFile tmp
    pure (.error (match e with | .io m => m | _ => ""))

/-- The loop that installs, with the temporary names used up so far. -/
def installFiles (pid : Nat) (staging home : Location) : List ManifestEntry → Nat → Restoring Unit
  | [], _ => pure ()
  | entry :: rest, n =>
    match validateArchivePath (.ofText entry.path) with
    | .error e => throw e
    | .ok rel => do
      let dest := join home rel
      orFail (createDirAll dest.dropLast) .io
      orFail (installFile pid n (join staging rel) dest) (fun e => .io ("install " ++ showLocation dest ++ ": " ++ e))
      installFiles pid staging home rest (n + 1)

structure RestoreReport where
  home : Location
  files : Nat
  sessions : Nat
  chainsVerified : Nat
deriving DecidableEq

def installAll (proc : Process) (staging home : Location) (manifest : BackupManifest) : Restoring RestoreReport := do
  orFail (createDirAll home) .io
  installFiles proc.pid staging home manifest.files proc.counter
  let found := collectSessions manifest.files ([], [])
  pure ⟨home, manifest.files.length, found.1.length, found.2.length⟩

/-! ## The whole -/

/-- `home_has_state`. -/
def homeMarkers : List Location :=
  [["app-state.json".toList], [sessionsDir], ["schedule-leases.db".toList], ["mobile".toList, "devices.json".toList]]

def homeHasState (home : Location) : List Location → Prog Fs Bool
  | [] => pure false
  | marker :: rest => do
    if ← existsAt (home ++ marker) then pure true else homeHasState home rest

/-- What is checked of the home, and the fresh staging directory. -/
def prepare (lockHeld force : Bool) (staging home : Location) : Restoring Unit := do
  if lockHeld then throw (.hostRunning home)
  else
    if !force then
      if ← (homeHasState home homeMarkers : Restoring _) then throw (.homeNotEmpty home)
    if ← (existsAt staging : Restoring _) then orFail (removeDirAll staging) .io
    orFail (createDirAll staging) .io

def restoreBackup (proc : Process) (lockHeld : Bool) (archive : Archive) (stagingPath : RawPath) (home : Location)
    (force : Bool) : Restoring RestoreReport := do
  let staging := proc.locate stagingPath
  prepare lockHeld force staging home
  let result ← (ExceptT.lift (do
    let manifest ← verified libs staging (proc.supercliHome stagingPath) archive
    installAll proc staging home manifest : Restoring RestoreReport).run : Restoring _)
  let _ ← (removeDirAll staging : Restoring _)
  match result with
  | .ok report => pure report
  | .error e => throw e

end Restore

end Supercli.Backup
