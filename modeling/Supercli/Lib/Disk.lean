import Supercli.Lib.Utf8
import Supercli.Lib.Program

/-!
# `Lib.Disk` — a file system without links, and programs over it

A disk maps locations (the names from the root down) to files and directories. Every change is a `patch`: inside a set
of locations the nodes come from another disk, outside of it nothing changes. An operation that succeeds patches what it
says; one that fails for a reason of its own (no space, no permission) may leave anything at the locations it `touches`,
so the environment supplies what it left. What an operation does not touch stays (`answer_get`), and so does what a
program does not touch (`Prog.Makes.ensures_frame`).
-/

abbrev Name := Text

/-- The names from the root of the file system down. -/
abbrev Location := List Name

inductive Node
  | file (bytes : Bytes)
  | dir
deriving DecidableEq

structure Disk where
  nodes : List (Location × Node)

namespace Disk

open List

/-- What is at a location; the root is always a directory. -/
def get (d : Disk) (l : Location) : Option Node :=
  if l = [] then some .dir else (d.nodes.find? fun entry => entry.1 = l).map (·.2)

/-- The disk with the locations of `inside` taken from `other`. -/
def patch (d : Disk) (inside : Location → Bool) (other : Disk) : Disk :=
  ⟨other.nodes.filter (fun entry => inside entry.1) ++ d.nodes.filter (fun entry => !inside entry.1)⟩

theorem find?_filter_key (nodes : List (Location × Node)) (keep : Location → Bool) :
    (nodes.filter fun entry => keep entry.1).find? (fun entry => entry.1 = l) =
      if keep l then nodes.find? (fun entry => entry.1 = l) else none := by
  induction nodes with
  | nil => simp
  | cons entry nodes ih =>
    by_cases hl : entry.1 = l
    · subst hl
      by_cases hk : keep entry.1
      · simp [hk]
      · simp [hk, ih]
    · by_cases hk : keep entry.1
      · simp [hk, hl, ih]
      · simp [hk, hl, ih]

theorem get_patch {d : Disk} :
    (d.patch inside other).get l = if inside l then other.get l else d.get l := by
  unfold get patch
  by_cases hroot : l = []
  · simp [hroot]
  · simp only [hroot, if_false, find?_append, find?_filter_key]
    rw [find?_filter_key d.nodes (fun l => !inside l)]
    cases inside l <;> simp

/-- The disk with one more node. -/
def set (d : Disk) (l : Location) (node : Node) : Disk := d.patch (· = l) ⟨[(l, node)]⟩

theorem get_set {d : Disk} (hl : l ≠ []) :
    (d.set l node).get x = if x = l then some node else d.get x := by
  rw [set, get_patch]
  by_cases hx : x = l
  · subst hx
    simp [get, hl]
  · simp [hx]

/-- The disk without what is at `l` and below. -/
def removeTree (d : Disk) (l : Location) : Disk := d.patch (fun x => l.isPrefixOf x) ⟨[]⟩

theorem get_removeTree {d : Disk} (hl : l ≠ []) : (d.removeTree l).get x = if l <+: x then none else d.get x := by
  rw [removeTree, get_patch]
  by_cases hx : l <+: x
  · have hne : x ≠ [] := fun h => hl (prefix_nil.mp (h ▸ hx))
    simp [hx, get, hne]
  · simp [hx]

/-- The disk with `l` and all above it directories. -/
def addDirs (d : Disk) (l : Location) : Disk := d.patch (fun x => x.isPrefixOf l) ⟨l.inits.map fun x => (x, .dir)⟩

theorem get_addDirs {d : Disk} : (d.addDirs l).get x = if x <+: l then some .dir else d.get x := by
  rw [addDirs, get_patch]
  by_cases hx : x <+: l
  · have hfind : ∀ xs : List Location, x ∈ xs →
        ((xs.map fun x => (x, Node.dir)).find? fun entry => entry.1 = x) = some (x, .dir) := by
      intro xs
      induction xs with
      | nil => exact nofun
      | cons y ys ih =>
        intro hmem
        by_cases hy : y = x
        · simp [hy]
        · have hmem' : x ∈ ys := (mem_cons.mp hmem).resolve_left fun h => hy h.symm
          simp [hy, ih hmem']
    by_cases hroot : x = []
    · simp [hroot, get]
    · simp [hx, get, hroot, hfind l.inits ((mem_inits x l).mpr hx)]
  · simp [hx]

/-- The files below a location, as they are listed. -/
def filesBelow (d : Disk) (l : Location) : List Location :=
  (d.nodes.map (·.1)).filter fun x => l.isPrefixOf x && (match d.get x with | some (.file _) => true | _ => false)

theorem mem_filesBelow {d : Disk} (hl : l ≠ []) :
    x ∈ d.filesBelow l ↔ l <+: x ∧ ∃ bytes, d.get x = some (.file bytes) := by
  unfold filesBelow
  rw [mem_filter]
  constructor
  · rintro ⟨-, h⟩
    cases hget : d.get x with
    | none => simp [hget] at h
    | some node =>
      cases node with
      | file bytes => exact ⟨by simpa [hget] using h, bytes, rfl⟩
      | dir => simp [hget] at h
  · rintro ⟨hx, bytes, hget⟩
    refine ⟨?_, by simp [hx, hget]⟩
    have hne : x ≠ [] := fun h => hl (prefix_nil.mp (h ▸ hx))
    rw [get, if_neg hne] at hget
    obtain ⟨entry, hfind, -⟩ := Option.map_eq_some_iff.mp hget
    have hkey : entry.1 = x := by simpa using find?_some hfind
    exact mem_map.mpr ⟨entry, mem_of_find?_eq_some hfind, hkey⟩

end Disk

/-! ## Operations -/

/-- Why a file could not be read. -/
inductive ReadError
  | notFound
  | other (message : String)
deriving DecidableEq, Repr

inductive FsOp
  | existsAt (l : Location)
  | read (l : Location)
  | walk (l : Location)
  | createDirAll (l : Location)
  | createFile (l : Location)
  | append (l : Location) (bytes : Bytes)
  | copy (src dst : Location)
  | setMode (l : Location)
  | rename (src dst : Location)
  | removeFile (l : Location)
  | removeDirAll (l : Location)

/-- The signature of file-system programs. -/
def Fs : Sig where
  Op := FsOp
  Ans
    | .existsAt _ => Bool
    | .read _ => Except ReadError Bytes
    | .walk _ => Except String (List Location)
    | _ => Except String Unit

namespace Disk

section

variable (d : Disk) (l : Location)

def isFile : Bool := match d.get l with | some (.file _) => true | _ => false

/-- `fs::read`: a location under a file is an error of another kind than one that is not there. -/
def read : Except ReadError Bytes :=
  match d.get l with
  | some (.file bytes) => .ok bytes
  | some .dir => .error (.other "Is a directory")
  | none => if l.inits.any d.isFile then .error (.other "Not a directory") else .error .notFound

/-- May a file be put at the location? -/
def writable : Option String :=
  if d.get l = some .dir then some "Is a directory"
  else if d.get l.dropLast = some .dir then none
  else some "No such file or directory"

/-- Put a file at the location, if one may be there. -/
def place (bytes : Bytes) : Except String Unit × Disk :=
  match d.writable l with
  | some message => (.error message, d)
  | none => (.ok (), d.set l (.file bytes))

end

/-- An operation nothing goes wrong with but what is on the disk. -/
def act (d : Disk) : (o : FsOp) → Fs.Ans o × Disk
  | .existsAt l => ((d.get l).isSome, d)
  | .read l => (d.read l, d)
  | .walk l => (.ok (d.filesBelow l), d)
  | .createDirAll l =>
    if l.inits.any d.isFile then (.error "Not a directory", d) else (.ok (), d.addDirs l)
  | .createFile l => d.place l []
  | .append l bytes =>
    match d.get l with
    | some (.file old) => (.ok (), d.set l (.file (old ++ bytes)))
    | _ => (.error "Bad file descriptor", d)
  | .copy src dst =>
    match d.get src with
    | some (.file bytes) => d.place dst bytes
    | _ => (.error "No such file or directory", d)
  | .setMode l => (if (d.get l).isSome then .ok () else .error "No such file or directory", d)
  | .rename src dst =>
    match d.get src with
    | some (.file bytes) =>
      match d.writable dst with
      | some message => (.error message, d)
      | none => (.ok (), (d.removeTree src).set dst (.file bytes))
    | _ => (.error "No such file or directory", d)
  | .removeFile l => if d.isFile l then (.ok (), d.removeTree l) else (.error "No such file or directory", d)
  | .removeDirAll l => if d.get l = some .dir then (.ok (), d.removeTree l) else (.error "Not a directory", d)

end Disk

namespace FsOp

/-- The locations an operation may change, whether it succeeds or not. -/
def touches : FsOp → Location → Bool
  | .existsAt _, _ => false
  | .read _, _ => false
  | .walk _, _ => false
  | .createDirAll l, x => x.isPrefixOf l
  | .createFile l, x => x = l
  | .append l _, x => x = l
  | .copy _ dst, x => x = dst
  | .setMode _, _ => false
  | .rename src dst, x => src.isPrefixOf x || x = dst
  | .removeFile l, x => l.isPrefixOf x
  | .removeDirAll l, x => l.isPrefixOf x

/-- The answer of an operation that fails for a reason of its own; looking at what is there does not fail. -/
def refused (message : String) : (o : FsOp) → (d : Disk) → Fs.Ans o
  | .existsAt l, d => (d.get l).isSome
  | .read _, _ => .error (.other message)
  | .walk _, _ => .error message
  | .createDirAll _, _ => .error message
  | .createFile _, _ => .error message
  | .append _ _, _ => .error message
  | .copy _ _, _ => .error message
  | .setMode _, _ => .error message
  | .rename _ _, _ => .error message
  | .removeFile _, _ => .error message
  | .removeDirAll _, _ => .error message

end FsOp

/-- A failure of the environment: its message, and the disk from which the touched locations are left. -/
abbrev Fault := Option (String × Disk)

/-- The file system, with failures from the environment. -/
def fileSystem : World Fs Disk Fault where
  answer o d
    | none => d.act o
    | some (message, scrap) => (FsOp.refused message o d, d.patch o.touches scrap)

namespace Disk

variable {x l : Location}

theorem get_set_of_ne {d : Disk} (hx : x ≠ l) : (d.set l node).get x = d.get x := by
  simp [set, get_patch, hx]

theorem get_removeTree_of_not {d : Disk} (hx : l.isPrefixOf x = false) : (d.removeTree l).get x = d.get x := by
  simp [removeTree, get_patch, hx]

theorem get_place_of_ne {d : Disk} (hx : x ≠ l) : (d.place l bytes).2.get x = d.get x := by
  unfold place
  split
  · rfl
  · exact get_set_of_ne hx

theorem patch_false {d : Disk} : d.patch (fun _ => false) other = d := by
  simp [patch]

/-- Looking at the disk leaves it as it is. -/
theorem answer_read : (fileSystem.answer (.read l) d e).2 = d := by
  cases e with
  | none => rfl
  | some left => exact patch_false

theorem answer_walk : (fileSystem.answer (.walk l) d e).2 = d := by
  cases e with
  | none => rfl
  | some left => exact patch_false

theorem answer_existsAt :
    fileSystem.answer (.existsAt l) d e = ((d.get l).isSome, d) := by
  cases e with
  | none => rfl
  | some left => exact Prod.ext rfl patch_false

/-- **Frame.** What an operation does not touch stays. -/
theorem answer_get (h : o.touches x = false) :
    (fileSystem.answer o d e).2.get x = d.get x := by
  cases e with
  | some left =>
    obtain ⟨message, scrap⟩ := left
    simp [fileSystem, get_patch, h]
  | none =>
    cases o with
    | existsAt _ | read _ | walk _ | setMode _ => rfl
    | createDirAll =>
      simp only [fileSystem, act]
      split
      · rfl
      · simp only [FsOp.touches] at h
        simp [addDirs, get_patch, h]
    | createFile => exact get_place_of_ne (by simpa [FsOp.touches] using h)
    | append =>
      simp only [fileSystem, act]
      split
      · exact get_set_of_ne (by simpa [FsOp.touches] using h)
      · rfl
    | copy src dst =>
      have hne : x ≠ dst := by simpa [FsOp.touches] using h
      simp only [fileSystem, act]
      cases d.get src with
      | none => rfl
      | some node =>
        cases node with
        | file => exact get_place_of_ne hne
        | dir => rfl
    | rename =>
      simp only [FsOp.touches, Bool.or_eq_false_iff, decide_eq_false_iff_not] at h
      simp only [fileSystem, act]
      split
      · split
        · rfl
        · rw [get_set_of_ne h.2, get_removeTree_of_not h.1]
      · rfl
    | removeFile _ | removeDirAll _ =>
      simp only [fileSystem, act]
      split
      · exact get_removeTree_of_not h
      · rfl

end Disk

/-- **Frame for programs.** -/
theorem Prog.Makes.ensures_frame {p : Prog Fs α} {K : Location → Prop}
    (hp : p.Makes fun o => ∀ x, K x → FsOp.touches o x = false) (d : Disk) :
    p.Ensures fileSystem (fun _ d' => ∀ x, K x → d'.get x = d.get x) d := by
  refine hp.ensures (R := fun d d' => ∀ x, K x → d'.get x = d.get x) (fun _ _ _ => rfl) ?_ ?_ d
  · intro d₁ d₂ d₃ h h' x hx
    exact (h' x hx).trans (h x hx)
  · intro o d₁ e h x hx
    exact Disk.answer_get (h x hx)
