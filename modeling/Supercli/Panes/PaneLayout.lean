import Supercli.Lib.LeafTree

/-!
# `Panes.PaneLayout` — groups of panes as split trees

The pane model of the client: a group is a tree of splits with panes at its leaves, each showing a Session or, until it is
bound to one, a launcher. A layout is decoded from its durable form and then changed by the layout operations.

The JSON of a layout is what serde makes of it: any flat layout of version 1, or any tree. Ratios are `Float`s, and decide
nothing here.
-/

namespace Supercli.Panes

/-! ## Trees -/

def minimumSplitRatio : Float := 0.1

def maximumSplitRatio : Float := 0.9

def sessionLeafCap : Nat := 8

def clampRatio (ratio : Float) : Float :=
  if !ratio.isFinite then 0.5
  else if ratio < minimumSplitRatio then minimumSplitRatio
  else if ratio > maximumSplitRatio then maximumSplitRatio
  else ratio

inductive PaneContent
  | session (id : String)
  | launcher (projectId : String)
deriving DecidableEq, Repr

def PaneContent.sessionId : PaneContent → Option String
  | session id => some id
  | launcher _ => none

def PaneContent.isLauncher : PaneContent → Bool
  | launcher _ => true
  | session _ => false

structure Pane where
  id : String
  content : PaneContent
deriving DecidableEq, Repr

inductive SplitDirection
  | horizontal
  | vertical
deriving DecidableEq, Repr

inductive PaneEdge
  | left
  | right
  | up
  | down
deriving DecidableEq, Repr

def PaneEdge.splitDirection : PaneEdge → SplitDirection
  | left | right => .horizontal
  | up | down => .vertical

def PaneEdge.newLeafIsLeftChild : PaneEdge → Bool
  | left | up => true
  | right | down => false

/-- `PaneSplit`, without its children. -/
structure PaneSplit where
  direction : SplitDirection
  ratio : Float

def PaneSplit.new (direction : SplitDirection) (ratio : Float) : PaneSplit := ⟨direction, clampRatio ratio⟩

abbrev PaneNode := LeafTree PaneSplit Pane

abbrev PaneSplitPath := List Branch

namespace PaneNode

variable (root : PaneNode)

def sessionLeaves : List Pane := root.leaves.filter fun pane => pane.content.sessionId.isSome

def containsLauncher : Bool := root.leaves.any fun pane => pane.content.isLauncher

/-- `leaf`. -/
def findLeaf (paneId : String) : Option Pane := root.leaves.find? fun pane => pane.id == paneId

def pathToPane (paneId : String) : Option PaneSplitPath := root.pathTo fun pane => pane.id == paneId

/-- `detach_unchecked`; `none` where the source says `false`. -/
def detachUnchecked (paneId : String) : Option PaneNode := root.detach fun pane => pane.id == paneId

/-- A split of something new and what was there. -/
def beside (edge : PaneEdge) (ratio : Float) (new old : PaneNode) : PaneNode :=
  let split := PaneSplit.new edge.splitDirection ratio
  if edge.newLeafIsLeftChild then .split split new old else .split split old new

/-- A leaf becomes a split of itself and a new leaf. -/
def splitLeaf (edge : PaneEdge) (new : Pane) : PaneNode → Option PaneNode
  | .leaf target => some (beside edge 0.5 (.leaf new) (.leaf target))
  | .split _ _ _ => none

def childWeight (parentDirection : SplitDirection) : PaneNode → Float
  | .leaf _ => 1.0
  | .split split l r =>
    if split.direction = parentDirection then childWeight parentDirection l + childWeight parentDirection r else 1.0

/-- `equalize_node`. -/
def equalize : PaneNode → PaneNode
  | .leaf pane => .leaf pane
  | .split split l r =>
    let leftWeight := childWeight split.direction l
    let total := leftWeight + childWeight split.direction r
    let ratio := if total > 0.0 then clampRatio (leftWeight / total) else split.ratio
    .split { split with ratio := ratio } (equalize l) (equalize r)

end PaneNode

/-! ## Groups -/

structure PaneGroup where
  id : String
  representativePaneId : String
  root : PaneNode
  /-- The tree before a launcher was inserted, while it is live. -/
  launcherSnapshot : Option PaneNode

namespace PaneGroup

def new (id representativePaneId : String) (root : PaneNode) : PaneGroup := ⟨id, representativePaneId, root, none⟩

variable (group : PaneGroup)

def isViable : Bool :=
  let sessions := group.root.sessionLeaves.length
  decide (2 ≤ sessions) || (sessions == 1 && group.root.containsLauncher)

/-- The first Session represents the group. -/
def promote : PaneGroup :=
  match group.root.sessionLeaves.head? with
  | some first => { group with representativePaneId := first.id }
  | none => group

def insertSession (sessionId targetPaneId : String) (edge : PaneEdge) (newPaneId : String) : Bool × PaneGroup :=
  match group.root.pathToPane targetPaneId with
  | none => (false, group)
  | some path =>
    match group.root.updateAt (PaneNode.splitLeaf edge ⟨newPaneId, .session sessionId⟩) path with
    | none => (false, group)
    | some root => (true, { group with root := root, launcherSnapshot := none })

def insertSessionAtGroupEdge (sessionId : String) (edge : PaneEdge) (newPaneId : String) : Bool × PaneGroup :=
  let count := group.root.sessionLeaves.length.toFloat
  let ratio := if edge.newLeafIsLeftChild then 1.0 / (count + 1.0) else count / (count + 1.0)
  let newLeaf : PaneNode := .leaf ⟨newPaneId, .session sessionId⟩
  (true, { group with root := PaneNode.beside edge ratio newLeaf group.root, launcherSnapshot := none })

def detachPane (paneId : String) : Bool × PaneGroup :=
  match group.root.detachUnchecked paneId with
  | none => (false, group)
  | some root =>
    let group := { group with root := root, launcherSnapshot := none }
    let group := if group.representativePaneId = paneId then group.promote else group
    (group.isViable, group)

def equalize : PaneGroup := { group with root := group.root.equalize }

def placeholder : PaneNode := .leaf ⟨"", .session ""⟩

/-- The exchange of `swap_panes`; `none` is a failed `unwrap`. -/
def exchange (root : PaneNode) (pa pb : PaneSplitPath) : Option PaneNode := do
  let a ← root.nodeAt pa
  let root ← root.setAt pa placeholder
  let b ← root.nodeAt pb
  let root ← root.setAt pb placeholder
  let root ← root.setAt pa b
  root.setAt pb a

def swapPanes (paneId otherPaneId : String) : Bool × PaneGroup :=
  if paneId = otherPaneId then (false, group)
  else
    match group.root.pathToPane paneId, group.root.pathToPane otherPaneId with
    | some pa, some pb =>
      match exchange group.root pa pb with
      | some root => (true, { group with root := root })
      | none => (false, group)
    | _, _ => (false, group)

/-- A split gets another ratio. -/
def withRatio (ratio : Float) : PaneNode → Option PaneNode
  | .split split l r => some (.split { split with ratio := clampRatio ratio } l r)
  | .leaf _ => none

def resizeSplit (path : PaneSplitPath) (ratio : Float) : Bool × PaneGroup :=
  match group.root.updateAt (withRatio ratio) path with
  | none => (false, group)
  | some root => (true, { group with root := root, launcherSnapshot := none })

def insertLauncher (projectId targetPaneId : String) (edge : PaneEdge) (newPaneId : String) : Bool × PaneGroup :=
  let group := if group.launcherSnapshot.isNone then { group with launcherSnapshot := some group.root } else group
  match group.root.pathToPane targetPaneId with
  | none => (false, group)
  | some path =>
    match group.root.updateAt (PaneNode.splitLeaf edge ⟨newPaneId, .launcher projectId⟩) path with
    | none => (false, group)
    | some root => (true, { group with root := root })

/-- One launcher less, on the scratch copy of `remove_launcher`. -/
def stripOne (scratch : PaneNode × Bool) (paneId : String) : PaneNode × Bool :=
  if (scratch.1.pathToPane paneId).isSome then ((scratch.1.detachUnchecked paneId).getD scratch.1, scratch.2)
  else (scratch.1, false)

/-- The tree without its launchers, and whether all were found. -/
def stripLaunchers (root : PaneNode) : PaneNode × Bool :=
  ((root.leaves.filter fun pane => pane.content.isLauncher).map Pane.id).foldl stripOne (root, true)

def sessionPaneIds (root : PaneNode) : List String := root.sessionLeaves.map Pane.id

/-- Two sets of ids are equal. -/
def sameIds (a b : List String) : Bool := a.all (b.contains ·) && b.all (a.contains ·)

def removeLauncher (paneId : String) : Bool × PaneGroup :=
  let restored := group.launcherSnapshot.filter fun snapshot =>
    let (stripped, ok) := stripLaunchers group.root
    ok && sameIds (sessionPaneIds snapshot) (sessionPaneIds stripped)
  match restored with
  | some snapshot => (true, { group with root := snapshot, launcherSnapshot := none })
  | none =>
    match group.root.detachUnchecked paneId with
    | some root => (true, { group with root := root, launcherSnapshot := none })
    | none => (false, group)

/-- A launcher becomes a Session. -/
def bound (sessionId : String) : PaneNode → Option PaneNode
  | .leaf pane => if pane.content.isLauncher then some (.leaf { pane with content := .session sessionId }) else none
  | .split _ _ _ => none

def bindLauncher (paneId sessionId : String) : Bool × PaneGroup :=
  match group.root.pathToPane paneId with
  | none => (false, group)
  | some path =>
    match group.root.updateAt (bound sessionId) path with
    | none => (false, group)
    | some root => (true, { group with root := root })

end PaneGroup

/-! ## The durable form -/

def isUuid (v : String) : Bool :=
  let b := v.toUTF8.data.toList
  let dash : UInt8 := 45
  let hexDigit (c : UInt8) : Bool := (48 ≤ c && c ≤ 57) || (97 ≤ c && c ≤ 102) || (65 ≤ c && c ≤ 70)
  b.length == 36 && b[8]? == some dash && b[13]? == some dash && b[18]? == some dash && b[23]? == some dash &&
    (b.zipIdx.all fun (c, i) => [8, 13, 18, 23].contains i || hexDigit c)

/-- The number that ids which are no UUIDs are hashed to. -/
def hashId (v : String) : Nat :=
  v.toUTF8.data.toList.foldl (fun h b =>
    let h := (h * 0x100000001b3 + b.toNat) % 2 ^ 128
    let h := h ^^^ (h >>> 29)
    h * 0xbf58476d1ce4e5b9 % 2 ^ 128) 0xcbf29ce484222325

/-- The characters `start` to `stop` of a text. -/
def slice (text : List Char) (start stop : Nat) : String := String.ofList ((text.take stop).drop start)

/-- `canonical_id`; `lower` is `trim().to_lowercase()` of the standard library. -/
def canonicalId (lower : String → String) (value : String) : String :=
  let v := lower value
  if isUuid v then v
  else
    let digits := Nat.toDigits 16 (hashId v)
    let hex := List.replicate (32 - digits.length) '0' ++ digits
    slice hex 0 8 ++ "-" ++ slice hex 8 12 ++ "-4" ++ slice hex 13 16 ++ "-" ++ slice hex 16 20 ++ "-" ++ slice hex 20 32

structure DurablePane where
  id : String
  sessionId : String

abbrev DurablePaneNode := LeafTree PaneSplit DurablePane

structure DurablePaneGroup where
  id : String
  representativePaneId : String
  root : DurablePaneNode

structure V1Pane where
  id : String
  sessionId : String
  fraction : Float

structure V1Group where
  id : String
  representativePaneId : String
  panes : List V1Pane

/-- What serde makes of the JSON of a layout. -/
inductive LayoutJson
  /-- Some group has `panes`. -/
  | flat (groups : List V1Group)
  | tree (groups : List DurablePaneGroup)

section Decode

variable (lower : String → String)

def liveNode : DurablePaneNode → PaneNode
  | .leaf pane => .leaf ⟨canonicalId lower pane.id, .session pane.sessionId⟩
  | .split split l r => .split (.new split.direction split.ratio) (liveNode l) (liveNode r)

/-- Trailing leaves past the cap are trimmed; every turn of the loop takes one. -/
def trim : Nat → PaneNode → PaneNode
  | 0, root => root
  | fuel + 1, root =>
    if root.sessionLeaves.length ≤ sessionLeafCap then root
    else
      match root.sessionLeaves.getLast? with
      | none => root
      | some victim =>
        match root.detachUnchecked victim.id with
        | none => root
        | some root' => trim fuel root'

def canonicalizeGroup (group : PaneGroup) : PaneGroup :=
  let group := if (group.root.findLeaf group.representativePaneId).isNone then group.promote else group
  { group with root := trim group.root.sessionLeaves.length group.root }

/-- The Sessions of a group that were seen before, in order, and all that are seen with it. -/
def seenAgain (seen : List String) : List String → List String × List String
  | [] => ([], seen)
  | id :: rest =>
    if seen.contains id then
      let (again, seen') := seenAgain seen rest
      (id :: again, seen')
    else seenAgain (id :: seen) rest

def sessionIds (root : PaneNode) : List String := root.sessionLeaves.filterMap fun pane => pane.content.sessionId

/-- The pane that is taken out for a Session that is seen again. -/
def firstPaneOf (root : PaneNode) (sessionId : String) : Option String :=
  (root.sessionLeaves.find? fun pane => pane.content.sessionId == some sessionId).map Pane.id

def detachAll (root : PaneNode) (ids : List String) : PaneNode :=
  ids.foldl (fun root id => (root.detachUnchecked id).getD root) root

/-- One group of a durable layout, before it is canonicalized. -/
def dedupGroup (seen : List String) (g : DurablePaneGroup) : PaneGroup × List String :=
  let root := liveNode lower g.root
  let (again, seen') := seenAgain seen (sessionIds root)
  let dups := again.filterMap (firstPaneOf root)
  (.new (canonicalId lower g.id) (canonicalId lower g.representativePaneId) (detachAll root dups), seen')

/-- The groups of a durable layout. -/
def decodeGroups (seen : List String) : List DurablePaneGroup → List PaneGroup
  | [] => []
  | g :: rest =>
    let (group, seen') := dedupGroup lower seen g
    let group := canonicalizeGroup group
    if group.isViable then group :: decodeGroups seen' rest else decodeGroups seen' rest

/-- The share of a pane of version 1. -/
def share (pane : V1Pane) : Float :=
  if pane.fraction.isFinite then (if pane.fraction > 0.0 then pane.fraction else 0.0) else 0.0

/-- `fold` of `decode_v1`. -/
def foldPanes (pane : V1Pane) : List V1Pane → PaneNode
  | [] => .leaf ⟨canonicalId lower pane.id, .session pane.sessionId⟩
  | next :: rest =>
    let remaining := (pane :: next :: rest).foldl (fun sum p => sum + share p) 0.0
    let ratio := if remaining > 0.0 then clampRatio (share pane / remaining) else 0.5
    .split (.new .horizontal ratio) (.leaf ⟨canonicalId lower pane.id, .session pane.sessionId⟩) (foldPanes next rest)

/-- A group of version 1; those with less than two panes are left out. -/
def decodeV1Group (g : V1Group) : Option PaneGroup :=
  match g.panes with
  | first :: second :: rest =>
    some (canonicalizeGroup (.new (canonicalId lower g.id) (canonicalId lower g.representativePaneId)
      (foldPanes lower first (second :: rest))))
  | _ => none

def decodeV1 (groups : List V1Group) : List PaneGroup := (groups.filterMap (decodeV1Group lower)).filter PaneGroup.isViable

/-- `DurableLayout::decode`. -/
def decode : LayoutJson → List PaneGroup
  | .flat groups => decodeV1 lower groups
  | .tree groups => decodeGroups lower [] groups

end Decode

/-! ## Operations on a layout -/

inductive PaneOpError
  | duplicateSession
  | capacityReached
  | paneNotFound
  | splitNotFound
  | panesBelongToDifferentGroups
  | groupNotFound
deriving DecidableEq, Repr

inductive InsertTarget
  | pane (paneId : String)
  | groupEdge (groupId : String)
  | besideSolo (sessionId newGroupId newRepresentativePaneId : String)

abbrev Layout := List PaneGroup

abbrev Outcome := Except PaneOpError Unit × Layout

namespace Layout

variable (groups : Layout)

/-- `find_group_with_session`. -/
def hasSession (sessionId : String) : Bool :=
  groups.any fun g => g.root.sessionLeaves.any fun pane => pane.content.sessionId == some sessionId

def hasPane (paneId : String) (g : PaneGroup) : Bool := (g.root.pathToPane paneId).isSome

/-- Do something to the first group that is meant. -/
def onGroup (isMeant : PaneGroup → Bool) (missing : PaneOpError)
    (act : PaneGroup → Except PaneOpError Unit × PaneGroup) : Layout → Outcome
  | [] => (.error missing, [])
  | g :: rest =>
    if isMeant g then ((act g).1, (act g).2 :: rest)
    else ((onGroup isMeant missing act rest).1, g :: (onGroup isMeant missing act rest).2)

/-- What became of the group as an operation says it. -/
def orElse (error : PaneOpError) (done : Bool × PaneGroup) : Except PaneOpError Unit × PaneGroup :=
  (if done.1 then .ok () else .error error, done.2)

/-- An insert into a group that has room. -/
def withRoom (error : PaneOpError) (insert : PaneGroup → Bool × PaneGroup) (g : PaneGroup) :
    Except PaneOpError Unit × PaneGroup :=
  if sessionLeafCap ≤ g.root.sessionLeaves.length then (.error .capacityReached, g) else orElse error (insert g)

/-- `layout_insert_session`. -/
def insertSession (sessionId : String) (target : InsertTarget) (edge : PaneEdge) (newPaneId : String) : Outcome :=
  if groups.hasSession sessionId then (.error .duplicateSession, groups)
  else
    match target with
    | .pane paneId =>
      onGroup (hasPane paneId) .paneNotFound
        (withRoom .paneNotFound fun g => g.insertSession sessionId paneId edge newPaneId) groups
    | .groupEdge groupId =>
      onGroup (fun g => g.id == groupId) .groupNotFound
        (withRoom .groupNotFound fun g => g.insertSessionAtGroupEdge sessionId edge newPaneId) groups
    | .besideSolo soloId newGroupId newRepresentativePaneId =>
      if groups.hasSession soloId then (.error .duplicateSession, groups)
      else
        let root := PaneNode.beside edge 0.5 (.leaf ⟨newPaneId, .session sessionId⟩)
          (.leaf ⟨newRepresentativePaneId, .session soloId⟩)
        (.ok (), groups ++ [.new newGroupId newRepresentativePaneId root])

/-- The group with the pane is taken apart. -/
def detachIn (paneId : String) : Layout → Layout
  | [] => []
  | g :: rest =>
    if hasPane paneId g then
      if (g.detachPane paneId).1 then (g.detachPane paneId).2 :: rest else rest
    else g :: detachIn paneId rest

/-- `layout_detach_pane`. -/
def detachPane (paneId : String) : Outcome :=
  if groups.any (hasPane paneId) then (.ok (), groups.detachIn paneId) else (.error .paneNotFound, groups)

/-- `layout_close_group`. -/
def closeGroup (groupId : String) : Outcome :=
  let kept := groups.filter fun g => g.id != groupId
  (if kept.length = groups.length then .error .groupNotFound else .ok (), kept)

/-- `layout_resize_split`. -/
def resizeSplit (groupId : String) (path : PaneSplitPath) (ratio : Float) : Outcome :=
  onGroup (fun g => g.id == groupId) .groupNotFound (fun g => orElse .splitNotFound (g.resizeSplit path ratio)) groups

/-- `layout_equalize`. -/
def equalize (groupId : String) : Outcome :=
  onGroup (fun g => g.id == groupId) .groupNotFound (fun g => (.ok (), g.equalize)) groups

/-- `layout_swap_panes`. -/
def swapPanes (paneId otherPaneId : String) : Outcome :=
  match groups.findIdx? (hasPane paneId), groups.findIdx? (hasPane otherPaneId) with
  | some a, some b =>
    if a = b then
      onGroup (hasPane paneId) .paneNotFound (fun g => orElse .paneNotFound (g.swapPanes paneId otherPaneId)) groups
    else (.error .panesBelongToDifferentGroups, groups)
  | _, _ => (.error .paneNotFound, groups)

/-- `layout_insert_launcher`. -/
def insertLauncher (projectId targetPaneId : String) (edge : PaneEdge) (newPaneId : String) : Outcome :=
  onGroup (hasPane targetPaneId) .paneNotFound
    (fun g => orElse .paneNotFound (g.insertLauncher projectId targetPaneId edge newPaneId)) groups

/-- `layout_remove_launcher`. -/
def removeLauncher (paneId : String) : Outcome :=
  onGroup (hasPane paneId) .paneNotFound (fun g => orElse .paneNotFound (g.removeLauncher paneId)) groups

/-- `layout_bind_launcher`. -/
def bindLauncher (paneId sessionId : String) : Outcome :=
  onGroup (hasPane paneId) .paneNotFound (fun g => orElse .paneNotFound (g.bindLauncher paneId sessionId)) groups

/-- A leaf whose Session is gone. -/
def dropDead (g : PaneGroup) (paneId : String) : PaneGroup :=
  let g := { g with root := (g.root.detachUnchecked paneId).getD g.root }
  if g.representativePaneId = paneId ∧ (g.root.findLeaf g.representativePaneId).isNone then g.promote else g

def reconcileGroup (eligible : String → Bool) (g : PaneGroup) : PaneGroup :=
  let dead := (g.root.sessionLeaves.filter fun pane => pane.content.sessionId.any fun id => !eligible id).map Pane.id
  { dead.foldl dropDead g with launcherSnapshot := none }

def reconcile (eligible : String → Bool) : Layout :=
  (groups.map (reconcileGroup eligible)).filter PaneGroup.isViable

end Layout

/-- The operations. -/
inductive LayoutOp
  | insertSession (sessionId : String) (target : InsertTarget) (edge : PaneEdge) (newPaneId : String)
  | detachPane (paneId : String)
  | closeGroup (groupId : String)
  | resizeSplit (groupId : String) (path : PaneSplitPath) (ratio : Float)
  | equalize (groupId : String)
  | swapPanes (paneId otherPaneId : String)
  | insertLauncher (projectId targetPaneId : String) (edge : PaneEdge) (newPaneId : String)
  | removeLauncher (paneId : String)
  | bindLauncher (paneId sessionId : String)
  | reconcile (eligible : String → Bool)

/-- **One operation.** -/
def Layout.apply (groups : Layout) : LayoutOp → Layout
  | .insertSession sessionId target edge newPaneId => (groups.insertSession sessionId target edge newPaneId).2
  | .detachPane paneId => (groups.detachPane paneId).2
  | .closeGroup groupId => (groups.closeGroup groupId).2
  | .resizeSplit groupId path ratio => (groups.resizeSplit groupId path ratio).2
  | .equalize groupId => (groups.equalize groupId).2
  | .swapPanes paneId otherPaneId => (groups.swapPanes paneId otherPaneId).2
  | .insertLauncher projectId targetPaneId edge newPaneId =>
    (groups.insertLauncher projectId targetPaneId edge newPaneId).2
  | .removeLauncher paneId => (groups.removeLauncher paneId).2
  | .bindLauncher paneId sessionId => (groups.bindLauncher paneId sessionId).2
  | .reconcile eligible => groups.reconcile eligible

end Supercli.Panes
