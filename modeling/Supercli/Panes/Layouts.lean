import Supercli.Lib.Machine
import Supercli.Panes.Decoding

/-!
# `Panes.Layouts` — every layout that is reached is valid

An operation goes to one group, so it keeps a layout well formed (`LayoutOk`) if it keeps that group well formed and
brings in no Session that another group has. Two operations have to be used with care for that: `bind_launcher` checks
neither that the Session is new nor that there is room for it, and `remove_launcher` checks neither that the pane is a
launcher nor that the group is still viable without it.
-/

namespace Supercli.Panes

open List

open PaneNode PaneGroup Layout

/-! ## One group of a layout -/

section OneGroup

variable {pre post : Layout} {g g' : PaneGroup}

theorem layoutSessions_append : layoutSessions (a ++ b) = layoutSessions a ++ layoutSessions b :=
  flatMap_append

theorem layoutSessions_sublist (h : kept.Sublist groups) : (layoutSessions kept).Sublist (layoutSessions groups) := by
  induction h with
  | slnil => exact List.Sublist.refl _
  | cons g _ ih => exact ih.trans (sublist_append_right _ _)
  | cons_cons g _ ih => exact ih.append_left _

theorem layoutSessions_middle (pre : Layout) (g : PaneGroup) (post : Layout) :
    (layoutSessions (pre ++ g :: post)).Perm (sessionIds g.root ++ layoutSessions (pre ++ post)) := by
  rw [layoutSessions_append, layoutSessions_append, ← append_assoc]
  show (layoutSessions pre ++ (sessionIds g.root ++ layoutSessions post)).Perm _
  rw [← append_assoc]
  exact perm_append_comm.append_right _

/-- **A layout without a group.** -/
theorem LayoutOk.drop (h : LayoutOk (pre ++ g :: post)) : LayoutOk (pre ++ post) := by
  refine ⟨fun g' hg' => h.each g' ?_, ?_⟩
  · rcases mem_append.mp hg' with hpre | hpost
    · exact mem_append_left _ hpre
    · exact mem_append_right _ (mem_cons_of_mem _ hpost)
  · exact (nodup_append.mp ((layoutSessions_middle pre g post).nodup_iff.mp h.sessions)).2.1

/-- **A layout with another group.** -/
theorem LayoutOk.put (h : LayoutOk (pre ++ post)) (hg : GroupOk g)
    (hsessions : (sessionIds g.root ++ layoutSessions (pre ++ post)).Nodup) : LayoutOk (pre ++ g :: post) := by
  refine ⟨?_, (layoutSessions_middle pre g post).nodup_iff.mpr hsessions⟩
  obtain ⟨hpre, hpost⟩ := forall_mem_append.mp h.each
  exact forall_mem_append.mpr ⟨hpre, forall_mem_cons.mpr ⟨hg, hpost⟩⟩

/-- A group keeps some of its Sessions. -/
theorem LayoutOk.replace (h : LayoutOk (pre ++ g :: post)) (hg' : GroupOk g')
    (hsessions : (sessionIds g'.root).Subperm (sessionIds g.root)) : LayoutOk (pre ++ g' :: post) := by
  refine h.drop.put hg' ?_
  have hnodup := (layoutSessions_middle pre g post).nodup_iff.mp h.sessions
  obtain ⟨kept, hperm, hsub⟩ := hsessions
  exact (hperm.append_right _).nodup_iff.mp (hnodup.sublist (hsub.append_right _))

/-- A group gets a Session that no group has. -/
theorem LayoutOk.add (h : LayoutOk (pre ++ g :: post)) (hg' : GroupOk g')
    (hnew : sessionId ∉ layoutSessions (pre ++ g :: post))
    (hleaves : g'.root.sessionLeaves.Perm (⟨paneId, .session sessionId⟩ :: g.root.sessionLeaves)) :
    LayoutOk (pre ++ g' :: post) := by
  refine h.drop.put hg' ?_
  have hmiddle := layoutSessions_middle pre g post
  have hids : (sessionIds g'.root).Perm (sessionId :: sessionIds g.root) := hleaves.filterMap _
  refine (hids.append_right _).nodup_iff.mpr (nodup_cons.mpr ⟨fun hin => ?_, hmiddle.nodup_iff.mp h.sessions⟩)
  exact hnew (hmiddle.mem_iff.mpr hin)

theorem LayoutOk.tail (h : LayoutOk (g :: post)) : LayoutOk post :=
  LayoutOk.drop (show LayoutOk ([] ++ g :: post) from h)

theorem LayoutOk.cons (h : LayoutOk post) (hg : GroupOk g) (hsessions : (sessionIds g.root ++ layoutSessions post).Nodup) :
    LayoutOk (g :: post) :=
  LayoutOk.put (show LayoutOk ([] ++ post) from h) hg hsessions

end OneGroup

/-! ## The operations -/

namespace Layout

theorem onGroup_cases :
    (onGroup isMeant missing act groups).2 = groups ∨ ∃ pre g post, groups = pre ++ g :: post ∧ isMeant g = true ∧
        (onGroup isMeant missing act groups).2 = pre ++ (act g).2 :: post := by
  induction groups with
  | nil => exact .inl rfl
  | cons g rest ih =>
    simp only [onGroup]
    split
    · rename_i hmeant
      exact .inr ⟨[], g, rest, rfl, hmeant, rfl⟩
    · rcases ih with hsame | ⟨pre, g', post, hgroups, hmeant, hact⟩
      · exact .inl (congrArg (g :: ·) hsame)
      · exact .inr ⟨g :: pre, g', post, congrArg (g :: ·) hgroups, hmeant, congrArg (g :: ·) hact⟩

theorem detachIn_cases (paneId : String) (groups : Layout) :
    groups.detachIn paneId = groups ∨ ∃ pre g post, groups = pre ++ g :: post ∧ (groups.detachIn paneId = pre ++ post ∨
          (g.detachPane paneId).1 = true ∧ groups.detachIn paneId = pre ++ (g.detachPane paneId).2 :: post) := by
  induction groups with
  | nil => exact .inl rfl
  | cons g rest ih =>
    simp only [detachIn]
    split
    · refine .inr ⟨[], g, rest, rfl, ?_⟩
      split
      · rename_i hsurvives
        exact .inr ⟨hsurvives, rfl⟩
      · exact .inl rfl
    · rcases ih with hsame | ⟨pre, g', post, hgroups, hact⟩
      · exact .inl (congrArg (g :: ·) hsame)
      · refine .inr ⟨g :: pre, g', post, congrArg (g :: ·) hgroups, ?_⟩
        exact hact.imp (congrArg (g :: ·)) (And.imp_right (congrArg (g :: ·)))

theorem not_mem_of_hasSession (h : ¬ groups.hasSession sessionId = true) : sessionId ∉ layoutSessions groups := by
  simpa only [hasSession, layoutSessions, sessionIds, any_eq_true, mem_flatMap, mem_filterMap, beq_iff_eq] using h

section

variable (groups : Layout)

/-- No pane has this id yet. -/
def FreshPane (paneId : String) : Prop := ∀ g ∈ groups, paneId ∉ paneIds g.root

/-- **New ids are fresh.** -/
def FreshIds : LayoutOp → Prop
  | .insertSession _ (.besideSolo _ _ newRepresentativePaneId) _ newPaneId => newRepresentativePaneId ≠ newPaneId
  | .insertSession _ _ _ newPaneId => groups.FreshPane newPaneId
  | .insertLauncher _ _ _ newPaneId => groups.FreshPane newPaneId
  | _ => True

/-- **Operations used with care.** A Session is not put beside itself; a launcher is bound to a Session that no group has
    and in a group that has room; only a launcher is removed as one, and its group can do without it. -/
def Careful : LayoutOp → Prop
  | .insertSession sessionId (.besideSolo soloId _ _) _ _ => soloId ≠ sessionId
  | .bindLauncher paneId sessionId =>
    ∀ g ∈ groups, paneId ∈ launcherIds g.root →
      sessionId ∉ layoutSessions groups ∧ g.root.sessionLeaves.length < sessionLeafCap
  | .removeLauncher paneId => ∀ g ∈ groups, hasPane paneId g = true → Spare g.root paneId
  | _ => True

instance (paneId : String) : Decidable (FreshPane groups paneId) :=
  inferInstanceAs (Decidable (∀ g ∈ groups, _))

instance : (op : LayoutOp) → Decidable (FreshIds groups op)
  | .insertSession _ (.pane _) _ newPaneId => inferInstanceAs (Decidable (groups.FreshPane newPaneId))
  | .insertSession _ (.groupEdge _) _ newPaneId => inferInstanceAs (Decidable (groups.FreshPane newPaneId))
  | .insertSession _ (.besideSolo _ _ newRep) _ newPaneId => inferInstanceAs (Decidable (newRep ≠ newPaneId))
  | .insertLauncher _ _ _ newPaneId => inferInstanceAs (Decidable (groups.FreshPane newPaneId))
  | .detachPane _ | .closeGroup _ | .resizeSplit _ _ _ | .equalize _ | .swapPanes _ _ | .removeLauncher _
  | .bindLauncher _ _ | .reconcile _ => .isTrue trivial

instance : (op : LayoutOp) → Decidable (Careful groups op)
  | .insertSession sessionId (.besideSolo soloId _ _) _ _ => inferInstanceAs (Decidable (soloId ≠ sessionId))
  | .bindLauncher _ _ | .removeLauncher _ => inferInstanceAs (Decidable (∀ g ∈ groups, _ → _))
  | .insertSession _ (.pane _) _ _ | .insertSession _ (.groupEdge _) _ _ | .insertLauncher _ _ _ _ | .detachPane _
  | .closeGroup _ | .resizeSplit _ _ _ | .equalize _ | .swapPanes _ _ | .reconcile _ => .isTrue trivial

end

end Layout

section Operations

open Layout

variable {groups : Layout} {sessionId newPaneId : String} {isMeant : PaneGroup → Bool}
  {act : PaneGroup → Except PaneOpError Unit × PaneGroup} {missing : PaneOpError} {edge : PaneEdge}

/-- **What is done to one group** keeps the layout in order if it keeps that group so. -/
theorem LayoutOk.onGroup (h : LayoutOk groups)
    (hact : ∀ pre g post, groups = pre ++ g :: post → g ∈ groups → isMeant g = true →
      LayoutOk (pre ++ (act g).2 :: post)) : LayoutOk (onGroup isMeant missing act groups).2 := by
  rcases onGroup_cases with hsame | ⟨pre, g, post, hgroups, hmeant, hdone⟩
  · rw [hsame]
    exact h
  · rw [hdone]
    exact hact pre g post hgroups (hgroups ▸ mem_append_right _ mem_cons_self) hmeant

/-- A Session goes into a group that has room. -/
theorem LayoutOk.withRoom (h : LayoutOk groups) {insert : PaneGroup → Bool × PaneGroup}
    (hnew : sessionId ∉ layoutSessions groups) (hfresh : groups.FreshPane newPaneId)
    (hinsert : ∀ g, (insert g).2 = g ∨ ∃ root', (insert g).2 = { g with root := root', launcherSnapshot := none } ∧
        root'.leaves.Perm (⟨newPaneId, .session sessionId⟩ :: g.root.leaves)) :
    LayoutOk (Layout.onGroup isMeant missing (Layout.withRoom error insert) groups).2 := by
  refine h.onGroup fun pre g post hgroups hg _ => ?_
  rw [Layout.withRoom]
  split
  · exact hgroups ▸ h
  · rename_i hroom
    show LayoutOk (pre ++ (insert g).2 :: post)
    rcases hinsert g with hsame | ⟨root', hdone, hleaves⟩
    · rw [hsame]
      exact hgroups ▸ h
    · rw [hdone]
      have hok : GroupOk { g with root := root', launcherSnapshot := none } :=
        (h.each g hg).addSession hleaves (hfresh g hg) (Nat.lt_of_not_le hroom) rfl rfl
      exact (hgroups ▸ h).add hok (hgroups ▸ hnew) (sessionLeaves_cons_session hleaves)

/-- A group of two Sessions. -/
theorem besideSolo_ok (hrep : newRep ≠ newPaneId) (hnew : sessionId ∉ layoutSessions groups)
    (hsolo : soloId ∉ layoutSessions groups) (hne : soloId ≠ sessionId) (h : LayoutOk groups) :
    LayoutOk (groups ++ [.new newGroupId newRep (PaneNode.beside edge 0.5 (.leaf ⟨newPaneId, .session sessionId⟩)
      (.leaf ⟨newRep, .session soloId⟩))]) := by
  have hleaves := leaves_beside edge 0.5 (.leaf ⟨newPaneId, .session sessionId⟩) (.leaf ⟨newRep, .session soloId⟩)
  generalize PaneNode.beside edge 0.5 (.leaf ⟨newPaneId, .session sessionId⟩) (.leaf ⟨newRep, .session soloId⟩) = root
    at hleaves ⊢
  have hsessions : root.sessionLeaves.Perm [⟨newPaneId, .session sessionId⟩, ⟨newRep, .session soloId⟩] :=
    hleaves.filter _
  have hids : (sessionIds root).Perm [sessionId, soloId] := hsessions.filterMap _
  have hgroups : LayoutOk (groups ++ []) := (append_nil groups).symm ▸ h
  refine hgroups.put ⟨?_, ?_, .inl ?_, ?_, nofun⟩ ?_
  · refine (hleaves.map Pane.id).nodup_iff.mpr ?_
    exact nodup_cons.mpr ⟨fun hin => hrep (mem_singleton.mp hin).symm, nodup_singleton _⟩
  · exact hsessions.length_eq ▸ show 2 ≤ sessionLeafCap by decide
  · exact hsessions.length_eq ▸ Nat.le_refl 2
  · refine mem_map.mpr ⟨⟨newRep, .session soloId⟩, hsessions.mem_iff.mpr ?_, rfl⟩
    exact mem_cons_of_mem _ mem_cons_self
  · rw [append_nil]
    refine (hids.append_right _).nodup_iff.mpr ?_
    refine nodup_cons.mpr ⟨fun hin => ?_, nodup_cons.mpr ⟨hsolo, h.sessions⟩⟩
    rcases mem_cons.mp hin with heq | hin
    · exact hne heq.symm
    · exact hnew hin

section

variable (h : LayoutOk groups)

include h

theorem LayoutOk.insertSession
    (hfresh : groups.FreshIds (.insertSession sessionId target edge newPaneId))
    (hcare : groups.Careful (.insertSession sessionId target edge newPaneId)) :
    LayoutOk (groups.insertSession sessionId target edge newPaneId).2 := by
  simp only [Layout.insertSession]
  split
  · exact h
  · rename_i hnew
    cases target with
    | pane paneId =>
      exact h.withRoom (not_mem_of_hasSession hnew) hfresh fun g => insertSession_cases
    | groupEdge =>
      exact h.withRoom (not_mem_of_hasSession hnew) hfresh fun g => .inr ⟨_, rfl, leaves_beside edge _ _ _⟩
    | besideSolo =>
      simp only
      split
      · exact h
      · rename_i hsolo
        exact besideSolo_ok hfresh (not_mem_of_hasSession hnew) (not_mem_of_hasSession hsolo) hcare h

theorem LayoutOk.detachPane : LayoutOk (groups.detachPane paneId).2 := by
  rw [Layout.detachPane]
  split
  · show LayoutOk (groups.detachIn paneId)
    rcases detachIn_cases paneId groups with hsame | ⟨pre, g, post, rfl, hdrop | ⟨hsurvives, hkeep⟩⟩
    · rw [hsame]
      exact h
    · rw [hdrop]
      exact h.drop
    · rw [hkeep]
      obtain ⟨hok, hsub⟩ := (h.each g (mem_append_right _ mem_cons_self)).detachPane hsurvives
      exact h.replace hok (sessionIds_sublist hsub).subperm
  · exact h

theorem LayoutOk.sublist (hsub : kept.Sublist groups) : LayoutOk kept := by
  induction hsub with
  | slnil => exact h
  | cons g _ ih => exact ih h.tail
  | cons_cons g hsub ih =>
    refine (ih h.tail).cons (h.each g mem_cons_self) ?_
    exact h.sessions.sublist ((layoutSessions_sublist hsub).append_left _)

theorem LayoutOk.rearrange
    (hact : ∀ g, (act g).2 = g ∨ ∃ root' saved, (act g).2 = { g with root := root', launcherSnapshot := saved } ∧
      root'.leaves.Perm g.root.leaves ∧ (saved = none ∨ saved = g.launcherSnapshot)) :
    LayoutOk (Layout.onGroup isMeant missing act groups).2 := by
  refine h.onGroup fun pre g post hgroups hg _ => ?_
  rcases hact g with hsame | ⟨root', saved, hdone, hleaves, hsnapshot⟩
  · rw [hsame]
    exact hgroups ▸ h
  · rw [hdone]
    refine (hgroups ▸ h).replace ((h.each g hg).rearrange hleaves rfl hsnapshot) ?_
    exact (sessionIds_perm (sessionLeaves_perm hleaves)).subperm

theorem LayoutOk.reconcile (eligible : String → Bool) : LayoutOk (groups.reconcile eligible) ∧
      (layoutSessions (groups.reconcile eligible)).Sublist (layoutSessions groups) := by
  induction groups with
  | nil => exact ⟨h, List.Sublist.refl _⟩
  | cons g rest ih =>
    obtain ⟨hrest, hsub⟩ := ih h.tail
    rw [Layout.reconcile, map_cons]
    by_cases hviable : (reconcileGroup eligible g).isViable = true
    · rw [filter_cons_of_pos hviable]
      obtain ⟨hok, hown⟩ := (h.each g mem_cons_self).reconcileGroup hviable
      have hsessions := (sessionIds_sublist hown).append hsub
      exact ⟨hrest.cons hok (h.sessions.sublist hsessions), hsessions⟩
    · rw [filter_cons_of_neg hviable]
      exact ⟨hrest, hsub.trans (sublist_append_right _ _)⟩

theorem LayoutOk.insertLauncher (hfresh : groups.FreshPane newPaneId) :
    LayoutOk (groups.insertLauncher projectId targetPaneId edge newPaneId).2 := by
  refine h.onGroup fun pre g post hgroups hg _ => ?_
  obtain ⟨hok, hsessions⟩ := (h.each g hg).insertLauncher (hfresh g hg) projectId targetPaneId edge
  exact (hgroups ▸ h).replace hok (sessionIds_perm hsessions).subperm

theorem LayoutOk.removeLauncher
    (hcare : groups.Careful (.removeLauncher paneId)) : LayoutOk (groups.removeLauncher paneId).2 := by
  refine h.onGroup fun pre g post hgroups hg hmeant => ?_
  have hgroup := h.each g hg
  show LayoutOk (pre ++ (g.removeLauncher paneId).2 :: post)
  rcases removeLauncher_cases g paneId with hsame | ⟨saved, hsnapshot, hsame, hdone⟩ | ⟨root', hleaves, hdone⟩
  · rw [hsame]
    exact hgroups ▸ h
  · -- the saved tree is put back
    rw [hdone]
    refine (hgroups ▸ h).replace (hgroup.restored hsnapshot hsame) ?_
    exact sessionIds_subperm (hgroup.snapshot saved hsnapshot).subperm
  · rw [hdone]
    obtain ⟨hsessions, hok⟩ := hgroup.takeLauncher (hcare g hg hmeant) hleaves
    exact (hgroups ▸ h).replace hok (sessionIds_perm (.of_eq hsessions)).subperm

theorem LayoutOk.bindLauncher
    (hcare : groups.Careful (.bindLauncher paneId sessionId)) : LayoutOk (groups.bindLauncher paneId sessionId).2 := by
  refine h.onGroup fun pre g post hgroups hg _ => ?_
  show LayoutOk (pre ++ (g.bindLauncher paneId sessionId).2 :: post)
  rcases bindLauncher_cases g paneId sessionId with hsame | ⟨root', hdone, hlauncher, hids, hsessions⟩
  · rw [hsame]
    exact hgroups ▸ h
  · rw [hdone]
    obtain ⟨hnew, hroom⟩ := hcare g hg hlauncher
    exact (hgroups ▸ h).add ((h.each g hg).bindLauncher hids hsessions hroom) (hgroups ▸ hnew) hsessions

theorem LayoutOk.swapPanes : LayoutOk (groups.swapPanes paneId otherPaneId).2 := by
  rw [Layout.swapPanes]
  split
  · split
    · refine h.rearrange fun g => (swapPanes_cases g paneId otherPaneId).imp_right ?_
      rintro ⟨root', hdone, hleaves⟩
      exact ⟨root', _, hdone, hleaves, .inr rfl⟩
    · exact h
  · exact h

end

/-- **One operation.** -/
theorem layoutOk_apply (groups : Layout) (op : LayoutOp) (h : LayoutOk groups)
    (hop : groups.FreshIds op ∧ groups.Careful op) : LayoutOk (groups.apply op) := by
  obtain ⟨hfresh, hcare⟩ := hop
  cases op with
  | insertSession => exact h.insertSession hfresh hcare
  | detachPane paneId => exact h.detachPane
  | closeGroup => exact h.sublist filter_sublist
  | resizeSplit groupId path ratio =>
    refine h.rearrange fun g => (resizeSplit_cases g path ratio).imp_right ?_
    rintro ⟨root', hdone, hleaves⟩
    exact ⟨root', _, hdone, .of_eq hleaves, .inl rfl⟩
  | equalize =>
    exact h.rearrange fun g => .inr ⟨_, _, rfl, .of_eq leaves_equalize, .inr rfl⟩
  | swapPanes paneId otherPaneId => exact h.swapPanes
  | insertLauncher => exact h.insertLauncher hfresh
  | removeLauncher => exact h.removeLauncher hcare
  | bindLauncher => exact h.bindLauncher hcare
  | reconcile eligible => exact (h.reconcile eligible).1

end Operations

/-! ## Every layout that is reached -/

/-- **A valid layout**: no Session has two panes, and every group has at most eight Sessions, is viable and is represented
    by one of its Sessions. -/
structure LayoutValid (groups : Layout) : Prop where
  unique : (layoutSessions groups).Nodup
  cap : ∀ g ∈ groups, g.root.sessionLeaves.length ≤ sessionLeafCap
  viable : ∀ g ∈ groups, g.isViable = true
  representative : ∀ g ∈ groups, g.representativePaneId ∈ sessionPaneIds g.root

instance (groups : Layout) : Decidable (LayoutValid groups) :=
  decidable_of_iff (_ ∧ _ ∧ _ ∧ _)
    ⟨fun h => ⟨h.1, h.2.1, h.2.2.1, h.2.2.2⟩, fun h => ⟨h.unique, h.cap, h.viable, h.representative⟩⟩

theorem LayoutOk.valid (h : LayoutOk groups) : LayoutValid groups :=
  ⟨h.sessions, fun g hg => (h.each g hg).cap, fun g hg => isViable_iff.mpr (h.each g hg).viable,
    fun g hg => (h.each g hg).representative⟩

/-- **The layout stays valid**: from a stored layout that is decoded without loss of order, through operations with fresh
    ids that are used with care. -/
theorem layout_valid (lower : String → String) {json : LayoutJson} (hjson : CleanJson lower json) {ops : List LayoutOp}
    (hops : Machine.Along apply (fun groups op => groups.FreshIds op ∧ groups.Careful op) (decode lower json) ops) :
    LayoutValid (Machine.run apply (decode lower json) ops) := by
  have hok : LayoutOk (Machine.run apply (decode lower json) ops) :=
    Machine.invariant layoutOk_apply (decode_ok hjson) hops
  exact hok.valid

/-- An id of the stored form. -/
def uuid (digit : String) : String := "00000000-0000-4000-8000-00000000000" ++ digit

/-- A stored row of panes, each with the last digit of its id and its Session. -/
def storedRow (representative : String) (first : String × String) (rest : List (String × String)) : DurablePaneGroup where
  id := uuid "f"
  representativePaneId := uuid representative
  root := rest.foldl (fun root pane => .split (.new .horizontal 0.5) root (.leaf ⟨uuid pane.1, pane.2⟩))
    (.leaf ⟨uuid first.1, first.2⟩)

/-- A Session is stored once more than it may be, but in two groups; then the panes are arranged, and a launcher comes and
    is bound. -/
theorem layout_valid_of_repeated_session : LayoutValid (Machine.run apply
      (decode id (.tree [storedRow "1" ("1", "s1") [("2", "s2")], storedRow "3" ("3", "s2") [("4", "s3"), ("5", "s4")]]))
      [.insertLauncher "p" (uuid "1") .right "l", .swapPanes (uuid "1") (uuid "2"), .bindLauncher "l" "s5",
        .insertSession "s6" (.besideSolo "s7" "g" "r") .left "n", .detachPane (uuid "4")]) :=
  layout_valid id (by decide) (by decide)

/-- A stored flat group, as version 1 has it. -/
def storedFlat (representative : String) (panes : List (String × String)) : V1Group where
  id := uuid "f"
  representativePaneId := uuid representative
  panes := panes.map fun pane => ⟨uuid pane.1, pane.2, 0.5⟩

/-- A row of as many Sessions as a group may have. -/
def fullRow : List (String × String) :=
  [("2", "s2"), ("3", "s3"), ("4", "s4"), ("5", "s5"), ("6", "s6"), ("7", "s7"), ("8", "s8")]

/-- Operations that two Sessions do not survive: a launcher is bound to one of them, the only launcher beside the last of
    them is removed, a Session is removed as a launcher, a new Session is put beside itself. -/
def misuses : List (List LayoutOp) :=
  [[.insertLauncher "p" (uuid "1") .right "l", .bindLauncher "l" "s1"],
    [.insertLauncher "p" (uuid "1") .right "l", .detachPane (uuid "2"), .removeLauncher "l"],
    [.removeLauncher (uuid "1")],
    [.insertSession "s3" (.besideSolo "s3" "g" "r") .left "n"]]

/-- **How layouts become invalid.** A Session that is stored three times keeps two panes, one that version 1 stores twice
    keeps both, and a representative past the cap is trimmed away. With fresh ids, a ninth Session is bound to a launcher
    of a full group, and every one of `misuses` breaks a layout of two Sessions. -/
theorem layout_not_valid : ¬ LayoutValid (decode id (.tree [storedRow "1" ("1", "s1") [("2", "s1"), ("3", "s1")]])) ∧
    ¬ LayoutValid (decode id (.flat [storedFlat "1" [("1", "s1"), ("2", "s1")]])) ∧
    ¬ LayoutValid (decode id (.tree [storedRow "9" ("1", "s1") (fullRow ++ [("9", "s9")])])) ∧
    (∀ ops ∈ [[LayoutOp.insertLauncher "p" (uuid "1") .right "l", .bindLauncher "l" "s9"]],
      Machine.Along apply Layout.FreshIds (decode id (.tree [storedRow "1" ("1", "s1") fullRow])) ops ∧
      ¬ LayoutValid (Machine.run apply (decode id (.tree [storedRow "1" ("1", "s1") fullRow])) ops)) ∧
    ∀ ops ∈ misuses,
      Machine.Along apply Layout.FreshIds (decode id (.tree [storedRow "1" ("1", "s1") [("2", "s2")]])) ops ∧
      ¬ LayoutValid (Machine.run apply (decode id (.tree [storedRow "1" ("1", "s1") [("2", "s2")]])) ops) := by
  refine ⟨?_, ?_, ?_, ?_, ?_⟩ <;> decide

end Supercli.Panes
