import Supercli.Panes.PaneLayout

/-!
# `Panes.Groups` — what the operations do to a group

Each operation of a group is described by what it does to the leaves of its tree, and from that follows which groups are
well formed afterwards (`GroupOk`). The saved tree of a live launcher is well formed too, and has no Session that the
group does not have, so that it can be put back.
-/

namespace Supercli.Panes

open List Option

open PaneNode PaneGroup LeafTree PaneGroup

/-! ## Well-formed groups -/

section

variable (root : PaneNode)

/-- A tree that makes a group. -/
def Viable : Prop :=
  2 ≤ root.sessionLeaves.length ∨ root.sessionLeaves.length = 1 ∧ root.containsLauncher = true

theorem isViable_iff {g : PaneGroup} : g.isViable = true ↔ Viable g.root := by
  simp [isViable, Viable]

def paneIds : List String := root.leaves.map Pane.id

/-- The launchers of a tree. -/
def launcherLeaves : List Pane := root.leaves.filter fun pane => pane.content.isLauncher

def launcherIds : List String := (launcherLeaves root).map Pane.id

end

/-- A saved tree that can be put back. -/
structure SnapshotOk (root saved : PaneNode) : Prop where
  ids : (paneIds saved).Nodup
  viable : Viable saved
  sessions : ∀ pane ∈ saved.sessionLeaves, pane ∈ root.sessionLeaves

/-- **A well-formed group.** -/
structure GroupOk (g : PaneGroup) : Prop where
  ids : (paneIds g.root).Nodup
  cap : g.root.sessionLeaves.length ≤ sessionLeafCap
  viable : Viable g.root
  representative : g.representativePaneId ∈ sessionPaneIds g.root
  snapshot : ∀ saved, g.launcherSnapshot = some saved → SnapshotOk g.root saved

section Leaves

variable {root root' saved : PaneNode} {pane : Pane}

theorem mem_sessionLeaves : pane ∈ root.sessionLeaves ↔ pane ∈ root.leaves ∧ pane.content.sessionId.isSome = true :=
  mem_filter

theorem containsLauncher_iff : root.containsLauncher = true ↔ ∃ pane ∈ root.leaves, pane.content.isLauncher = true :=
  any_eq_true

theorem not_session_of_launcher (h : pane.content.isLauncher = true) : pane.content.sessionId.isSome = false := by
  obtain ⟨id, content⟩ := pane
  cases content with
  | session => exact nomatch h
  | launcher => rfl

theorem sessionLeaves_perm (h : root'.leaves.Perm root.leaves) : root'.sessionLeaves.Perm root.sessionLeaves :=
  h.filter _

theorem sessionLeaves_cons_session {id : String} (h : root'.leaves.Perm (⟨id, .session sessionId⟩ :: root.leaves)) :
    root'.sessionLeaves.Perm (⟨id, .session sessionId⟩ :: root.sessionLeaves) :=
  h.filter _

theorem sessionLeaves_cons_launcher {id : String}
    (h : root'.leaves.Perm (⟨id, .launcher projectId⟩ :: root.leaves)) : root'.sessionLeaves.Perm root.sessionLeaves :=
  h.filter _

theorem sessionIds_perm (h : root'.sessionLeaves.Perm root.sessionLeaves) : (sessionIds root').Perm (sessionIds root) :=
  h.filterMap _

theorem containsLauncher_mono (h : ∀ pane ∈ root.leaves, pane ∈ root'.leaves) (hl : root.containsLauncher = true) :
    root'.containsLauncher = true := by
  obtain ⟨pane, hpane, hlauncher⟩ := containsLauncher_iff.mp hl
  exact containsLauncher_iff.mpr ⟨pane, h pane hpane, hlauncher⟩

theorem viable_one_le (h : Viable root) : 1 ≤ root.sessionLeaves.length := by
  rcases h with h | ⟨h, -⟩ <;> omega

theorem sessionPaneIds_mono (h : ∀ pane ∈ root.sessionLeaves, pane ∈ root'.sessionLeaves) {id : String}
    (hid : id ∈ sessionPaneIds root) : id ∈ sessionPaneIds root' := by
  obtain ⟨pane, hpane, rfl⟩ := mem_map.mp hid
  exact mem_map_of_mem (h pane hpane)

theorem eq_of_id_eq (hids : (paneIds root).Nodup) (ha : a ∈ root.leaves) (hb : b ∈ root.leaves) (h : a.id = b.id) :
    a = b :=
  inj_on_of_nodup_map hids ha hb h

theorem SnapshotOk.mono (h : SnapshotOk root saved) (hsessions : ∀ pane ∈ root.sessionLeaves, pane ∈ root'.sessionLeaves) :
    SnapshotOk root' saved :=
  ⟨h.ids, h.viable, fun pane hpane => hsessions pane (h.sessions pane hpane)⟩

theorem filter_eraseP_of_not {p q : α → Bool} {l : List α} (h : ∀ a ∈ l, p a = true → q a = false) :
    (l.eraseP p).filter q = l.filter q := by
  induction l with
  | nil => rfl
  | cons a l ih =>
    cases hp : p a with
    | true =>
      rw [eraseP_cons_of_pos hp, filter_cons_of_neg]
      rw [h a mem_cons_self hp]
      exact Bool.false_ne_true
    | false =>
      rw [eraseP_cons_of_neg (by rw [hp]; exact Bool.false_ne_true), filter_cons, filter_cons,
        ih fun b hb => h b (mem_cons_of_mem _ hb)]

theorem exists_mem_ne {l : List α} (hnodup : l.Nodup) (h : 2 ≤ l.length) (a : α) : ∃ b ∈ l, b ≠ a := by
  match l, hnodup, h with
  | x :: y :: rest, hnodup, _ =>
    by_cases hx : x = a
    · refine ⟨y, mem_cons_of_mem _ mem_cons_self, fun hy => ?_⟩
      exact (nodup_cons.mp hnodup).1 (hx.trans hy.symm ▸ mem_cons_self)
    · exact ⟨x, mem_cons_self, hx⟩

end Leaves

/-! ## Inserting -/

section Insert

variable {g g' : PaneGroup} {root' : PaneNode} {pane : Pane}

theorem leaves_beside (edge : PaneEdge) (ratio : Float) (new old : PaneNode) :
    (PaneNode.beside edge ratio new old).leaves.Perm (new.leaves ++ old.leaves) := by
  simp only [PaneNode.beside]
  split
  · exact .refl _
  · exact perm_append_comm

theorem leaves_splitLeaf {root : PaneNode} (hpath : root.pathToPane targetPaneId = some path) (edge : PaneEdge)
    (new : Pane) :
    ∃ root', root.updateAt (PaneNode.splitLeaf edge new) path = some root' ∧ root'.leaves.Perm (new :: root.leaves) := by
  obtain ⟨pre, a, post, hleaves, -, -, -, -, hsome⟩ := pathTo_spec hpath
  obtain ⟨root', hroot', hleaves'⟩ := hsome (PaneNode.splitLeaf edge new) _ rfl
  refine ⟨root', hroot', ?_⟩
  rw [hleaves', hleaves]
  have hbeside : (PaneNode.beside edge 0.5 (.leaf new) (.leaf a)).leaves.Perm [new, a] := leaves_beside edge 0.5 _ _
  calc pre ++ (PaneNode.beside edge 0.5 (.leaf new) (.leaf a)).leaves ++ post
      = pre ++ ((PaneNode.beside edge 0.5 (.leaf new) (.leaf a)).leaves ++ post) := append_assoc _ _ _
    List.Perm _ (pre ++ ([new, a] ++ post)) := (hbeside.append_right post).append_left pre
    List.Perm _ (new :: (pre ++ a :: post)) := perm_middle

variable {newPaneId : String}

/-- **A Session is inserted.** -/
theorem GroupOk.addSession (h : GroupOk g)
    (hleaves : g'.root.leaves.Perm (⟨newPaneId, .session sessionId⟩ :: g.root.leaves))
    (hfresh : newPaneId ∉ paneIds g.root) (hroom : g.root.sessionLeaves.length < sessionLeafCap)
    (hrep : g'.representativePaneId = g.representativePaneId) (hsnapshot : g'.launcherSnapshot = none) :
    GroupOk g' := by
  have hsessions := sessionLeaves_cons_session hleaves
  have hlength : g'.root.sessionLeaves.length = g.root.sessionLeaves.length + 1 := hsessions.length_eq
  refine ⟨?_, by omega, .inl ?_, ?_, fun saved hsaved => nomatch hsnapshot.symm.trans hsaved⟩
  · exact (hleaves.map Pane.id).nodup_iff.mpr (nodup_cons.mpr ⟨hfresh, h.ids⟩)
  · have := viable_one_le h.viable
    omega
  · rw [hrep]
    exact sessionPaneIds_mono (fun pane hpane => hsessions.mem_iff.mpr (mem_cons_of_mem _ hpane)) h.representative

theorem insertSession_cases :
    (g.insertSession sessionId targetPaneId edge newPaneId).2 = g ∨
      ∃ root', (g.insertSession sessionId targetPaneId edge newPaneId).2
          = { g with root := root', launcherSnapshot := none } ∧
        root'.leaves.Perm (⟨newPaneId, .session sessionId⟩ :: g.root.leaves) := by
  rw [insertSession]
  cases hpath : g.root.pathToPane targetPaneId with
  | none => exact .inl rfl
  | some =>
    obtain ⟨root', hroot', hleaves⟩ := leaves_splitLeaf hpath edge ⟨newPaneId, .session sessionId⟩
    simp only [hroot']
    exact .inr ⟨root', rfl, hleaves⟩

/-- **A launcher is inserted.** -/
theorem GroupOk.addLauncher (h : GroupOk g)
    (hleaves : g'.root.leaves.Perm (⟨newPaneId, .launcher projectId⟩ :: g.root.leaves))
    (hfresh : newPaneId ∉ paneIds g.root) (hrep : g'.representativePaneId = g.representativePaneId)
    (hsnapshot : g'.launcherSnapshot = some g.root ∨ g'.launcherSnapshot = g.launcherSnapshot) : GroupOk g' := by
  have hsessions := sessionLeaves_cons_launcher hleaves
  have hmem : ∀ pane ∈ g.root.sessionLeaves, pane ∈ g'.root.sessionLeaves := hsessions.symm.subset
  have hlauncher : g'.root.containsLauncher = true :=
    containsLauncher_iff.mpr ⟨_, hleaves.mem_iff.mpr mem_cons_self, rfl⟩
  refine ⟨?_, hsessions.length_eq ▸ h.cap, ?_, hrep ▸ sessionPaneIds_mono hmem h.representative, ?_⟩
  · exact (hleaves.map Pane.id).nodup_iff.mpr (nodup_cons.mpr ⟨hfresh, h.ids⟩)
  · have hone := viable_one_le h.viable
    have hlength := hsessions.length_eq
    by_cases htwo : 2 ≤ g'.root.sessionLeaves.length
    · exact .inl htwo
    · exact .inr ⟨by omega, hlauncher⟩
  · intro saved hsaved
    rcases hsnapshot with heq | heq
    · obtain rfl := mem_unique heq hsaved
      exact ⟨h.ids, h.viable, hmem⟩
    · exact (h.snapshot saved (heq.symm.trans hsaved)).mono hmem

theorem GroupOk.insertLauncher (h : GroupOk g) (hfresh : newPaneId ∉ paneIds g.root) (projectId targetPaneId : String)
    (edge : PaneEdge) :
    GroupOk (g.insertLauncher projectId targetPaneId edge newPaneId).2 ∧
      (g.insertLauncher projectId targetPaneId edge newPaneId).2.root.sessionLeaves.Perm g.root.sessionLeaves := by
  -- the saved tree is set first
  generalize hsaving : (if g.launcherSnapshot.isNone then { g with launcherSnapshot := some g.root } else g) = saving
  have hroot : saving.root = g.root := by
    rw [← hsaving]
    split <;> rfl
  have hrep : saving.representativePaneId = g.representativePaneId := by
    rw [← hsaving]
    split <;> rfl
  have hsnapshot : saving.launcherSnapshot = some g.root ∨ saving.launcherSnapshot = g.launcherSnapshot := by
    rw [← hsaving]
    split
    · exact .inl rfl
    · exact .inr rfl
  have hsaved : GroupOk saving := by
    refine ⟨hroot ▸ h.ids, hroot ▸ h.cap, hroot ▸ h.viable, ?_, fun saved heq => ?_⟩
    · rw [hrep, hroot]
      exact h.representative
    · rw [hroot]
      rcases hsnapshot with hs | hs
      · obtain rfl := mem_unique hs heq
        exact ⟨h.ids, h.viable, fun _ hpane => hpane⟩
      · exact h.snapshot saved (hs.symm.trans heq)
  simp only [PaneGroup.insertLauncher, hsaving]
  cases hpath : saving.root.pathToPane targetPaneId with
  | none => exact ⟨hsaved, by rw [hroot]⟩
  | some =>
    obtain ⟨root', hroot', hleaves⟩ := leaves_splitLeaf hpath edge ⟨newPaneId, .launcher projectId⟩
    simp only [hroot']
    rw [hroot] at hleaves
    exact ⟨h.addLauncher hleaves hfresh hrep hsnapshot, sessionLeaves_cons_launcher hleaves⟩

end Insert

/-! ## Rearranging -/

section Rearrange

variable {g g' : PaneGroup}

/-- **The same leaves**, in whatever order. -/
theorem GroupOk.rearrange (h : GroupOk g) (hleaves : g'.root.leaves.Perm g.root.leaves)
    (hrep : g'.representativePaneId = g.representativePaneId)
    (hsnapshot : g'.launcherSnapshot = none ∨ g'.launcherSnapshot = g.launcherSnapshot) : GroupOk g' := by
  have hsessions := sessionLeaves_perm hleaves
  have hmem : ∀ pane ∈ g.root.sessionLeaves, pane ∈ g'.root.sessionLeaves := hsessions.symm.subset
  refine ⟨(hleaves.map Pane.id).nodup_iff.mpr h.ids, hsessions.length_eq ▸ h.cap, ?_,
    hrep ▸ sessionPaneIds_mono hmem h.representative, fun saved hsaved => ?_⟩
  · rw [Viable, hsessions.length_eq]
    refine h.viable.imp_right fun hone => ⟨hone.1, ?_⟩
    exact containsLauncher_mono (fun pane hpane => hleaves.mem_iff.mpr hpane) hone.2
  · rcases hsnapshot with heq | heq
    · exact nomatch heq.symm.trans hsaved
    · exact (h.snapshot saved (heq.symm.trans hsaved)).mono hmem

theorem leaves_equalize {root : PaneNode} : root.equalize.leaves = root.leaves := by
  induction root with
  | leaf => rfl
  | split b l r ihl ihr =>
    simp only [PaneNode.equalize, leaves]
    rw [ihl, ihr]

theorem resizeSplit_cases (g : PaneGroup) (path : PaneSplitPath) (ratio : Float) : (g.resizeSplit path ratio).2 = g ∨
      ∃ root', (g.resizeSplit path ratio).2 = { g with root := root', launcherSnapshot := none } ∧
        root'.leaves = g.root.leaves := by
  rw [resizeSplit]
  cases hupdate : g.root.updateAt (withRatio ratio) path with
  | none => exact .inl rfl
  | some root' =>
    refine .inr ⟨root', rfl, leaves_updateAt (fun n n' hn => ?_) hupdate⟩
    cases n with
    | leaf => exact nomatch hn
    | split =>
      obtain rfl := some.inj hn
      rfl

/-- **Exchanging two leaves** keeps the leaves. -/
theorem leaves_exchange {root : PaneNode} (ha : root.nodeAt pa = some (.leaf a)) (hb : root.nodeAt pb = some (.leaf b))
    (hne : pb ≠ pa) : ∃ root', exchange root pa pb = some root' ∧ root'.leaves.Perm root.leaves := by
  obtain ⟨root₁, h₁, hperm₁, hnode₁, hothers₁⟩ := setAt_leaf ha ⟨"", .session ""⟩
  obtain ⟨root₂, h₂, hperm₂, hnode₂, hothers₂⟩ := setAt_leaf (hothers₁ pb b hne hb) ⟨"", .session ""⟩
  obtain ⟨root₃, h₃, hperm₃, hnode₃, hothers₃⟩ := setAt_leaf (hothers₂ pa _ hne.symm hnode₁) b
  obtain ⟨root₄, h₄, hperm₄, -, -⟩ := setAt_leaf (hothers₃ pb _ hne hnode₂) a
  refine ⟨root₄, ?_, ?_⟩
  · simp only [exchange, placeholder, ha, h₁, hothers₁ pb b hne hb, h₂, h₃, h₄, bind_eq_bind, bind_some]
  · -- what is taken out at one place is put in at the other
    rw [perm_iff_count]
    intro pane
    have c₁ := perm_iff_count.mp hperm₁ pane
    have c₂ := perm_iff_count.mp hperm₂ pane
    have c₃ := perm_iff_count.mp hperm₃ pane
    have c₄ := perm_iff_count.mp hperm₄ pane
    simp only [count_cons] at c₁ c₂ c₃ c₄
    omega

theorem swapPanes_cases (g : PaneGroup) (paneId otherPaneId : String) : (g.swapPanes paneId otherPaneId).2 = g ∨
      ∃ root', (g.swapPanes paneId otherPaneId).2 = { g with root := root' } ∧ root'.leaves.Perm g.root.leaves := by
  rw [swapPanes]
  split
  · exact .inl rfl
  · rename_i hids
    split
    · rename_i pa pb hpa hpb
      obtain ⟨-, a, -, -, hida, -, ha, -⟩ := pathTo_spec hpa
      obtain ⟨-, b, -, -, hidb, -, hb, -⟩ := pathTo_spec hpb
      have hne : pb ≠ pa := by
        rintro rfl
        obtain rfl := leaf.inj (mem_unique ha hb)
        exact hids ((eq_of_beq hida).symm.trans (eq_of_beq hidb))
      obtain ⟨root', hroot', hleaves⟩ := leaves_exchange ha hb hne
      simp only [hroot']
      exact .inr ⟨root', rfl, hleaves⟩
    · exact .inl rfl

end Rearrange

/-! ## Taking out -/

section TakeOut

variable {g : PaneGroup} {root root' : PaneNode} {paneId : String}

/-- **Taking out a pane.** -/
theorem detachUnchecked_cases (root : PaneNode) (paneId : String) :
    (∃ root', root.detachUnchecked paneId = some root' ∧ root'.leaves = root.leaves.eraseP (fun pane => pane.id == paneId)) ∨
      root.detachUnchecked paneId = none ∧ (paneId ∉ paneIds root ∨ ∃ pane, root = .leaf pane) := by
  rcases detach_spec (fun pane : Pane => pane.id == paneId) root with h | ⟨hnone, h⟩
  · exact .inl h
  · refine .inr ⟨hnone, h.imp_left fun hno hin => ?_⟩
    obtain ⟨pane, hpane, rfl⟩ := mem_map.mp hin
    exact nomatch (hno pane hpane).symm.trans (beq_self_eq_true _)

theorem sublist_of_eraseP (h : root'.leaves = root.leaves.eraseP fun pane => pane.id == paneId) :
    root'.leaves.Sublist root.leaves := h ▸ eraseP_sublist

theorem sessionLeaves_sublist (h : root'.leaves.Sublist root.leaves) : root'.sessionLeaves.Sublist root.sessionLeaves :=
  h.filter _

theorem paneIds_nodup_of_sublist (h : root'.leaves.Sublist root.leaves) (hids : (paneIds root).Nodup) :
    (paneIds root').Nodup := hids.sublist (h.map Pane.id)

theorem mem_of_id_ne (h : root'.leaves = root.leaves.eraseP fun pane => pane.id == paneId)
    (hpane : pane ∈ root.sessionLeaves) (hne : pane.id ≠ paneId) : pane ∈ root'.sessionLeaves := by
  obtain ⟨hin, hsession⟩ := mem_sessionLeaves.mp hpane
  refine mem_sessionLeaves.mpr ⟨?_, hsession⟩
  rw [h]
  exact (mem_eraseP_of_neg (by simpa using hne)).mpr hin

theorem not_mem_paneIds_of_eraseP (hids : (paneIds root).Nodup)
    (h : root'.leaves = root.leaves.eraseP fun pane => pane.id == paneId) : paneId ∉ paneIds root' := by
  intro hin
  obtain ⟨pane, hpane, hid⟩ := mem_map.mp hin
  rw [h] at hpane
  have his : (pane.id == paneId) = true := beq_iff_eq.mpr hid
  obtain ⟨a, l₁, l₂, hno, ha, hleaves, herase⟩ :=
    exists_of_eraseP (p := fun pane => pane.id == paneId) (mem_of_mem_eraseP hpane) his
  rw [herase] at hpane
  rcases mem_append.mp hpane with hfirst | hlast
  · exact hno pane hfirst his
  · -- the one that was taken has the same id as the one that is left
    rw [paneIds, hleaves, map_append, map_cons] at hids
    refine (nodup_cons.mp (nodup_append.mp hids).2.1).1 ?_
    rw [eq_of_beq ha, ← hid]
    exact mem_map_of_mem hlast

/-- A group whose first Session represents it. -/
theorem promote_representative (h : 1 ≤ g.root.sessionLeaves.length) :
    g.promote.representativePaneId ∈ sessionPaneIds g.promote.root := by
  rw [promote]
  cases hhead : g.root.sessionLeaves with
  | nil =>
    rw [hhead] at h
    exact absurd h (Nat.not_succ_le_zero 0)
  | cons first rest =>
    show first.id ∈ sessionPaneIds g.root
    rw [sessionPaneIds, hhead]
    exact mem_cons_self

theorem promote_root (g : PaneGroup) : g.promote.root = g.root := by
  rw [promote]
  split <;> rfl

theorem promote_snapshot : g.promote.launcherSnapshot = g.launcherSnapshot := by
  rw [promote]
  split <;> rfl

/-- **A pane is detached**, and the group survives. -/
theorem GroupOk.detachPane (h : GroupOk g) (hsurvives : (g.detachPane paneId).1 = true) :
    GroupOk (g.detachPane paneId).2 ∧ (g.detachPane paneId).2.root.sessionLeaves.Sublist g.root.sessionLeaves := by
  rw [PaneGroup.detachPane] at hsurvives ⊢
  rcases detachUnchecked_cases g.root paneId with ⟨root', hroot', hleaves⟩ | ⟨hnone, -⟩
  · simp only [hroot'] at hsurvives ⊢
    have hsub := sublist_of_eraseP hleaves
    by_cases hrep : g.representativePaneId = paneId
    · simp only [if_pos hrep] at hsurvives ⊢
      have hviable := isViable_iff.mp hsurvives
      have hroot := promote_root { g with root := root', launcherSnapshot := none }
      rw [hroot] at hviable
      refine ⟨⟨?_, ?_, ?_, ?_, ?_⟩, ?_⟩
      · rw [hroot]
        exact paneIds_nodup_of_sublist hsub h.ids
      · rw [hroot]
        exact Nat.le_trans (sessionLeaves_sublist hsub).length_le h.cap
      · rw [hroot]
        exact hviable
      · exact promote_representative (viable_one_le hviable)
      · rw [promote_snapshot]
        exact nofun
      · rw [hroot]
        exact sessionLeaves_sublist hsub
    · simp only [if_neg hrep] at hsurvives ⊢
      refine ⟨⟨paneIds_nodup_of_sublist hsub h.ids, Nat.le_trans (sessionLeaves_sublist hsub).length_le h.cap,
        isViable_iff.mp hsurvives, ?_, nofun⟩, sessionLeaves_sublist hsub⟩
      obtain ⟨pane, hpane, hid⟩ := mem_map.mp h.representative
      exact mem_map.mpr ⟨pane, mem_of_id_ne hleaves hpane (hid ▸ hrep), hid⟩
  · simp only [hnone] at hsurvives
    exact nomatch hsurvives

/-- A pane that is no Session leaves the Sessions as they are. -/
theorem sessionLeaves_eraseP (hids : (paneIds root).Nodup) (hpane : pane ∈ root.leaves)
    (hlauncher : pane.content.isLauncher = true) (h : root'.leaves = root.leaves.eraseP fun p => p.id == pane.id) :
    root'.sessionLeaves = root.sessionLeaves := by
  rw [sessionLeaves, sessionLeaves, h]
  refine filter_eraseP_of_not fun p hp hid => ?_
  rw [eq_of_id_eq hids hp hpane (eq_of_beq hid)]
  exact not_session_of_launcher hlauncher

end TakeOut

/-! ## Launchers that go -/

section Launchers

variable {g : PaneGroup} {root : PaneNode} {paneId : String}

/-- **A launcher is bound to a Session.** -/
theorem bindLauncher_cases (g : PaneGroup) (paneId sessionId : String) : (g.bindLauncher paneId sessionId).2 = g ∨
      ∃ root', (g.bindLauncher paneId sessionId).2 = { g with root := root' } ∧ paneId ∈ launcherIds g.root ∧
        paneIds root' = paneIds g.root ∧ root'.sessionLeaves.Perm (⟨paneId, .session sessionId⟩ :: g.root.sessionLeaves) := by
  rw [bindLauncher]
  cases hpath : g.root.pathToPane paneId with
  | none => exact .inl rfl
  | some =>
    obtain ⟨pre, a, post, hleaves, hid, -, -, hnone, hsome⟩ := pathTo_spec hpath
    obtain ⟨id, content⟩ := a
    obtain rfl : id = paneId := eq_of_beq hid
    cases content with
    | session =>
      dsimp only
      rw [hnone (bound sessionId) rfl]
      exact .inl rfl
    | launcher projectId =>
      obtain ⟨root', hroot', hleaves'⟩ := hsome (bound sessionId) _ rfl
      simp only [hroot']
      have hsplit : root'.leaves = pre ++ ⟨id, .session sessionId⟩ :: post := by
        rw [hleaves', leaves, append_assoc]
        rfl
      refine .inr ⟨root', rfl, ?_, ?_, ?_⟩
      · refine mem_map.mpr ⟨⟨id, .launcher projectId⟩, mem_filter.mpr ⟨?_, rfl⟩, rfl⟩
        rw [hleaves]
        exact mem_append_right _ mem_cons_self
      · rw [paneIds, paneIds, hsplit, hleaves, map_append, map_append]
        rfl
      · rw [sessionLeaves, sessionLeaves, hsplit, hleaves, filter_append, filter_append]
        exact perm_middle

theorem GroupOk.bindLauncher (h : GroupOk g) (hids : paneIds root' = paneIds g.root)
    (hsessions : root'.sessionLeaves.Perm (⟨paneId, .session sessionId⟩ :: g.root.sessionLeaves))
    (hroom : g.root.sessionLeaves.length < sessionLeafCap) : GroupOk { g with root := root' } := by
  have hlength : root'.sessionLeaves.length = g.root.sessionLeaves.length + 1 := hsessions.length_eq
  have hmem : ∀ pane ∈ g.root.sessionLeaves, pane ∈ root'.sessionLeaves := fun pane hpane =>
    hsessions.mem_iff.mpr (mem_cons_of_mem _ hpane)
  refine ⟨hids ▸ h.ids, ?_, .inl ?_, sessionPaneIds_mono hmem h.representative, fun saved hsaved =>
    (h.snapshot saved hsaved).mono hmem⟩
  · show root'.sessionLeaves.length ≤ sessionLeafCap
    omega
  · show 2 ≤ root'.sessionLeaves.length
    have := viable_one_le h.viable
    omega

/-- What the scratch copy of `remove_launcher` still has. -/
structure Stripped (root scratch : PaneNode) : Prop where
  leaves : scratch.leaves.Sublist root.leaves
  sessions : scratch.sessionLeaves = root.sessionLeaves

variable {saved : PaneNode} {scratch : PaneNode × Bool}

theorem Stripped.stripOne (hids : (paneIds root).Nodup) (h : Stripped root scratch.1)
    (hpane : pane ∈ root.leaves) (hlauncher : pane.content.isLauncher = true) :
    Stripped root (stripOne scratch pane.id).1 := by
  rw [PaneGroup.stripOne]
  split
  · rcases detachUnchecked_cases scratch.1 pane.id with ⟨root', hroot', hleaves⟩ | ⟨hnone, -⟩
    · simp only [hroot', getD_some]
      have hsub : root'.leaves.Sublist scratch.1.leaves := sublist_of_eraseP hleaves
      refine ⟨hsub.trans h.leaves, ?_⟩
      rw [← h.sessions, sessionLeaves, sessionLeaves, hleaves]
      refine filter_eraseP_of_not fun p hp hid => ?_
      rw [eq_of_id_eq hids (h.leaves.subset hp) hpane (eq_of_beq hid)]
      exact not_session_of_launcher hlauncher
    · simp only [hnone, getD_none]
      exact h
  · exact h

theorem Stripped.foldl (hids : (paneIds root).Nodup) {launchers : List Pane}
    (hlaunchers : ∀ pane ∈ launchers, pane ∈ root.leaves ∧ pane.content.isLauncher = true)
    (h : Stripped root scratch.1) : Stripped root ((launchers.map Pane.id).foldl PaneGroup.stripOne scratch).1 := by
  induction launchers generalizing scratch with
  | nil => exact h
  | cons pane rest ih =>
    obtain ⟨hpane, hlauncher⟩ := hlaunchers pane mem_cons_self
    exact ih (fun p hp => hlaunchers p (mem_cons_of_mem _ hp)) (h.stripOne hids hpane hlauncher)

theorem mem_of_sameIds (h : sameIds a b = true) {id : String} (hid : id ∈ b) : id ∈ a := by
  obtain ⟨-, hall⟩ := Bool.and_eq_true_iff.mp h
  exact contains_iff_mem.mp (all_eq_true.mp hall id hid)

/-- **A launcher is removed.** Either the saved tree is put back, or the launcher is taken out. -/
theorem removeLauncher_cases (g : PaneGroup) (paneId : String) :
    (g.removeLauncher paneId).2 = g ∨ (∃ saved, g.launcherSnapshot = some saved ∧
        sameIds (sessionPaneIds saved) (sessionPaneIds (stripLaunchers g.root).1) = true ∧
        (g.removeLauncher paneId).2 = { g with root := saved, launcherSnapshot := none }) ∨
      ∃ root', root'.leaves = g.root.leaves.eraseP (fun pane => pane.id == paneId) ∧
        (g.removeLauncher paneId).2 = { g with root := root', launcherSnapshot := none } := by
  rw [removeLauncher]
  split
  · rename_i saved hsaved
    obtain ⟨hsnapshot, hsame⟩ := filter_eq_some_iff.mp hsaved
    exact .inr (.inl ⟨saved, hsnapshot, (Bool.and_eq_true_iff.mp hsame).2, rfl⟩)
  · rcases detachUnchecked_cases g.root paneId with ⟨root', hroot', hleaves⟩ | ⟨hnone, -⟩
    · simp only [hroot']
      exact .inr (.inr ⟨root', hleaves, rfl⟩)
    · rw [hnone]
      exact .inl rfl

theorem sessionIds_subperm (h : saved.sessionLeaves.Subperm root.sessionLeaves) :
    (sessionIds saved).Subperm (sessionIds root) := by
  obtain ⟨kept, hperm, hsub⟩ := h
  exact ⟨_, hperm.filterMap _, hsub.filterMap _⟩

theorem SnapshotOk.subperm (h : SnapshotOk root saved) : saved.sessionLeaves.Subperm root.sessionLeaves :=
  subperm_of_subset ((List.Nodup.of_map _ h.ids).filter _) h.sessions

theorem GroupOk.restored (h : GroupOk g) (hsnapshot : g.launcherSnapshot = some saved)
    (hsame : sameIds (sessionPaneIds saved) (sessionPaneIds (stripLaunchers g.root).1) = true) :
    GroupOk { g with root := saved, launcherSnapshot := none } := by
  have hsaved := h.snapshot saved hsnapshot
  refine ⟨hsaved.ids, Nat.le_trans hsaved.subperm.length_le h.cap, hsaved.viable, mem_of_sameIds hsame ?_, nofun⟩
  have hstripped : Stripped g.root (stripLaunchers g.root).1 :=
    Stripped.foldl h.ids (fun _ hpane => mem_filter.mp hpane) ⟨List.Sublist.refl _, rfl⟩
  rw [sessionPaneIds, hstripped.sessions]
  exact h.representative

/-- A launcher that a group can do without. -/
def Spare (root : PaneNode) (paneId : String) : Prop :=
  paneId ∈ launcherIds root ∧ (2 ≤ root.sessionLeaves.length ∨ 2 ≤ (launcherLeaves root).length)

instance (root : PaneNode) (paneId : String) : Decidable (Spare root paneId) := inferInstanceAs (Decidable (_ ∧ _))

theorem GroupOk.takeLauncher (h : GroupOk g) (hspare : Spare g.root paneId)
    (hleaves : root'.leaves = g.root.leaves.eraseP fun pane => pane.id == paneId) :
    root'.sessionLeaves = g.root.sessionLeaves ∧ GroupOk { g with root := root', launcherSnapshot := none } := by
  obtain ⟨hlauncher, hmany⟩ := hspare
  obtain ⟨pane, hpane, rfl⟩ := mem_map.mp hlauncher
  obtain ⟨hin, his⟩ := mem_filter.mp hpane
  have hsessions := sessionLeaves_eraseP h.ids hin his hleaves
  refine ⟨hsessions, paneIds_nodup_of_sublist (sublist_of_eraseP hleaves) h.ids, ?_, ?_, ?_, nofun⟩
  · exact hsessions ▸ h.cap
  · show Viable root'
    rw [Viable, hsessions]
    rcases h.viable with htwo | ⟨hone, -⟩
    · exact .inl htwo
    · -- with one Session there is a second launcher
      refine .inr ⟨hone, ?_⟩
      have hmore : 2 ≤ (launcherLeaves g.root).length := hmany.resolve_left (by omega)
      have hnodup : (launcherLeaves g.root).Nodup := (List.Nodup.of_map _ h.ids).filter _
      obtain ⟨other, hother, hne⟩ := exists_mem_ne hnodup hmore pane
      obtain ⟨hotherIn, hotherIs⟩ := mem_filter.mp hother
      refine containsLauncher_iff.mpr ⟨other, ?_, hotherIs⟩
      rw [hleaves]
      refine (mem_eraseP_of_neg ?_).mpr hotherIn
      simpa using fun hid => hne (eq_of_id_eq h.ids hotherIn hin hid)
  · show g.representativePaneId ∈ sessionPaneIds root'
    rw [sessionPaneIds, hsessions]
    exact h.representative

end Launchers

/-! ## Sessions that are gone -/

section Reconcile

variable {g₀ g : PaneGroup}

/-- What `reconcile` keeps of a group while it goes over the dead Sessions. -/
structure Reconciling (g₀ g : PaneGroup) : Prop where
  leaves : g.root.leaves.Sublist g₀.root.leaves
  representative : g.root.sessionLeaves ≠ [] → g.representativePaneId ∈ sessionPaneIds g.root

theorem Reconciling.promote (h : Reconciling g₀ g) : Reconciling g₀ g.promote := by
  refine ⟨promote_root g ▸ h.leaves, fun hne => promote_representative ?_⟩
  rw [promote_root] at hne
  exact length_pos_iff.mpr hne

theorem Reconciling.dropDead (hids : (paneIds g₀.root).Nodup) (h : Reconciling g₀ g) :
    Reconciling g₀ (Layout.dropDead g paneId) := by
  rw [Layout.dropDead]
  rcases detachUnchecked_cases g.root paneId with ⟨root', hroot', hleaves⟩ | ⟨hnone, -⟩
  · simp only [hroot', getD_some]
    have hsub : root'.leaves.Sublist g₀.root.leaves := (sublist_of_eraseP hleaves).trans h.leaves
    have hids' : (paneIds g.root).Nodup := hids.sublist (h.leaves.map Pane.id)
    have hgone : paneId ∉ paneIds root' := not_mem_paneIds_of_eraseP hids' hleaves
    by_cases hrep : g.representativePaneId = paneId
    · have hnone : (root'.findLeaf paneId).isNone = true := by
        rw [isNone_iff_eq_none, findLeaf, find?_eq_none]
        exact fun pane hpane hid => hgone (mem_map.mpr ⟨pane, hpane, eq_of_beq hid⟩)
      rw [if_pos ⟨hrep, hrep ▸ hnone⟩]
      -- the first Session that is left represents the group
      have hroot := promote_root { g with root := root' }
      refine ⟨hroot ▸ hsub, fun hne => promote_representative ?_⟩
      rw [hroot] at hne
      exact length_pos_iff.mpr hne
    · rw [if_neg fun hand => hrep hand.1]
      refine ⟨hsub, fun hne => ?_⟩
      have hbefore : g.root.sessionLeaves ≠ [] := fun hnil =>
        hne (sublist_nil.mp (hnil ▸ sessionLeaves_sublist (sublist_of_eraseP hleaves)))
      obtain ⟨pane, hpane, hid⟩ := mem_map.mp (h.representative hbefore)
      exact mem_map.mpr ⟨pane, mem_of_id_ne hleaves hpane (hid ▸ hrep), hid⟩
  · simp only [hnone, getD_none]
    split
    · exact h.promote
    · exact h

theorem Reconciling.foldl (hids : (paneIds g₀.root).Nodup) (h : Reconciling g₀ g) (dead : List String) :
    Reconciling g₀ (dead.foldl Layout.dropDead g) := by
  induction dead generalizing g with
  | nil => exact h
  | cons paneId rest ih => exact ih (h.dropDead hids)

/-- **A group is reconciled**, and survives. -/
theorem GroupOk.reconcileGroup (h : GroupOk g)
    (hviable : (Layout.reconcileGroup eligible g).isViable = true) :
    GroupOk (Layout.reconcileGroup eligible g) ∧
      (Layout.reconcileGroup eligible g).root.sessionLeaves.Sublist g.root.sessionLeaves := by
  rw [Layout.reconcileGroup] at hviable ⊢
  have hrec := Reconciling.foldl h.ids ⟨List.Sublist.refl _, fun _ => h.representative⟩
    ((g.root.sessionLeaves.filter fun pane => pane.content.sessionId.any fun id => !eligible id).map Pane.id)
  have hone := viable_one_le (isViable_iff.mp hviable)
  refine ⟨⟨paneIds_nodup_of_sublist hrec.leaves h.ids,
    Nat.le_trans (sessionLeaves_sublist hrec.leaves).length_le h.cap, isViable_iff.mp hviable,
    hrec.representative (length_pos_iff.mp hone), nofun⟩, sessionLeaves_sublist hrec.leaves⟩

end Reconcile

/-! ## Well-formed layouts -/

/-- The Sessions of all groups, as often as they have a pane. -/
def layoutSessions (groups : Layout) : List String := groups.flatMap fun g => sessionIds g.root

/-- **A well-formed layout.** -/
structure LayoutOk (groups : Layout) : Prop where
  each : ∀ g ∈ groups, GroupOk g
  sessions : (layoutSessions groups).Nodup

theorem sessionIds_sublist {root root' : PaneNode} (h : root'.sessionLeaves.Sublist root.sessionLeaves) :
    (sessionIds root').Sublist (sessionIds root) :=
  h.filterMap _

end Supercli.Panes
