import Supercli.Panes.Groups

/-!
# `Panes.Decoding` — what a durable layout is decoded to

Decoding a layout of version 2 takes out panes whose Session was seen before, trims what is left to the cap and drops the
groups that are no longer viable. It gives a well-formed layout if every group names its panes apart, if no Session is
repeated more often than one pane is taken out for it, and if the representative is not trimmed away (`CleanTree`). A layout
of version 1 is not deduplicated at all, so that its Sessions have to differ (`CleanFlat`).
-/

namespace Supercli.Panes

open List

open PaneNode PaneGroup

variable {lower : String → String} {root root' : PaneNode}

/-- A tree without launchers. -/
def AllSessions (root : PaneNode) : Prop := ∀ pane ∈ root.leaves, pane.content.sessionId.isSome = true

theorem AllSessions.sessionLeaves (h : AllSessions root) : root.sessionLeaves = root.leaves :=
  filter_eq_self.mpr h

theorem AllSessions.sublist (h : AllSessions root) (hsub : root'.leaves.Sublist root.leaves) : AllSessions root' :=
  fun pane hpane => h pane (hsub.subset hpane)

theorem AllSessions.viable (h : AllSessions root) (hviable : Viable root) : 2 ≤ root.leaves.length := by
  rcases hviable with htwo | ⟨-, hlauncher⟩
  · rwa [h.sessionLeaves] at htwo
  · obtain ⟨pane, hpane, his⟩ := containsLauncher_iff.mp hlauncher
    exact nomatch (h pane hpane).symm.trans (not_session_of_launcher his)

/-! ## Trimming -/

theorem eraseP_concat {p : α → Bool} {l : List α} {a : α} (h : ∀ x ∈ l, p x = false) (ha : p a = true) :
    (l ++ [a]).eraseP p = l := by
  rw [eraseP_append_right _ (fun x hx => by rw [h x hx]; exact Bool.false_ne_true), eraseP_cons_of_pos ha, append_nil]

/-- **What is past the cap is trimmed.** -/
theorem leaves_trim {fuel : Nat} (hall : AllSessions root) (hids : (paneIds root).Nodup)
    (hfuel : root.leaves.length ≤ sessionLeafCap + fuel) : (trim fuel root).leaves = root.leaves.take sessionLeafCap := by
  induction fuel generalizing root with
  | zero => exact (take_of_length_le hfuel).symm
  | succ fuel ih =>
    simp only [trim, hall.sessionLeaves]
    split
    · rename_i hcap
      exact (take_of_length_le hcap).symm
    · rename_i hmore
      obtain ⟨init, victim, hleaves⟩ : ∃ init victim, root.leaves = init ++ [victim] :=
        (eq_nil_or_concat' root.leaves).resolve_left root.leaves_ne_nil
      have hlength : root.leaves.length = init.length + 1 := by
        rw [hleaves, length_append]
        rfl
      have hlast : root.leaves.getLast? = some victim := by
        rw [hleaves, getLast?_concat]
      have herase : root.leaves.eraseP (fun pane => pane.id == victim.id) = init := by
        rw [hleaves]
        refine eraseP_concat (fun pane hpane => ?_) (beq_self_eq_true _)
        rw [paneIds, hleaves, map_append] at hids
        refine beq_eq_false_iff_ne.mpr fun hid => ?_
        exact (nodup_append.mp hids).2.2 pane.id (mem_map_of_mem hpane) victim.id mem_cons_self hid
      rcases detachUnchecked_cases root victim.id with ⟨root', hroot', hleft⟩ | ⟨-, hno | ⟨pane, rfl⟩⟩
      · simp only [hlast, hroot']
        have hsub := sublist_of_eraseP hleft
        rw [herase] at hleft
        rw [ih (hall.sublist hsub) (paneIds_nodup_of_sublist hsub hids) (by rw [hleft]; omega), hleft, hleaves,
          take_append_of_le_length (by omega)]
      · -- the last leaf has its id
        refine absurd (mem_map_of_mem ?_) hno
        rw [hleaves]
        exact mem_append_right _ mem_cons_self
      · exact absurd (show 1 ≤ sessionLeafCap by decide) hmore

/-- A group with a representative that it has. -/
def named (group : PaneGroup) : PaneGroup :=
  if (group.root.findLeaf group.representativePaneId).isNone then group.promote else group

variable (group : PaneGroup)

theorem canonicalizeGroup_eq : canonicalizeGroup group
      = { named group with root := trim (named group).root.sessionLeaves.length (named group).root } := rfl

theorem named_root : (named group).root = group.root := by
  rw [named]
  split
  · exact promote_root group
  · rfl

theorem named_snapshot : (named group).launcherSnapshot = group.launcherSnapshot := by
  rw [named]
  split
  · exact promote_snapshot
  · rfl

/-- The representative is among the leaves that stay. -/
theorem named_representative {group : PaneGroup} (hall : AllSessions group.root)
    (hrep : group.representativePaneId ∉ (paneIds group.root).drop sessionLeafCap) :
    (named group).representativePaneId ∈ (paneIds group.root).take sessionLeafCap := by
  rw [named]
  split
  · -- the first leaf is promoted
    rw [promote, hall.sessionLeaves, paneIds]
    cases hleaves : group.root.leaves with
    | nil => exact absurd hleaves group.root.leaves_ne_nil
    | cons => exact mem_cons_self
  · rename_i hfound
    rw [Option.isNone_iff_eq_none] at hfound
    obtain ⟨pane, hpane⟩ := Option.ne_none_iff_exists'.mp hfound
    have his : (pane.id == group.representativePaneId) = true :=
      find?_some (p := fun pane : Pane => pane.id == group.representativePaneId) hpane
    have hid : pane.id = group.representativePaneId := eq_of_beq his
    have hin : group.representativePaneId ∈ paneIds group.root := mem_map.mpr ⟨pane, mem_of_find?_eq_some hpane, hid⟩
    rw [← take_append_drop sessionLeafCap (paneIds group.root)] at hin
    exact (mem_append.mp hin).resolve_right hrep

/-- **A group is canonicalized**, and is viable. -/
theorem canonicalizeGroup_ok {group : PaneGroup} (hall : AllSessions group.root) (hids : (paneIds group.root).Nodup)
    (hrep : group.representativePaneId ∉ (paneIds group.root).drop sessionLeafCap)
    (hsnapshot : group.launcherSnapshot = none) (hviable : (canonicalizeGroup group).isViable = true) :
    GroupOk (canonicalizeGroup group) ∧
      (canonicalizeGroup group).root.leaves = group.root.leaves.take sessionLeafCap := by
  have hkept := named_representative hall hrep
  have hleaves : (canonicalizeGroup group).root.leaves = group.root.leaves.take sessionLeafCap := by
    rw [canonicalizeGroup_eq]
    simp only [named_root, hall.sessionLeaves]
    exact leaves_trim hall hids (Nat.le_add_left _ _)
  have hsub : (canonicalizeGroup group).root.leaves.Sublist group.root.leaves := hleaves ▸ take_sublist _ _
  have hsessions := (hall.sublist hsub).sessionLeaves
  refine ⟨⟨paneIds_nodup_of_sublist hsub hids, ?_, isViable_iff.mp hviable, ?_, fun saved heq => ?_⟩, hleaves⟩
  · rw [hsessions, hleaves]
    exact length_take_le _ _
  · rw [sessionPaneIds, hsessions, hleaves, map_take]
    exact hkept
  · cases (hsnapshot.symm.trans (named_snapshot group).symm).trans heq

/-! ## Version 2 -/

section Tree

theorem leaves_liveNode :
    (liveNode lower t).leaves = t.leaves.map fun pane => ⟨canonicalId lower pane.id, .session pane.sessionId⟩ := by
  induction t with
  | leaf => rfl
  | split b l r ihl ihr => rw [liveNode, LeafTree.leaves, LeafTree.leaves, ihl, ihr, map_append]

theorem liveNode_allSessions (lower : String → String) (t : DurablePaneNode) : AllSessions (liveNode lower t) := by
  intro pane hpane
  rw [leaves_liveNode] at hpane
  obtain ⟨durable, -, rfl⟩ := mem_map.mp hpane
  rfl

/-- **How often a Session is dropped**: as often as it stands there, less the first if it is new. -/
theorem count_seenAgain (seen ids : List String) (x : String) :
    (seenAgain seen ids).1.count x = ids.count x - if x ∈ seen then 0 else 1 := by
  induction ids generalizing seen with
  | nil => simp [seenAgain]
  | cons id rest ih =>
    simp only [seenAgain]
    split
    · rename_i hseen
      simp only [count_cons, ih]
      have : id ∈ seen := contains_iff_mem.mp hseen
      by_cases hid : id = x
      · subst hid
        simp [this]
      · simp [hid]
    · rename_i hseen
      rw [ih, count_cons]
      have : id ∉ seen := fun hin => hseen (contains_iff_mem.mpr hin)
      by_cases hid : id = x
      · subst hid
        simp [this]
      · have hne : x ≠ id := fun h => hid h.symm
        simp [hid, hne]

theorem subset_seenAgain (seen ids : List String) :
    (∀ x ∈ seen, x ∈ (seenAgain seen ids).2) ∧ ∀ x ∈ ids, x ∈ (seenAgain seen ids).2 := by
  induction ids generalizing seen with
  | nil => exact ⟨fun _ h => h, nofun⟩
  | cons id rest ih =>
    simp only [seenAgain]
    split
    · rename_i hseen
      refine ⟨(ih seen).1, forall_mem_cons.mpr ⟨?_, (ih seen).2⟩⟩
      exact (ih seen).1 id (contains_iff_mem.mp hseen)
    · obtain ⟨hid, hseen⟩ := forall_mem_cons.mp (ih (id :: seen)).1
      exact ⟨hseen, forall_mem_cons.mpr ⟨hid, (ih (id :: seen)).2⟩⟩

/-- Erasing what stands there once. -/
theorem eraseP_eq_filter (hids : (paneIds root).Nodup)
    (h : root'.leaves = root.leaves.eraseP fun pane => pane.id == paneId) :
    root'.leaves = root.leaves.filter fun pane => pane.id != paneId := by
  have hgone := not_mem_paneIds_of_eraseP hids h
  have hself : root'.leaves.filter (fun pane => pane.id != paneId) = root'.leaves :=
    filter_eq_self.mpr fun pane hpane => bne_iff_ne.mpr fun hid => hgone (hid ▸ mem_map_of_mem hpane)
  rw [← hself, h]
  exact filter_eraseP_of_not fun pane _ hid => by rw [bne, hid]; rfl

theorem detachAll_leaf : detachAll (.leaf pane) ids = .leaf pane := by
  induction ids with
  | nil => rfl
  | cons id rest ih =>
    rw [detachAll, foldl_cons, detachUnchecked, LeafTree.detach_leaf]
    exact ih

theorem detachAll_sublist (root : PaneNode) : (detachAll root ids).leaves.Sublist root.leaves := by
  induction ids generalizing root with
  | nil => exact List.Sublist.refl _
  | cons id rest ih =>
    refine (ih ((root.detachUnchecked id).getD root)).trans ?_
    rcases detachUnchecked_cases root id with ⟨root', hroot', hleaves⟩ | ⟨hnone, -⟩
    · rw [hroot', Option.getD_some]
      exact sublist_of_eraseP hleaves
    · rw [hnone, Option.getD_none]

/-- **Detaching panes**: they are gone, or one leaf is left. -/
theorem detachAll_cases (hids : (paneIds root).Nodup) :
    (detachAll root ids).leaves = root.leaves.filter (fun pane => !ids.contains pane.id) ∨
      ∃ pane, detachAll root ids = .leaf pane := by
  induction ids generalizing root with
  | nil => exact .inl (filter_eq_self.mpr fun _ _ => rfl).symm
  | cons id rest ih =>
    have hunfold : detachAll root (id :: rest) = detachAll ((root.detachUnchecked id).getD root) rest := rfl
    rw [hunfold]
    rcases detachUnchecked_cases root id with ⟨root', hroot', hleaves⟩ | ⟨hnone, hno | ⟨pane, rfl⟩⟩
    · rw [hroot', Option.getD_some]
      refine (ih (paneIds_nodup_of_sublist (sublist_of_eraseP hleaves) hids)).imp_left fun hrest => ?_
      rw [hrest, eraseP_eq_filter hids hleaves, filter_filter]
      refine filter_congr fun pane _ => ?_
      rw [contains_cons, Bool.not_or, Bool.and_comm]
      rfl
    · -- a pane that is not there
      rw [hnone, Option.getD_none]
      refine (ih hids).imp_left fun hrest => ?_
      rw [hrest]
      refine filter_congr fun pane hpane => ?_
      have hne : (pane.id == id) = false := beq_eq_false_iff_ne.mpr fun hid => hno (hid ▸ mem_map_of_mem hpane)
      rw [contains_cons, hne, Bool.false_or]
    · rw [hnone, Option.getD_none]
      exact .inr ⟨pane, detachAll_leaf⟩

/-- The Sessions of a tree without launchers are those of its leaves. -/
theorem count_sessionIds (hall : AllSessions root) :
    (sessionIds root).count x = root.leaves.countP fun pane => pane.content.sessionId == some x := by
  rw [sessionIds, hall.sessionLeaves, count, countP_filterMap]
  refine countP_congr fun pane _ => ?_
  cases pane.content.sessionId <;> simp

/-- **A pane is taken out** for every Session that is dropped. -/
theorem count_dropped {again : List String} (hall : AllSessions root)
    (hkept : kept.leaves = root.leaves.filter fun pane => !(again.filterMap (firstPaneOf root)).contains pane.id)
    (hx : x ∈ again) (hin : x ∈ sessionIds root) : (sessionIds kept).count x < (sessionIds root).count x := by
  have hsub : kept.leaves.Sublist root.leaves := hkept ▸ filter_sublist
  rw [count_sessionIds hall, count_sessionIds (hall.sublist hsub), hkept,
    countP_eq_countP_filter_add root.leaves _ fun pane => !(again.filterMap (firstPaneOf root)).contains pane.id]
  refine Nat.lt_add_of_pos_right (countP_pos_iff.mpr ?_)
  -- the first pane of the Session is one of those that go
  obtain ⟨pane, hpane, hsession⟩ := mem_filterMap.mp hin
  have hfind : (root.sessionLeaves.find? fun pane => pane.content.sessionId == some x).isSome = true :=
    find?_isSome.mpr ⟨pane, hpane, beq_iff_eq.mpr hsession⟩
  obtain ⟨first, hfirst⟩ := Option.isSome_iff_exists.mp hfind
  have hmem := mem_of_find?_eq_some hfirst
  rw [hall.sessionLeaves] at hmem
  refine ⟨first, mem_filter.mpr ⟨hmem, ?_⟩, find?_some (p := fun p : Pane => p.content.sessionId == some x) hfirst⟩
  have hgone : first.id ∈ again.filterMap (firstPaneOf root) :=
    mem_filterMap.mpr ⟨x, hx, by rw [firstPaneOf, hfirst]; rfl⟩
  simpa using hgone

variable {seen : List String}

/-- **What a group keeps**: no Session that was seen before it, and none twice. -/
theorem count_kept {kept : PaneNode} (hall : AllSessions root) (hagain : (seenAgain seen (sessionIds root)).1.Nodup)
    (hkept : kept.leaves = root.leaves.filter fun pane =>
      !((seenAgain seen (sessionIds root)).1.filterMap (firstPaneOf root)).contains pane.id) {x : String} :
    (sessionIds kept).count x ≤ if x ∈ seen then 0 else 1 := by
  have hsub : kept.leaves.Sublist root.leaves := hkept ▸ filter_sublist
  have hle : (sessionIds kept).count x ≤ (sessionIds root).count x :=
    (sessionIds_sublist (sessionLeaves_sublist hsub)).count_le x
  have hcount := count_seenAgain seen (sessionIds root) x
  have hone : (seenAgain seen (sessionIds root)).1.count x ≤ 1 := nodup_iff_count_le_one.mp hagain x
  have hdropped : 0 < (seenAgain seen (sessionIds root)).1.count x →
      (sessionIds kept).count x < (sessionIds root).count x := fun hpos =>
    count_dropped hall hkept (count_pos_iff.mp hpos) (count_pos_iff.mp (by omega))
  by_cases hseen : x ∈ seen
  · rw [if_pos hseen] at hcount ⊢
    omega
  · rw [if_neg hseen] at hcount ⊢
    omega

/-- A layout of version 2 that is decoded without loss of order: the panes of a group have different ids, no Session is
    seen again twice in a group, and the representative is not past the cap. -/
def CleanTree (lower : String → String) (seen : List String) : List DurablePaneGroup → Prop
  | [] => True
  | g :: rest =>
    (paneIds (liveNode lower g.root)).Nodup ∧ (seenAgain seen (sessionIds (liveNode lower g.root))).1.Nodup ∧
      canonicalId lower g.representativePaneId ∉ (paneIds (dedupGroup lower seen g).1.root).drop sessionLeafCap ∧
      CleanTree lower (dedupGroup lower seen g).2 rest

instance CleanTree.decidable : (seen : List String) → (gs : List DurablePaneGroup) → Decidable (CleanTree lower seen gs)
  | _, [] => .isTrue trivial
  | seen, g :: rest =>
    have := CleanTree.decidable (dedupGroup lower seen g).2 rest
    inferInstanceAs (Decidable (_ ∧ _ ∧ _ ∧ CleanTree lower (dedupGroup lower seen g).2 rest))

/-- **A group of version 2.** -/
theorem dedupGroup_ok {g : DurablePaneGroup} (hids : (paneIds (liveNode lower g.root)).Nodup)
    (hagain : (seenAgain seen (sessionIds (liveNode lower g.root))).1.Nodup)
    (hrep : canonicalId lower g.representativePaneId ∉ (paneIds (dedupGroup lower seen g).1.root).drop sessionLeafCap)
    (hviable : (canonicalizeGroup (dedupGroup lower seen g).1).isViable = true) :
    GroupOk (canonicalizeGroup (dedupGroup lower seen g).1) ∧
      (canonicalizeGroup (dedupGroup lower seen g).1).root.leaves.Sublist (liveNode lower g.root).leaves ∧
      ∀ x, (sessionIds (canonicalizeGroup (dedupGroup lower seen g).1).root).count x ≤ if x ∈ seen then 0 else 1 := by
  have hall := liveNode_allSessions lower g.root
  have hsub : (dedupGroup lower seen g).1.root.leaves.Sublist (liveNode lower g.root).leaves := detachAll_sublist _
  obtain ⟨hok, hleaves⟩ := canonicalizeGroup_ok (hall.sublist hsub) (paneIds_nodup_of_sublist hsub hids) hrep rfl hviable
  have htrimmed : (canonicalizeGroup (dedupGroup lower seen g).1).root.leaves.Sublist (dedupGroup lower seen g).1.root.leaves :=
    hleaves ▸ take_sublist _ _
  refine ⟨hok, htrimmed.trans hsub, fun x => ?_⟩
  rcases detachAll_cases hids with hkept | ⟨pane, hone⟩
  · exact Nat.le_trans ((sessionIds_sublist (sessionLeaves_sublist htrimmed)).count_le x) (count_kept hall hagain hkept)
  · -- a single leaf makes no group
    have htwo := (hall.sublist (htrimmed.trans hsub)).viable hok.viable
    have hlength : (dedupGroup lower seen g).1.root.leaves.length = 1 := congrArg (fun t => t.leaves.length) hone
    exact absurd (Nat.le_trans htwo htrimmed.length_le) (by omega)

/-- **A layout of version 2.** -/
theorem decodeGroups_ok {gs : List DurablePaneGroup} (h : CleanTree lower seen gs) :
    LayoutOk (decodeGroups lower seen gs) ∧ ∀ x ∈ seen, x ∉ layoutSessions (decodeGroups lower seen gs) := by
  induction gs generalizing seen with
  | nil => exact ⟨⟨nofun, nodup_nil⟩, nofun⟩
  | cons g rest ih =>
    obtain ⟨hids, hagain, hrep, hrest⟩ := h
    obtain ⟨hlater, hseen⟩ := ih hrest
    have hsubset := subset_seenAgain seen (sessionIds (liveNode lower g.root))
    have holder : ∀ x ∈ seen, x ∉ layoutSessions (decodeGroups lower (dedupGroup lower seen g).2 rest) :=
      fun x hx => hseen x (hsubset.1 x hx)
    simp only [decodeGroups]
    split
    · rename_i hviable
      obtain ⟨hok, hsub, hcount⟩ := dedupGroup_ok hids hagain hrep hviable
      have hnew : ∀ x ∈ sessionIds (canonicalizeGroup (dedupGroup lower seen g).1).root, x ∉ seen := by
        intro x hx hin
        have := hcount x
        rw [if_pos hin] at this
        exact absurd (count_pos_iff.mpr hx) (by omega)
      have hown : ∀ x ∈ sessionIds (canonicalizeGroup (dedupGroup lower seen g).1).root,
          x ∈ (dedupGroup lower seen g).2 := fun x hx =>
        hsubset.2 x ((sessionIds_sublist (sessionLeaves_sublist hsub)).subset hx)
      refine ⟨⟨forall_mem_cons.mpr ⟨hok, hlater.each⟩, ?_⟩, fun x hx hin => ?_⟩
      · refine nodup_append.mpr ⟨?_, hlater.sessions, ?_⟩
        · refine nodup_iff_count_le_one.mpr fun x => Nat.le_trans (hcount x) ?_
          split <;> omega
        · rintro x hx y hy rfl
          exact hseen x (hown x hx) hy
      · rcases mem_append.mp hin with hin | hin
        · exact hnew x hin hx
        · exact holder x hx hin
    · exact ⟨hlater, holder⟩

end Tree

/-! ## Version 1 -/

theorem leaves_foldPanes (pane : V1Pane) (rest : List V1Pane) : (foldPanes lower pane rest).leaves
      = (pane :: rest).map fun pane => ⟨canonicalId lower pane.id, .session pane.sessionId⟩ := by
  induction rest generalizing pane with
  | nil => rfl
  | cons next rest ih => rw [foldPanes, LeafTree.leaves, ih next]; rfl

/-- A layout of version 1 that is decoded without loss of order: what stays of it has every Session once, the panes of a
    group have different ids, and the representative is not past the cap. -/
structure CleanFlat (lower : String → String) (groups : List V1Group) : Prop where
  sessions : ((groups.filter fun g => 2 ≤ g.panes.length).flatMap fun g =>
    (g.panes.take sessionLeafCap).map V1Pane.sessionId).Nodup
  ids : ∀ g ∈ groups, (g.panes.map fun pane => canonicalId lower pane.id).Nodup
  representative : ∀ g ∈ groups,
    canonicalId lower g.representativePaneId ∉ (g.panes.map fun pane => canonicalId lower pane.id).drop sessionLeafCap

instance (groups : List V1Group) : Decidable (CleanFlat lower groups) :=
  decidable_of_iff (_ ∧ _ ∧ _) ⟨fun h => ⟨h.1, h.2.1, h.2.2⟩, fun h => ⟨h.sessions, h.ids, h.representative⟩⟩

/-- A group of the panes of version 1. -/
theorem canonicalizeFlat_ok {group : PaneGroup} {panes : List V1Pane}
    (hleaves : group.root.leaves = panes.map fun pane => ⟨canonicalId lower pane.id, .session pane.sessionId⟩)
    (hsnapshot : group.launcherSnapshot = none) (hids : (panes.map fun pane => canonicalId lower pane.id).Nodup)
    (hrep : group.representativePaneId ∉ (panes.map fun pane => canonicalId lower pane.id).drop sessionLeafCap)
    (hviable : (canonicalizeGroup group).isViable = true) :
    GroupOk (canonicalizeGroup group) ∧
      sessionIds (canonicalizeGroup group).root = (panes.take sessionLeafCap).map V1Pane.sessionId := by
  have hall : AllSessions group.root := by
    intro pane hpane
    rw [hleaves] at hpane
    obtain ⟨old, -, rfl⟩ := mem_map.mp hpane
    rfl
  have hpaneIds : paneIds group.root = panes.map fun pane => canonicalId lower pane.id := by
    rw [paneIds, hleaves, map_map]
    rfl
  obtain ⟨hok, hkept⟩ := canonicalizeGroup_ok hall (hpaneIds ▸ hids) (hpaneIds ▸ hrep) hsnapshot hviable
  refine ⟨hok, ?_⟩
  rw [sessionIds, (hall.sublist (hkept ▸ take_sublist _ _)).sessionLeaves, hkept, hleaves, ← map_take, filterMap_map]
  exact congrFun (filterMap_eq_map (f := V1Pane.sessionId)) _

/-- **A group of version 1.** -/
theorem decodeV1Group_ok {g : V1Group} {group : PaneGroup} (h : decodeV1Group lower g = some group)
    (hids : (g.panes.map fun pane => canonicalId lower pane.id).Nodup)
    (hrep : canonicalId lower g.representativePaneId
      ∉ (g.panes.map fun pane => canonicalId lower pane.id).drop sessionLeafCap) (hviable : group.isViable = true) :
    2 ≤ g.panes.length ∧ GroupOk group ∧
      sessionIds group.root = (g.panes.take sessionLeafCap).map V1Pane.sessionId := by
  obtain ⟨id, representativePaneId, panes⟩ := g
  match panes, h, hids, hrep with
  | first :: second :: rest, h, hids, hrep =>
    obtain rfl := Option.some.inj h
    exact ⟨Nat.le_add_left 2 rest.length, canonicalizeFlat_ok (leaves_foldPanes first (second :: rest)) rfl hids hrep hviable⟩

/-- What `decode_v1` keeps of the groups. -/
theorem decodeV1_cons : decodeV1 lower (g :: groups) = decodeV1 lower groups ∨
      ∃ group, decodeV1Group lower g = some group ∧ group.isViable = true ∧
        decodeV1 lower (g :: groups) = group :: decodeV1 lower groups := by
  simp only [decodeV1]
  cases hgroup : decodeV1Group lower g with
  | none =>
    rw [filterMap_cons_none hgroup]
    exact .inl rfl
  | some group =>
    rw [filterMap_cons_some hgroup]
    by_cases hviable : group.isViable = true
    · rw [filter_cons_of_pos hviable]
      exact .inr ⟨group, rfl, hviable, rfl⟩
    · rw [filter_cons_of_neg hviable]
      exact .inl rfl

/-- **A layout of version 1.** -/
theorem decodeV1_ok {groups : List V1Group} (h : CleanFlat lower groups) : (∀ g ∈ decodeV1 lower groups, GroupOk g) ∧
      (layoutSessions (decodeV1 lower groups)).Sublist ((groups.filter fun g => 2 ≤ g.panes.length).flatMap fun g =>
        (g.panes.take sessionLeafCap).map V1Pane.sessionId) := by
  obtain ⟨-, hids, hrep⟩ := h
  induction groups with
  | nil => exact ⟨nofun, List.Sublist.refl _⟩
  | cons g groups ih =>
    obtain ⟨heach, hsub⟩ := ih (fun g' hg' => hids g' (mem_cons_of_mem _ hg'))
      fun g' hg' => hrep g' (mem_cons_of_mem _ hg')
    rcases decodeV1_cons with hskip | ⟨group, hgroup, hviable, htake⟩
    · rw [hskip]
      refine ⟨heach, hsub.trans ?_⟩
      rw [filter_cons]
      split
      · exact sublist_append_right _ _
      · exact List.Sublist.refl _
    · obtain ⟨htwo, hok, hsessions⟩ :=
        decodeV1Group_ok hgroup (hids g mem_cons_self) (hrep g mem_cons_self) hviable
      rw [htake, filter_cons_of_pos (by simpa using htwo)]
      refine ⟨forall_mem_cons.mpr ⟨hok, heach⟩, ?_⟩
      rw [layoutSessions, flatMap_cons, flatMap_cons, hsessions]
      exact hsub.append_left _

/-- A stored layout that is decoded without loss of order. -/
def CleanJson (lower : String → String) : LayoutJson → Prop
  | .flat groups => CleanFlat lower groups
  | .tree groups => CleanTree lower [] groups

instance : (json : LayoutJson) → Decidable (CleanJson lower json)
  | .flat groups => inferInstanceAs (Decidable (CleanFlat lower groups))
  | .tree groups => inferInstanceAs (Decidable (CleanTree lower [] groups))

/-- **Decoding gives a well-formed layout.** -/
theorem decode_ok (h : CleanJson lower json) : LayoutOk (decode lower json) := by
  cases json with
  | flat =>
    obtain ⟨heach, hsub⟩ := decodeV1_ok h
    exact ⟨heach, h.sessions.sublist hsub⟩
  | tree => exact (decodeGroups_ok h).1

end Supercli.Panes
