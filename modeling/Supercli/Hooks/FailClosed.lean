import Supercli.Hooks.Dispatch

/-!
# `Hooks.FailClosed` — when a call is allowed

A call that a `before_execute` hook guards should be allowed only if there is no `hooks.toml` at all, or if every handler
that is declared for `ToolCall.before_execute` was asked and said `allow` (`FailsClosed`). The dispatcher does its part: it
asks every registered handler, and a crash, a timeout or bad output rejects. But what never gets to the dispatcher is let
through: `emit_sync` reads a failed load as "no handlers", and a handler that was disabled is no handler. Also, a file that
`Path::exists` cannot look at is no file, and an answer without a decision is an allow.
-/

namespace Supercli.Hooks

open List HookHandler

open Connectors (BeforeExecuteDecision)

/-! ## What a file declares -/

section Declared

variable (libs : TomlLibs)

/-- The handlers of an event. -/
def declaredHandlers (entity : DocType) (entry : String × TomlValue) : Option (List Declared) := do
  let event ← DocEvent.parse entry.1
  let handlers ← entry.2.asArray
  (handlers.mapM fun h => (libs.tryInto h).toOption.map fun raw => [⟨entity, event, .ofRaw raw⟩]).map List.flatten

/-- The handlers of an entity. -/
def declaredEvents (entry : String × TomlValue) : Option (List Declared) := do
  let entity ← DocType.parse entry.1
  let events ← entry.2.asTable
  (events.mapM (declaredHandlers libs entity)).map List.flatten

/-- **The handlers that a file declares**; `none` for one that is there and cannot be loaded. -/
def declaredIn : FileState → Option (List Declared)
  | .absent => some []
  | .hidden _ | .unreadable _ => none
  | .text content => do
    let doc ← (libs.parseToml content).toOption
    let docEvents ← (doc.get "doc_events").bind TomlValue.asTable
    (docEvents.mapM (declaredEvents libs)).map List.flatten

/-- The handlers that both files declare. -/
def declaredAll (env : HookEnv) : Option (List Declared) := do
  let global ← declaredIn libs (env.file (defaultPaths env).1)
  let project ← declaredIn libs (env.file (defaultPaths env).2)
  pure (global ++ project)

/-- A handler that is registered. -/
def isEnabled (env : HookEnv) (d : Declared) : Bool := (declTarget libs env "" d.decl).toOption.isSome

end Declared

/-- A handler that guards calls. -/
def Declared.guardsCalls (d : Declared) : Bool := d.entity == .toolCall && d.event == .beforeExecute

def HandlerTarget.argv : HandlerTarget → Option (List String)
  | .command argv => some argv
  | .webhook _ => none

def HandlerTarget.url : HandlerTarget → Option String
  | .command _ => none
  | .webhook url => some url

/-- What was declared for a handler. -/
def HookHandler.declared (h : HookHandler) : Declared :=
  ⟨h.entity, h.event, ⟨h.name, h.priority, h.timeoutMs, h.target.argv, h.target.url⟩⟩

/-! ## Loading -/

/-- A part of a load that adds what is declared, or fails. -/
def Collects {ε σ δ : Type} (add : σ → δ → σ) (load : σ → Except ε σ) (declared : Option (List δ)) : Prop :=
  match declared with
  | some ds => ∀ s, load s = .ok (ds.foldl add s)
  | none => ∀ s, ∃ e, load s = .error e

/-- **A loop over parts.** -/
theorem Collects.foldlM {add : σ → δ → σ} {load : σ → α → Except ε σ} {declared : α → Option (List δ)}
    (h : ∀ a, Collects add (load · a) (declared a)) (items : List α) :
    Collects add (fun s => items.foldlM load s) ((items.mapM declared).map flatten) := by
  induction items with
  | nil => exact fun s => rfl
  | cons a rest ih =>
    have ha := h a
    rw [mapM_cons]
    cases hfirst : declared a with
    | none =>
      rw [hfirst] at ha
      intro s
      obtain ⟨e, he⟩ : ∃ e, load s a = .error e := ha s
      refine ⟨e, ?_⟩
      show (a :: rest).foldlM load s = .error e
      rw [foldlM_cons, he]
      rfl
    | some ds =>
      rw [hfirst] at ha
      have hload : ∀ s, load s a = .ok (ds.foldl add s) := ha
      cases hrest : rest.mapM declared with
      | none =>
        rw [hrest] at ih
        intro s
        obtain ⟨e, he⟩ := ih (ds.foldl add s)
        refine ⟨e, ?_⟩
        show (a :: rest).foldlM load s = .error e
        rw [foldlM_cons, hload s]
        exact he
      | some dss =>
        rw [hrest] at ih
        intro s
        show (a :: rest).foldlM load s = .ok ((ds ++ dss.flatten).foldl add s)
        rw [foldlM_cons, hload s, foldl_append]
        exact ih (ds.foldl add s)

section Load

variable {libs : TomlLibs} {env : HookEnv}

/-- One more handler. -/
def addNext (libs : TomlLibs) (env : HookEnv) (path : String) (global : Bool) (s : Loading) (d : Declared) : Loading :=
  (addDecl libs env path global s.1 d (s.2 + 1), s.2 + 1)

variable (path : String)

theorem collects_event {global : Bool} {entity : DocType} (entry : String × TomlValue) :
    Collects (addNext libs env path global) (loadEvent libs env path global entity entityName · entry)
      (declaredHandlers libs entity entry) := by
  simp only [loadEvent, declaredHandlers]
  cases DocEvent.parse entry.1 with
  | none => exact fun s => ⟨_, rfl⟩
  | some =>
    cases entry.2.asArray with
    | none => exact fun s => ⟨_, rfl⟩
    | some handlers =>
      refine Collects.foldlM (fun h => ?_) handlers
      simp only [loadHandler]
      cases libs.tryInto h with
      | error => exact fun s => ⟨_, rfl⟩
      | ok => exact fun s => rfl

theorem collects_entity (libs : TomlLibs) (env : HookEnv) (path : String) (global : Bool) (entry : String × TomlValue) :
    Collects (addNext libs env path global) (loadEntity libs env path global · entry) (declaredEvents libs entry) := by
  simp only [loadEntity, declaredEvents]
  cases DocType.parse entry.1 with
  | none => exact fun s => ⟨_, rfl⟩
  | some entity =>
    cases entry.2.asTable with
    | none => exact fun s => ⟨_, rfl⟩
    | some events => exact Collects.foldlM (collects_event path) events

theorem loadFile_spec (libs : TomlLibs) (env : HookEnv) {path : String} (global : Bool) (orderBase : Nat) (reg : HookRegistry)
    (hthere : (env.file path).exists = true) :
    match declaredIn libs (env.file path) with
    | some ds => loadFile libs env path global orderBase reg
        = .ok (ds.foldl (addNext libs env path global) (reg, orderBase)).1
    | none => ∃ e, loadFile libs env path global orderBase reg = .error e := by
  rw [loadFile]
  cases hfile : env.file path with
  | absent | hidden _ => exact nomatch hfile ▸ hthere
  | unreadable => exact ⟨_, rfl⟩
  | text content =>
    simp only [FileState.readToString, declaredIn]
    cases libs.parseToml content with
    | error => exact ⟨_, rfl⟩
    | ok doc =>
      simp only [Except.toOption, Option.bind_eq_bind, Option.bind_some]
      cases (doc.get "doc_events").bind TomlValue.asTable with
      | none => exact ⟨_, rfl⟩
      | some docEvents =>
        have h := Collects.foldlM (collects_entity libs env path global) docEvents
        simp only [Option.bind_some]
        cases hdeclared : (docEvents.mapM (declaredEvents libs)).map flatten with
        | none =>
          rw [hdeclared] at h
          obtain ⟨e, he⟩ : ∃ e, docEvents.foldlM (loadEntity libs env path global) (reg, orderBase) = .error e :=
            h (reg, orderBase)
          exact ⟨e, by rw [he]; rfl⟩
        | some ds =>
          rw [hdeclared] at h
          have hok : docEvents.foldlM (loadEntity libs env path global) (reg, orderBase)
            = .ok (ds.foldl (addNext libs env path global) (reg, orderBase)) := h (reg, orderBase)
          show (docEvents.foldlM (loadEntity libs env path global) (reg, orderBase)).map Prod.fst = _
          rw [hok]
          rfl

/-- The reason depends on the file, but not whether there is one. -/
theorem declTarget_toOption :
    (declTarget libs env path decl).toOption = (declTarget libs env "" decl).toOption := by
  simp only [declTarget]
  split
  · rfl
  · split
    · rfl
    · split <;> rfl
    · split <;> rfl
    · rfl
    · rfl

theorem declTarget_declared {path : String} {target : HandlerTarget} (h : declTarget libs env path decl = .ok target) :
    decl.command = target.argv ∧ decl.webhook = target.url := by
  simp only [declTarget] at h
  split at h
  · exact nomatch h
  · split at h
    · exact nomatch h
    · rename_i hcommand hwebhook
      split at h
      · obtain rfl := Except.ok.inj h
        exact ⟨hcommand, hwebhook⟩
      · exact nomatch h
    · rename_i hcommand hwebhook
      split at h
      · obtain rfl := Except.ok.inj h
        exact ⟨hcommand, hwebhook⟩
      · exact nomatch h
    · exact nomatch h
    · exact nomatch h

/-- **What was registered**: the enabled ones of those that were declared. -/
theorem declared_addNext {global : Bool} {ds : List Declared} :
    (ds.foldl (addNext libs env path global) s).1.handlers.map declared
      = s.1.handlers.map declared ++ ds.filter (isEnabled libs env) := by
  induction ds generalizing s with
  | nil => exact (append_nil _).symm
  | cons d rest ih =>
    rw [foldl_cons, ih]
    have henabled : isEnabled libs env d = (declTarget libs env path d.decl).toOption.isSome := by
      rw [isEnabled, declTarget_toOption path]
    simp only [addNext, addDecl]
    cases htarget : declTarget libs env path d.decl with
    | error =>
      rw [htarget] at henabled
      rw [filter_cons_of_neg (by rw [henabled]; exact Bool.false_ne_true)]
    | ok target =>
      rw [htarget] at henabled
      rw [filter_cons_of_pos henabled]
      obtain ⟨hcommand, hwebhook⟩ := declTarget_declared htarget
      have hsame : (⟨d.entity, d.event, ⟨d.decl.name, d.decl.priority, d.decl.timeoutMs, target.argv, target.url⟩⟩ : Declared)
          = d := by
        rw [← hcommand, ← hwebhook]
      simp only [map_append, append_assoc, map_cons, map_nil, declared, hsame]
      rfl

/-- A file as `Path::exists` has it. -/
def FileState.seen (f : FileState) : FileState := if f.exists then f else .absent

section

variable (libs : TomlLibs) (env : HookEnv)

/-- What the files declare that `Path::exists` sees. -/
def declaredSeen : Option (List Declared) := do
  let global ← declaredIn libs (env.file (defaultPaths env).1).seen
  let project ← declaredIn libs (env.file (defaultPaths env).2).seen
  pure (global ++ project)

theorem loadIfExists_spec (path : String) (global : Bool) (reg : HookRegistry) :
    match declaredIn libs (env.file path).seen with
    | some ds => ∃ reg', loadIfExists libs env path global reg = .ok reg' ∧
        reg'.handlers.map declared = reg.handlers.map declared ++ ds.filter (isEnabled libs env)
    | none => ∃ e, loadIfExists libs env path global reg = .error e := by
  rw [loadIfExists, FileState.seen]
  by_cases hthere : (env.file path).exists = true
  · rw [if_pos hthere, if_pos hthere]
    have h := loadFile_spec libs env global reg.handlers.length reg hthere
    revert h
    cases declaredIn libs (env.file path) with
    | none => exact fun h => h
    | some => exact fun h => ⟨_, h, declared_addNext path⟩
  · rw [if_neg hthere, if_neg hthere]
    exact ⟨reg, rfl, (append_nil _).symm⟩

/-- **What the registry has**: the enabled ones of the handlers that were seen. -/
theorem load_spec : match declaredSeen libs env with
    | some ds => ∃ reg, HookRegistry.load libs env (defaultPaths env).1 (defaultPaths env).2 = .ok reg ∧
        (reg.handlers.map declared).Perm (ds.filter (isEnabled libs env))
    | none => ∃ e, HookRegistry.load libs env (defaultPaths env).1 (defaultPaths env).2 = .error e := by
  rw [HookRegistry.load, declaredSeen]
  have hglobal := loadIfExists_spec libs env (defaultPaths env).1 true ⟨[], []⟩
  cases hg : declaredIn libs (env.file (defaultPaths env).1).seen with
  | none =>
    rw [hg] at hglobal
    obtain ⟨e, he⟩ := hglobal
    exact ⟨e, by rw [he]; rfl⟩
  | some gs =>
    rw [hg] at hglobal
    obtain ⟨reg, hreg, hhandlers⟩ := hglobal
    have hproject := loadIfExists_spec libs env (defaultPaths env).2 false reg
    rw [hreg]
    cases hp : declaredIn libs (env.file (defaultPaths env).2).seen with
    | none =>
      rw [hp] at hproject
      obtain ⟨e, he⟩ := hproject
      refine ⟨e, ?_⟩
      show (loadIfExists libs env (defaultPaths env).2 false reg >>= fun reg => pure reg.sortAll) = _
      rw [he]
      rfl
    | some ps =>
      rw [hp] at hproject
      obtain ⟨reg', hreg', hboth⟩ := hproject
      refine ⟨reg'.sortAll, ?_, ?_⟩
      · show (loadIfExists libs env (defaultPaths env).2 false reg >>= fun reg => pure reg.sortAll) = _
        rw [hreg']
        rfl
      · show (reg'.sortAll.handlers.map declared).Perm ((gs ++ ps).filter (isEnabled libs env))
        rw [filter_append]
        refine ((perm_insertionSort _ reg'.handlers).map declared).trans (.of_eq ?_)
        rw [hboth, hhandlers]
        rfl

end

end Load

/-! ## The dispatch -/

section Dispatch

variable {libs : Libs} {world : HookWorld}

/-- What a handler contributes. -/
def contribution (exec : ExecResult) : HookDecision := (classifyExec exec).2.1

/-- **Every handler is asked**, and the outcome is to allow only if they all are for it. -/
theorem dispatch_spec (libs : Libs) (world : HookWorld) (p : SyncParams) (handlers : List HookHandler) (s : SyncOutcome) :
    ∃ execs, (handlers.foldl (dispatchOne libs world p) s).execs = s.execs ++ execs ∧ execs.map Prod.fst = handlers ∧
      ((handlers.foldl (dispatchOne libs world p) s).decision = .allow ↔
        s.decision = .allow ∧ ∀ e ∈ execs, contribution e.2 = .allow) := by
  induction handlers generalizing s with
  | nil => exact ⟨[], (append_nil _).symm, rfl, ⟨fun h => ⟨h, fun e he => (nomatch he)⟩, And.left⟩⟩
  | cons handler rest ih =>
    obtain ⟨execs, hexecs, hhandlers, hdecision⟩ := ih (dispatchOne libs world p s handler)
    have hone : ∃ exec, (dispatchOne libs world p s handler).execs = s.execs ++ [(handler, exec)] ∧
        (dispatchOne libs world p s handler).decision = s.decision.combine (contribution exec) := ⟨_, rfl, rfl⟩
    obtain ⟨exec, hexec, hcombined⟩ := hone
    refine ⟨(handler, exec) :: execs, ?_, congrArg (handler :: ·) hhandlers, ?_⟩
    · rw [foldl_cons, hexecs, hexec, append_assoc]
      rfl
    · rw [foldl_cons, hdecision, hcombined, HookDecision.combine_eq_allow, forall_mem_cons, and_assoc]

/-- What was executed for a call. -/
def executed (libs : Libs) (world : HookWorld) (ctx : BeforeExecuteContext) : List (HookHandler × ExecResult) :=
  match emitBeforeExecute libs world ctx with
  | some outcome => outcome.execs
  | none => []

theorem forCall_eq_allow {o : SyncOutcome} : o.forCall = .allow ↔ o.decision = .allow := by
  rw [SyncOutcome.forCall]
  cases o.decision <;> simp

theorem seen_of_absent {f : FileState} (h : f.exists = false) : f.seen = .absent := by
  rw [FileState.seen, h]
  rfl

/-- Who is asked for a call, and what comes of it. -/
structure Asked (libs : Libs) (world : HookWorld) (ctx : BeforeExecuteContext) : Prop where
  allowed : beforeExecuteHook libs world ctx = .allow ↔ ∀ e ∈ executed libs world ctx, contribution e.2 = .allow
  enabled : ∀ ds, declaredSeen libs.toTomlLibs world.toHookEnv = some ds →
    ((executed libs world ctx).map fun e => e.1.declared).Perm
      ((ds.filter (isEnabled libs.toTomlLibs world.toHookEnv)).filter Declared.guardsCalls)

variable {ctx : BeforeExecuteContext}

/-- Nobody is asked, and the call is allowed. -/
theorem Asked.of_none (hnone : emitBeforeExecute libs world ctx = none)
    (henabled : ∀ ds, declaredSeen libs.toTomlLibs world.toHookEnv = some ds →
      (ds.filter (isEnabled libs.toTomlLibs world.toHookEnv)).filter Declared.guardsCalls = []) :
    Asked libs world ctx := by
  have hexecuted : executed libs world ctx = [] := by rw [executed, hnone]
  refine ⟨⟨fun _ e he => ?_, fun _ => by rw [beforeExecuteHook, hnone]⟩, fun ds hds => ?_⟩
  · rw [hexecuted] at he
    exact nomatch he
  · rw [hexecuted, henabled ds hds]
    exact .refl _

/-- What is dispatched for a call. -/
def callParams (ctx : BeforeExecuteContext) : SyncParams :=
  ⟨.toolCall, .beforeExecute, ctx.attemptId, .object [("arguments", ctx.arguments), ("attempt_id", .string ctx.attemptId),
    ("tool", .string ctx.tool)], .allow, ⟨ctx.actor, 0, false⟩, 0⟩

/-- Those that are registered are asked. -/
theorem Asked.of_some
    (hsome : emitBeforeExecute libs world ctx = some (runSync libs world reg (callParams ctx)))
    (henabled : ∀ ds, declaredSeen libs.toTomlLibs world.toHookEnv = some ds →
      ((reg.handlersFor .toolCall .beforeExecute).map declared).Perm
        ((ds.filter (isEnabled libs.toTomlLibs world.toHookEnv)).filter Declared.guardsCalls)) : Asked libs world ctx := by
  obtain ⟨execs, hexecs, hfirst, hdecision⟩ := dispatch_spec libs world (callParams ctx)
    (reg.handlersFor .toolCall .beforeExecute) ⟨.allow, (callParams ctx).doc, [], none, []⟩
  -- a call is at depth 0, where hooks are not skipped
  have hrun : runSync libs world reg (callParams ctx) = (reg.handlersFor .toolCall .beforeExecute).foldl
      (dispatchOne libs world (callParams ctx)) ⟨.allow, (callParams ctx).doc, [], none, []⟩ :=
    if_neg (show ¬ maxHookDepth ≤ 0 by decide)
  have hexecuted : executed libs world ctx = execs := by
    rw [executed, hsome, hrun]
    exact hexecs
  refine ⟨?_, fun ds hds => ?_⟩
  · rw [beforeExecuteHook, hsome, hexecuted]
    show (runSync libs world reg (callParams ctx)).forCall = .allow ↔ _
    rw [forCall_eq_allow, hrun, hdecision]
    exact and_iff_right rfl
  · rw [hexecuted]
    refine .trans (.of_eq ?_) (henabled ds hds)
    rw [← hfirst, map_map]
    rfl

/-- **When a call is allowed**, and who was asked. -/
theorem asked (libs : Libs) (world : HookWorld) (ctx : BeforeExecuteContext) : Asked libs world ctx := by
  by_cases hnone : (!(world.file (defaultPaths world.toHookEnv).1).exists
      && !(world.file (defaultPaths world.toHookEnv).2).exists) = true
  · -- no file is seen, and so none declares anything
    obtain ⟨hglobal, hproject⟩ := Bool.and_eq_true_iff.mp hnone
    refine .of_none (by rw [emitBeforeExecute, emitSync]; exact if_pos hnone) fun ds hds => ?_
    rw [declaredSeen, seen_of_absent (Bool.not_eq_true' _ ▸ hglobal), seen_of_absent (Bool.not_eq_true' _ ▸ hproject)] at hds
    obtain rfl := Option.some.inj hds
    rfl
  · have hload := load_spec libs.toTomlLibs world.toHookEnv
    cases hseen : declaredSeen libs.toTomlLibs world.toHookEnv with
    | none =>
      rw [hseen] at hload
      obtain ⟨e, he⟩ := hload
      refine .of_none ?_ fun ds hds => by cases hseen.symm.trans hds
      rw [emitBeforeExecute, emitSync]
      exact (if_neg hnone).trans (by erw [he])
    | some =>
      rw [hseen] at hload
      obtain ⟨reg, hreg, hhandlers⟩ := hload
      have hemit : emitBeforeExecute libs world ctx =
          if reg.hasHandlers .toolCall .beforeExecute then some (runSync libs world reg (callParams ctx)) else none := by
        rw [emitBeforeExecute, emitSync]
        exact (if_neg hnone).trans (by erw [hreg]; rfl)
      have hperm := hhandlers.filter Declared.guardsCalls
      rw [filter_map] at hperm
      cases hhas : reg.hasHandlers .toolCall .beforeExecute with
      | false =>
        have hempty : reg.handlersFor .toolCall .beforeExecute = [] := by
          rwa [HookRegistry.hasHandlers, Bool.not_eq_false', List.isEmpty_iff] at hhas
        refine .of_none (hemit.trans (if_neg (by rw [hhas]; exact Bool.false_ne_true))) fun ds' hds' => ?_
        obtain rfl := Option.mem_unique hseen hds'
        exact (hempty ▸ show (map _ (reg.handlersFor .toolCall .beforeExecute)).Perm _ from hperm).nil_eq.symm
      | true =>
        refine .of_some (hemit.trans (if_pos hhas)) fun ds' hds' => ?_
        obtain rfl := Option.mem_unique hseen hds'
        exact hperm

end Dispatch

/-! ## Failing closed -/

section FailClosed

variable {libs : Libs} {world : HookWorld} {ctx : BeforeExecuteContext}

/-- A handler that said `allow`. -/
def ExecResult.answeredAllow (exec : ExecResult) : Bool :=
  match exec.result with
  | .ok output => output.decision == some "allow"
  | .error _ => false

/-- An answer that says what it decides. -/
def ExecResult.statesDecision (exec : ExecResult) : Bool :=
  match exec.result with
  | .ok output => output.decision.isSome
  | .error _ => true

/-- **Hooks fail closed**: a call is allowed only if there is no `hooks.toml`, or if both can be loaded, every handler that
    they declare for calls was asked, and each said `allow`. -/
def FailsClosed (libs : Libs) (world : HookWorld) (ctx : BeforeExecuteContext) : Prop :=
  beforeExecuteHook libs world ctx = .allow →
    world.file (defaultPaths world.toHookEnv).1 = .absent ∧ world.file (defaultPaths world.toHookEnv).2 = .absent ∨
    ∃ ds, declaredAll libs.toTomlLibs world.toHookEnv = some ds ∧
      ((executed libs world ctx).map fun e => e.1.declared).Perm (ds.filter Declared.guardsCalls) ∧
      ∀ e ∈ executed libs world ctx, e.2.answeredAllow = true

/-- **A sound configuration**: each `hooks.toml` that is there can be loaded, and no handler that it declares for calls is
    disabled. -/
def SoundConfig (libs : TomlLibs) (env : HookEnv) : Prop :=
  ∃ ds ∈ declaredAll libs env, ∀ d ∈ ds, d.guardsCalls = true → isEnabled libs env d = true

instance (libs : TomlLibs) (env : HookEnv) : Decidable (SoundConfig libs env) :=
  inferInstanceAs (Decidable (∃ ds ∈ declaredAll libs env, _))

/-- The only answer that allows. -/
theorem decision_of_allow {o : HandlerOutput} (h : (o.decisionOrReject).1 = .allow) :
    o.decision.getD defaultAllow = "allow" := by
  rw [HandlerOutput.decisionOrReject] at h
  split at h
  · assumption
  · exact nomatch h
  · exact nomatch h
  · exact nomatch h

/-- **The dispatcher fails closed**: an answer counts as `allow` only if it says so, or does not say. -/
theorem answeredAllow_of_contribution (hstates : exec.statesDecision = true)
    (h : contribution exec = .allow) : exec.answeredAllow = true := by
  obtain ⟨result, elapsedMs, stderr⟩ := exec
  cases result with
  | error failure => cases failure <;> exact nomatch h
  | ok output =>
    have hallow : output.decisionOrReject.1 = .allow := by
      simp only [contribution, classifyExec] at h
      split at h
      · exact nomatch h
      · rename_i hclass
        rw [hclass]
        exact h
    obtain ⟨stated, hstated⟩ := Option.isSome_iff_exists.mp hstates
    have hsaid := decision_of_allow hallow
    rw [hstated, Option.getD_some] at hsaid
    exact beq_iff_eq.mpr (hstated.trans (congrArg some hsaid))

theorem statesDecision_of_answeredAllow {exec : ExecResult} (h : exec.answeredAllow = true) :
    exec.statesDecision = true := by
  obtain ⟨result, elapsedMs, stderr⟩ := exec
  cases result with
  | error => rfl
  | ok => exact Option.isSome_iff_exists.mpr ⟨_, eq_of_beq h⟩

variable {ds : List Declared}

theorem declaredIn_seen {libs : TomlLibs} (h : declaredIn libs f = some ds) : declaredIn libs f.seen = some ds := by
  cases f with
  | absent | text _ => exact h
  | hidden _ | unreadable _ => exact nomatch h

/-- What can be loaded is what is seen. -/
theorem declaredSeen_of_declaredAll {libs : TomlLibs} (h : declaredAll libs env = some ds) :
    declaredSeen libs env = some ds := by
  simp only [declaredAll, Option.bind_eq_bind, Option.bind_eq_some_iff] at h
  obtain ⟨gs, hgs, ps, hps, hds⟩ := h
  rw [declaredSeen, declaredIn_seen hgs, declaredIn_seen hps]
  exact hds

/-- A configuration whose handlers were all asked. -/
theorem SoundConfig.of_asked (hds : declaredAll libs.toTomlLibs world.toHookEnv = some ds)
    (hasked : ((executed libs world ctx).map fun e => e.1.declared).Perm (ds.filter Declared.guardsCalls)) :
    SoundConfig libs.toTomlLibs world.toHookEnv := by
  refine ⟨ds, hds, fun d hd hguards => ?_⟩
  have henabled := (asked libs world ctx).enabled ds (declaredSeen_of_declaredAll hds)
  have hin := (hasked.symm.trans henabled).mem_iff.mp (mem_filter.mpr ⟨hd, hguards⟩)
  exact (mem_filter.mp (mem_filter.mp hin).1).2

/-- **What an allowed call needs**, if hooks fail closed. -/
theorem FailsClosed.sound (h : FailsClosed libs world ctx) (hallow : beforeExecuteHook libs world ctx = .allow) :
    SoundConfig libs.toTomlLibs world.toHookEnv ∧ ∀ e ∈ executed libs world ctx, e.2.statesDecision = true := by
  rcases h hallow with ⟨hglobal, hproject⟩ | ⟨ds, hds, hasked, hanswers⟩
  · -- no file, no handlers
    have hnothing : declaredAll libs.toTomlLibs world.toHookEnv = some [] := by
      rw [declaredAll, hglobal, hproject]
      rfl
    have hnobody := ((asked libs world ctx).enabled [] (declaredSeen_of_declaredAll hnothing)).eq_nil
    refine ⟨⟨[], hnothing, nofun⟩, fun e he => ?_⟩
    · rw [map_eq_nil_iff.mp hnobody] at he
      exact nomatch he
  · exact ⟨.of_asked hds hasked, fun e he => statesDecision_of_answeredAllow (hanswers e he)⟩

/-- **When hooks fail closed**: the configuration is sound and every answer says what it decides, or some handler that is
    asked refuses. -/
theorem fails_closed_iff (libs : Libs) (world : HookWorld) (ctx : BeforeExecuteContext) : FailsClosed libs world ctx ↔
      SoundConfig libs.toTomlLibs world.toHookEnv ∧ (∀ e ∈ executed libs world ctx, e.2.statesDecision = true) ∨
      ∃ e ∈ executed libs world ctx, contribution e.2 ≠ .allow := by
  have hspec := asked libs world ctx
  constructor
  · intro h
    by_cases hallow : beforeExecuteHook libs world ctx = .allow
    · exact .inl (h.sound hallow)
    · right
      by_contra hnone
      refine hallow (hspec.allowed.mpr fun e he => ?_)
      by_contra hrefuses
      exact hnone ⟨e, he, hrefuses⟩
  · rintro (⟨⟨ds, hds, hsound⟩, hstates⟩ | ⟨e, he, hrefuses⟩) hallow
    · refine .inr ⟨ds, hds, ?_, fun e he => answeredAllow_of_contribution (hstates e he) (hspec.allowed.mp hallow e he)⟩
      -- nobody is left out, since all that guard calls are enabled
      refine (hspec.enabled ds (declaredSeen_of_declaredAll hds)).trans (.of_eq ?_)
      rw [List.filter_filter]
      refine List.filter_congr fun d hd => ?_
      cases hguards : d.guardsCalls with
      | false => rfl
      | true => exact hsound d hd hguards
    · exact absurd (hspec.allowed.mp hallow e he) hrefuses

/-! What gets past the hooks. -/

/-- A file that declares one handler for calls. -/
def oneHandler (handler : String) : TomlValue :=
  .table [("doc_events", .table [("ToolCall", .table [("before_execute", .array [.string handler])])])]

/-- Libraries for files that hold nothing but the name of a handler, which is its program too, and for handlers that print
    what they decide. -/
def plainLibs : Libs where
  parseToml content := if content = "[[" then .error "expected a value" else .ok (oneHandler content)
  tryInto
    | .string name => .ok ⟨name, none, none, some [name], none⟩
    | _ => .error "expected a handler"
  trim text := text
  encode _ := .ok ""
  decode text := .ok ⟨if text = "null" then none else some text, .null, ""⟩
  lossy _ := ""

/-- A world with a global file only, a program `check` on the `PATH`, and processes that print one text. -/
def plainWorld (global : FileState) (printed : String) : HookWorld where
  home := some "/home"
  userProfile := none
  currentDir := some "/work"
  file path := if path = "/home/.supercli/hooks.toml" then global else .absent
  isFile path := path == "/bin/check"
  path := some ["/bin"]
  process _ _ _ := ⟨none, true, .exited, none, some printed, "", 1⟩
  webhook _ _ _ _ := ⟨.connected, true, true, [], 1⟩

def plainCall : BeforeExecuteContext := ⟨"t", .null, "a", "human"⟩

/-- **What gets past the hooks**: a malformed file, an unreadable one, one that cannot be looked at, a handler whose program
    is not on the `PATH`, and an answer without a decision. -/
theorem hooks_fail_open : ¬ FailsClosed plainLibs (plainWorld (.text "[[") "reject") plainCall ∧
    ¬ FailsClosed plainLibs (plainWorld (.unreadable "denied") "reject") plainCall ∧
    ¬ FailsClosed plainLibs (plainWorld (.hidden "denied") "reject") plainCall ∧
    ¬ FailsClosed plainLibs (plainWorld (.text "ghost") "reject") plainCall ∧
    ¬ FailsClosed plainLibs (plainWorld (.text "check") "null") plainCall := by
  refine ⟨fun h => ?_, fun h => ?_, fun h => ?_, fun h => ?_, fun h => ?_⟩
  · exact absurd (h.sound (by decide)).1 (by decide)
  · exact absurd (h.sound (by decide)).1 (by decide)
  · exact absurd (h.sound (by decide)).1 (by decide)
  · exact absurd (h.sound (by decide)).1 (by decide)
  · exact absurd (h.sound (by decide)).2 (by decide)

end FailClosed

end Supercli.Hooks
