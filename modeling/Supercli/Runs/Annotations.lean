import Supercli.Lib.Machine
import Supercli.Runs.Lifecycle

/-!
# `Runs.Annotations` — what pauses and cancels note in a plan

`pause_run` and `cancel_run` move the run, and then `patch_plan` reads its plan, sets a key, and writes the whole plan
back, outside any transaction. Here the calls of any number of processes are interleaved statement by statement. A note
is lost when a plan is written between the read and the write of another patch (`cancel_note_lost`), and only then
(`notes_kept`).
-/

namespace Supercli.RunsDb

open Function Machine

/-- `pause_run` or `cancel_run`. -/
inductive Request
  | pause
  | cancel
deriving DecidableEq

namespace Request

/-- The states in which the method returns false. -/
def refuses : Request → RunState → Bool
  | pause, state => state = .paused || state = .done || state = .failed
  | cancel, state => state.isTerminal

def target : Request → RunState
  | pause => .paused
  | cancel => .failed

def key : Request → String
  | pause => "paused_from"
  | cancel => "cancelled"

def value : Request → RunState → String
  | pause, source => source.asStr
  | cancel, _ => "true"

/-- The method, as one process alone runs it. -/
def method (insertKey : String → String → String → Option String) (runId : String) : Request → RunsM Bool
  | pause => pauseRun insertKey runId
  | cancel => cancelRun insertKey runId

end Request

/-- The next statement of a call: `get_run`, the transition, and the two of `patch_plan`. -/
inductive Pc (P : Type)
  | idle
  | reading (request : Request)
  | moving (request : Request) (source : RunState)
  | patching (request : Request) (source : RunState)
  | writing (request : Request) (source : RunState) (read : P)

/-- The row of the run, the calls of the processes, and the requests that returned true. -/
structure Noted (P : Type) where
  state : RunState
  plan : P
  calls : Nat → Pc P
  granted : List Request

/-- A process calls, runs its next statement, or fails. -/
inductive Deed
  | call (request : Request)
  | go
  | fail

section Noted

variable {P : Type} (insertKey : P → String → String → Option P)

/-- What a process does. Only the last statement of `patch_plan` writes a plan, from the one that was read. -/
def Noted.step (s : Noted P) : Nat × Deed → Noted P
  | (i, deed) =>
    let goto (pc : Pc P) : Noted P := { s with calls := update s.calls i pc }
    match deed, s.calls i with
    | .fail, _ => goto .idle
    | .call request, .idle => goto (.reading request)
    | .go, .reading request => goto (if request.refuses s.state then .idle else .moving request s.state)
    | .go, .moving request source =>
      if s.state = source then { goto (.patching request source) with state := request.target } else goto .idle
    | .go, .patching request source =>
      match insertKey s.plan request.key (request.value source) with
      | some _ => goto (.writing request source s.plan)
      | none => { goto .idle with granted := request :: s.granted }
    | .go, .writing request source read =>
      { goto .idle with
        plan := (insertKey read request.key (request.value source)).getD read
        granted := request :: s.granted }
    | _, _ => s

/-- A call that nothing interrupts does to the row what the method does. -/
theorem step_refines {insertKey : String → String → String → Option String}
    (hrow : db.runs = [r]) :
    let s := run (Noted.step insertKey) ⟨r.state, r.plan, fun _ => .idle, []⟩
      [(0, .call request), (0, .go), (0, .go), (0, .go), (0, .go)]
    (storeAfter (request.method insertKey r.id) ⟨db, now, files, []⟩).runs.map (fun r => (r.state, r.plan)) =
      [(s.state, s.plan)] := by
  have hmethod : request.method insertKey r.id = getRun r.id >>= fun r' =>
      if request.refuses r'.state then pure false
      else moveAndNote insertKey r.id r'.state request.target request.key (request.value r'.state) := by
    cases request <;> rfl
  cases hrefuses : request.refuses r.state <;>
    cases hpatch : insertKey r.plan request.key (request.value r.state) <;>
    simp [hmethod, storeAfter, getRun, statement_quiet, bind, EStateM.bind, pure, EStateM.pure, Store.run?, hrow,
      run, Noted.step, hrefuses, moveAndNote, transition, patchPlan, Store.updateRun, hpatch]

variable (get : P → String → Option String) (object : P → Prop)

/-- What is assumed of `serde_json`, with `get` for the value of a key: an object whose key is set is an object, has the
    value there, and has its other keys as before. -/
def SetsKeys : Prop :=
  ∀ plan key value, object plan → ∃ plan', insertKey plan key value = some plan' ∧ object plan' ∧
    get plan' key = some value ∧ ∀ other, other ≠ key → get plan' other = get plan other

/-- A plan is written over the one that was read. -/
def Unchanged (s : Noted P) : Nat × Deed → Prop
  | (i, .go) => ∀ request source read, s.calls i = .writing request source read → read = s.plan
  | _ => True

/-- The plan has the notes of the requests that were granted, and is the first one otherwise. -/
structure Noted.Ok (plan₀ : P) (s : Noted P) : Prop where
  object : object s.plan
  noted : ∀ request ∈ s.granted, ∃ source, get s.plan request.key = some (request.value source)
  others : ∀ key, (∀ request ∈ s.granted, key ≠ request.key) → get s.plan key = get plan₀ key

variable {insertKey get object}

theorem Noted.Ok.step (hset : SetsKeys insertKey get object) (h : s.Ok get object plan₀) (hun : Unchanged s label) :
    (s.step insertKey label).Ok get object plan₀ := by
  obtain ⟨i, deed⟩ := label
  cases deed with
  | call => cases hcall : s.calls i <;> simp only [Noted.step, hcall] <;> exact { h with }
  | fail => exact { h with }
  | go =>
    cases hcall : s.calls i <;> simp only [Noted.step, hcall]
    case idle => exact h
    case reading => exact { h with }
    case moving => split <;> exact { h with }
    case patching request source =>
      obtain ⟨plan', hinsert, -⟩ := hset s.plan request.key (request.value source) h.object
      rw [hinsert]
      exact { h with }
    case writing request source read =>
      obtain rfl := hun request source read hcall
      obtain ⟨plan', hinsert, hobject, hkey, hother⟩ := hset s.plan request.key (request.value source) h.object
      rw [hinsert, Option.getD_some]
      refine ⟨hobject, fun r hr => ?_, fun key hnot => ?_⟩
      · by_cases hsame : r.key = request.key
        · obtain rfl : r = request := by cases r <;> cases request <;> simp_all [Request.key]
          exact ⟨source, hkey⟩
        · obtain ⟨source', hnoted⟩ := h.noted r (by grind)
          exact ⟨source', (hother _ hsame).trans hnoted⟩
      · rw [hother key (hnot request List.mem_cons_self)]
        exact h.others key fun r hr => hnot r (List.mem_cons_of_mem _ hr)

/-- **What the processes note stays noted**, as long as no plan is written between the read and the write of a patch. -/
theorem notes_kept (hset : SetsKeys insertKey get object) {s : Noted P} (hobject : object s.plan)
    (hnone : s.granted = []) {labels : List (Nat × Deed)} (hun : Along (Noted.step insertKey) Unchanged s labels) :
    let s' := run (Noted.step insertKey) s labels
    (.cancel ∈ s'.granted → get s'.plan "cancelled" = some "true") ∧
      (.pause ∈ s'.granted → ∃ source : RunState, get s'.plan "paused_from" = some source.asStr) ∧
      ∀ key, (∀ request ∈ s'.granted, key ≠ request.key) → get s'.plan key = get s.plan key := by
  have h0 : s.Ok get object s.plan := ⟨hobject, by simp [hnone], fun _ _ => rfl⟩
  have h := invariant (fun _ _ => Noted.Ok.step hset) h0 hun
  exact ⟨fun hc => (h.noted _ hc).elim fun _ hv => hv, fun hp => h.noted _ hp, h.others⟩

end Noted

/-- Plans as tables, in place of JSON. -/
def setNote (plan : String → Option String) (key value : String) : Option (String → Option String) :=
  some (update plan key (some value))

/-- A queued run with an empty plan. -/
def unnoted : Noted (String → Option String) := ⟨.queued, fun _ => none, fun _ => .idle, []⟩

/-- A pause, and then a cancel. -/
def inTurn : List (Nat × Deed) :=
  [(0, .call .pause), (0, .go), (0, .go), (0, .go), (0, .go), (1, .call .cancel), (1, .go), (1, .go), (1, .go), (1, .go)]

theorem notes_kept_in_turn :
    let s := run (Noted.step setNote) unnoted inTurn
    s.plan "cancelled" = some "true" ∧ ∃ source : RunState, s.plan "paused_from" = some source.asStr := by
  have hset : SetsKeys setNote (fun plan => plan) fun _ => True :=
    fun _ _ _ _ => ⟨_, rfl, trivial, update_self .., fun _ hne => update_of_ne hne ..⟩
  have hun : Along (Noted.step setNote) Unchanged unnoted inTurn := by
    simp [Along, Unchanged, inTurn, unnoted, Noted.step, Request.refuses, setNote, Request.target, RunState.isTerminal]
  have h := notes_kept hset trivial rfl hun
  exact ⟨h.1 (by decide), h.2.1 (by decide)⟩

/-- Both have read the plan before the cancel writes its own. -/
theorem cancel_note_lost :
    let s := run (Noted.step setNote) unnoted
      [(0, .call .pause), (0, .go), (0, .go), (1, .call .cancel), (1, .go), (1, .go), (1, .go), (0, .go), (1, .go),
        (0, .go)]
    .cancel ∈ s.granted ∧ s.plan "cancelled" = none := by
  decide

end Supercli.RunsDb
