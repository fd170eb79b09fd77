import Supercli.Remote.Refresh

/-!
# `Remote.PageDiscipline` — how the methods of the backend handle pages

A thread has at most one page, from its reservation until the page is staged and returned, or from when a caller gives a
page away until it is committed or dropped. Every method keeps to it (`obeys_run`).
-/

namespace Supercli.Remote

/-! ## Who has which page -/

/-- Where a thread is with its page. -/
inductive PagePhase
  | free
  | fetching (token : OutputPageToken)
  | staged (token : OutputPageToken)
  | holds (page : RemoteOutputPage)
deriving DecidableEq, Repr

def PagePhase.token : PagePhase → Option OutputPageToken
  | .free => none
  | .fetching token => some token
  | .staged token => some token
  | .holds page => some page.token

def PagePhase.stagedToken : PagePhase → Option OutputPageToken
  | .staged token => some token
  | .holds page => some page.token
  | _ => none

theorem PagePhase.token_of_stagedToken {phase : PagePhase} (h : phase.stagedToken = some t) :
    phase.token = some t := by
  cases phase with
  | free | fetching _ => exact nomatch h
  | staged _ | holds _ => exact h

/-- The Session a call is about the output of. -/
def Call.session : Call → Option String
  | .poll sessionId _ _ => some sessionId
  | .commit page => some page.token.sessionId
  | .discard page => some page.token.sessionId
  | _ => none

/-- What a thread was called for, and where it is with its page. -/
structure PageMark where
  call : Call
  phase : PagePhase
deriving DecidableEq, Repr

/-- How the programs handle pages. -/
def pageNext (m : PageMark) (o : Op) (r : o.Ans) : Option PageMark :=
  match o, r with
  | .reserve sessionId _ _, r =>
    if m.phase = .free ∧ m.call.session = some sessionId then
      match (r : Except BackendError OutputPageToken) with
      | .ok token => some ⟨m.call, .fetching token⟩
      | .error _ => some m
    else none
  | .clearReservation token, _ => if m.phase = .fetching token then some ⟨m.call, .free⟩ else none
  | .stage token, r =>
    match m.phase with
    | .fetching t =>
      if token = { t with nextOffset := token.nextOffset } then
        match (r : Except BackendError Unit) with
        | .ok () => some ⟨m.call, .staged token⟩
        | .error _ => some ⟨m.call, .free⟩
      else none
    | _ => none
  | .takePage page, r =>
    if m.phase = .free ∧ (m.call = .commit page ∨ m.call = .discard page) then
      match (r : Bool) with
      | true => some ⟨m.call, .holds page⟩
      | false => some m
    else none
  | .commitPage page, _ => if m.phase = .holds page then some ⟨m.call, .free⟩ else none
  | .discardPage page, _ => if m.phase = .holds page then some ⟨m.call, .free⟩ else none
  | .request call, r =>
    -- the connection does not panic under a poll
    if call.purpose = .output ∧ (r : Option (Except HostConnectionError HostReply)).isNone then some ⟨m.call, .free⟩
    else some m
  | _, _ => some m

abbrev pageDiscipline : Discipline Ops PageMark := ⟨pageNext⟩

/-- The operations that have nothing to do with a thread's page. -/
def IsPageIdle : Op → Prop
  | .reserve _ _ _ | .clearReservation _ | .stage _ | .takePage _ | .commitPage _ | .discardPage _ => False
  | .request call => call.purpose ≠ .output
  | _ => True

theorem pageNext_of_idle (h : IsPageIdle o) : pageNext m o r = some m := by
  cases o with
  | request =>
    simp only [pageNext]
    rw [if_neg (fun hand => h hand.1)]
  | reserve _ _ _ | clearReservation _ | stage _ | takePage _ | commitPage _ | discardPage _ => exact h.elim
  | _ => rfl

/-- A page says truly whether it goes on where the cursor was. -/
def RemoteOutputPage.Ok (page : RemoteOutputPage) : Prop :=
  page.token.nextOffset = page.nextOffset ∧
    (page.resetBeforeFeed = true ∨ page.token.requestedOffset = some page.offset)

/-- What a call leaves. -/
def PageResult (result : Result) (m : PageMark) : Prop :=
  match result with
  | .page page => m.phase = .staged page.token ∧ page.Ok
  | _ => m.phase = .free

/-! ## The programs keep to it -/

section Programs

open Prog (Makes Obeys)

theorem isPageIdle_of_bootstrap (h : IsBootstrapOp o) : IsPageIdle o := by
  cases o with
  | request =>
    intro houtput
    exact nomatch houtput.symm.trans h
  | reserve _ _ _ | clearReservation _ | stage _ | takePage _ | commitPage _ | discardPage _ => exact h.elim
  | _ => trivial

variable {m : PageMark}

theorem obeys_idle {β : Type} {f : o.Ans → Thread β} {R : β → PageMark → Prop} (h : IsPageIdle o)
    (hf : ∀ r, (f r).Obeys pageDiscipline R m) : (op o >>= f).Obeys pageDiscipline R m :=
  Prog.obeys_idle_bind (fun _ => pageNext_of_idle h) hf

theorem obeys_next {f : o.Ans → Thread β} {R : β → PageMark → Prop} {m' : o.Ans → PageMark}
    (h : ∀ r, pageNext m o r = some (m' r)) (hf : ∀ r, (f r).Obeys pageDiscipline R (m' r)) :
    (op o >>= f).Obeys pageDiscipline R m :=
  fun r => ⟨m' r, h r, hf r⟩

/-- What a poll leaves. -/
def PollResult (call : Call) (result : Except BackendError RemoteOutputPage) (m : PageMark) : Prop :=
  match result with
  | .ok page => m = ⟨call, .staged page.token⟩ ∧ page.Ok
  | .error _ => m = ⟨call, .free⟩

variable {call : Call} (token : OutputPageToken)

theorem pageNext_clearReservation (r : Unit) :
    pageNext ⟨call, .fetching token⟩ (.clearReservation token) r = some ⟨call, .free⟩ := if_pos rfl

theorem obeys_outputRequest {call : PreparedHostCall} {β : Type} {f : (Op.request call).Ans → Thread β}
    {R : β → PageMark → Prop} (hcall : call.purpose = .output)
    (hnone : (f (none : Option _)).Obeys pageDiscipline R ⟨m.call, .free⟩)
    (hsome : ∀ replied, (f (some replied : Option _)).Obeys pageDiscipline R m) :
    (op (.request call) >>= f).Obeys pageDiscipline R m := by
  intro r
  cases (r : Option (Except HostConnectionError HostReply)) with
  | none =>
    refine ⟨⟨m.call, .free⟩, ?_, hnone⟩
    exact if_pos ⟨hcall, rfl⟩
  | some replied =>
    refine ⟨m, ?_, hsome replied⟩
    exact if_neg fun hand => nomatch hand.2

theorem obeys_pollFails (error : HostConnectionError) :
    (pollFails token error).Obeys pageDiscipline (PollResult call) ⟨call, .fetching token⟩ := by
  refine obeys_next (pageNext_clearReservation token) fun _ => ?_
  split
  · exact obeys_idle trivial fun _ => rfl
  · rfl

/-- The page that is returned says truly where it begins. -/
theorem outputPage_ok : (outputPage { token with nextOffset := wire.nextOffset } wire bytes).Ok := by
  refine ⟨rfl, ?_⟩
  simp only [outputPage]
  cases token.requestedOffset with
  | none => exact .inl rfl
  | some offset =>
    by_cases h : offset = wire.offset
    · exact .inr (by rw [h])
    · left
      simp [h]

theorem obeys_stageReply {sessionId : String} {options : RemoteOutputPollOptions} {token : OutputPageToken}
    :
    (stageReply sessionId options token reply).Obeys pageDiscipline (PollResult call) ⟨call, .fetching token⟩ := by
  rw [stageReply]
  split
  · exact obeys_next (pageNext_clearReservation token) fun _ => obeys_idle trivial fun _ => rfl
  · split
    · exact obeys_next (pageNext_clearReservation token) fun _ => rfl
    · split
      · exact obeys_next (pageNext_clearReservation token) fun _ => rfl
      · rename_i wire bytes _
        intro staged
        cases (staged : Except BackendError Unit) with
        | error => exact ⟨⟨call, .free⟩, if_pos rfl, rfl⟩
        | ok => exact ⟨⟨call, .staged { token with nextOffset := wire.nextOffset }⟩, if_pos rfl, rfl, outputPage_ok _⟩

/-- **A poll.** -/
theorem obeys_pollOutput (sessionId : String) (options : RemoteOutputPollOptions) (start : OutputPollCursor) :
    (pollOutput sessionId options start).Obeys pageDiscipline (fun result m => match result with
        | some result => PollResult (.poll sessionId options start) result m
        | none => m = ⟨.poll sessionId options start, .free⟩)
      ⟨.poll sessionId options start, .free⟩ := by
  rw [pollOutput]
  split
  · rfl
  · split
    · rfl
    · refine Obeys.bind ((makes_ensureBootstrap.obeys fun _ ho r =>
        pageNext_of_idle (isPageIdle_of_bootstrap ho)).mono ?_)
      rintro ensured _ rfl
      split
      · rfl
      · rfl
      · split
        · rfl
        · intro reserved
          cases (reserved : Except BackendError OutputPageToken) with
          | error => exact ⟨_, if_pos ⟨rfl, rfl⟩, rfl⟩
          | ok token =>
            refine ⟨⟨_, .fetching token⟩, if_pos ⟨rfl, rfl⟩, obeys_idle trivial fun prepared => ?_⟩
            split
            · exact Obeys.map (obeys_pollFails token _)
            · refine obeys_outputRequest rfl rfl fun replied => ?_
              cases replied with
              | error error => exact Obeys.map (obeys_pollFails token error)
              | ok reply => exact Obeys.map obeys_stageReply

theorem makes_idle_ensureBootstrap : ensureBootstrap.Makes IsPageIdle :=
  makes_ensureBootstrap.mono fun _ => isPageIdle_of_bootstrap

theorem makes_performRead : (performRead operation capability).Makes IsPageIdle := by
  refine makes_idle_ensureBootstrap.bind fun ensured => ?_
  split
  · trivial
  · trivial
  · split
    · trivial
    · refine (makes_op trivial).bind fun prepared => ?_
      split
      · exact makes_invalidates trivial trivial
      · refine Makes.bind (makes_op Purpose.noConfusion) fun replied => ?_
        split
        · trivial
        · exact makes_invalidates trivial trivial
        · split
          · exact (makes_op trivial).bind fun _ => trivial
          · split <;> trivial

theorem makes_effectReply (operation : String) (call : PreparedHostCall) (generation : ConnectionGeneration)
    (reply : HostReply) : (effectReply operation call generation reply).Makes IsPageIdle := by
  rw [effectReply]
  split
  · exact (makes_op trivial).bind fun _ => trivial
  · split
    · exact (makes_op trivial).bind fun _ => trivial
    · split
      · dsimp only
        split
        · exact (makes_op trivial).bind fun _ => trivial
        · trivial
      · trivial

theorem makes_exchangeBehindGate :
    (exchangeBehindGate ticket effect generation).Makes IsPageIdle := by
  refine (makes_op trivial).bind fun latest => ?_
  split
  · trivial
  · split
    · trivial
    · split
      · trivial
      · refine (makes_op trivial).bind fun prepared => ?_
        split
        · exact makes_invalidates trivial trivial
        · refine Makes.bind (makes_op Purpose.noConfusion) fun replied => ?_
          split
          · trivial
          · exact makes_invalidates trivial trivial
          · exact (makes_effectReply _ _ _ _).map

theorem makes_performEffect (ticket : Nat) (effect : EffectCall) : (performEffect ticket effect).Makes IsPageIdle := by
  rw [performEffect]
  split
  · trivial
  · refine Makes.bind (makes_idle_ensureBootstrap.bind fun ensured => ?_) fun exchanged => ?_
    · split
      · trivial
      · trivial
      · exact makes_withGate trivial trivial makes_exchangeBehindGate
    · split
      · trivial
      · trivial
      · split
        · trivial
        · exact (makes_op trivial).bind fun _ => trivial

theorem makes_effectMethod : (effectMethod effect).Makes IsPageIdle :=
  (makes_op trivial).bind fun _ => (makes_op trivial).bind fun _ => (makes_performEffect _ _).bind fun _ =>
    (makes_op trivial).bind fun _ => trivial

/-- A call that has nothing to do with pages. -/
theorem obeys_of_makes {p : Thread α} (hp : p.Makes IsPageIdle) {f : α → Thread Result}
    (hf : ∀ a, (f a).Obeys pageDiscipline PageResult m) : (p >>= f).Obeys pageDiscipline PageResult m := by
  refine Obeys.bind ((hp.obeys fun _ ho r => pageNext_of_idle ho).mono ?_)
  rintro a _ rfl
  exact hf a

/-- **Every call** keeps to the discipline. -/
theorem obeys_run : call.run.Obeys pageDiscipline PageResult ⟨call, .free⟩ := by
  cases call with
  | bootstrap => exact obeys_of_makes (makes_refreshBootstrap.mono fun _ => isPageIdle_of_bootstrap) fun _ => rfl
  | poll sessionId options start =>
    refine Obeys.bind ((obeys_pollOutput sessionId options start).mono fun result m hm => ?_)
    match result with
    | none => exact congrArg PageMark.phase hm
    | some (.error error) => exact congrArg PageMark.phase hm
    | some (.ok page) => exact ⟨congrArg PageMark.phase hm.1, hm.2⟩
  | commit page =>
    intro taken
    cases (taken : Bool) with
    | true => exact ⟨⟨_, .holds page⟩, if_pos ⟨rfl, .inl rfl⟩, fun _ => ⟨⟨_, .free⟩, if_pos rfl, rfl⟩⟩
    | false => exact ⟨_, if_pos ⟨rfl, .inl rfl⟩, rfl⟩
  | discard page =>
    intro taken
    cases (taken : Bool) with
    | true => exact ⟨⟨_, .holds page⟩, if_pos ⟨rfl, .inr rfl⟩, fun _ => ⟨⟨_, .free⟩, if_pos rfl, rfl⟩⟩
    | false => exact ⟨_, if_pos ⟨rfl, .inr rfl⟩, rfl⟩
  | resetOutputCursor =>
    rw [Call.run]
    split
    · rfl
    · exact obeys_idle trivial fun _ => rfl
  | read operation capability => exact obeys_of_makes makes_performRead fun _ => rfl
  | effect call => exact obeys_of_makes makes_effectMethod fun _ => rfl
  | disconnect => exact obeys_idle trivial fun _ => rfl

end Programs

end Supercli.Remote
