import Supercli.Gateway.Serve

/-!
# `Gateway.AnswersOnce` — every request is answered exactly once

Each request that was read is at any time in one place: in the queue, in the hands of one thread, or among the answers. The
invariant says so by counting, and that only the thread with the writer's lock has a frame half written. From it follows what
is in the output when all threads have ended; that they end is a measure that every step lowers.
-/

namespace Supercli.Gateway

open List Thread

/-! ## Places -/

/-- The request a thread has in its hands and has not handled. -/
def Thread.jobs : Thread → List Job
  | .sending job | .handling job => [job]
  | _ => []

/-- The place in the order of reading of what a thread has in its hands. -/
def Thread.indices (t : Thread) : List Nat := t.jobs.map Job.index ++ t.pending.map Answer.index

/-- What a thread has written of a frame that is not whole. -/
def Thread.part : Thread → Bytes
  | .replying _ a .payload => frameHeader frameKindResponse a.payload
  | _ => []

def Thread.holdsWriter : Thread → Bool
  | .replying _ _ .header | .replying _ _ .payload | .replying _ _ .unlocking => true
  | _ => false

def Thread.holdsReceiver : Thread → Bool
  | .holding => true
  | _ => false

/-- The reader, inside its loop. -/
def Thread.reads : Thread → Bool
  | .polling | .reading | .sending _ | .replying .reader _ _ => true
  | _ => false

/-- The reader, anywhere. -/
def Thread.isReader (t : Thread) : Bool :=
  t.reads || (match t with | .stopping | .closing | .readerDone => true | _ => false)

/-! ## The invariant -/

/-- An answer that is as it should be. -/
structure Sound (s : Shared) (a : Answer) : Prop where
  received : s.received[a.index]? = some a.incoming
  why : match a.how with
    | .handled outcome => ∃ request, a.incoming = .request request ∧ (⟨a.index, request⟩, outcome) ∈ s.calls
    | .full => (∃ request, a.incoming = .request request) ∧ a.index ∉ s.calls.map (·.1.index) ∧ a.index ∈ s.overflows
    | .rejected => ∃ id, a.incoming = .rejected id

/-- A request that has not been handled. -/
def Unhandled (s : Shared) (job : Job) : Prop :=
  s.received[job.index]? = some (.request job.request) ∧ job.index ∉ s.calls.map (·.1.index)

/-- All places in the order of reading that are somewhere. -/
def places (s : Shared) (ts : List Thread) : List Nat :=
  s.answers.map Answer.index ++ s.queue.map Job.index ++ ts.flatMap indices

/-- The frames of the answers. -/
def whole (s : Shared) : Bytes := (s.answers.map Answer.frame).flatMap frameBytes

structure Inv (libs : TunnelLibs) (ending : InputEnd) (input : Bytes) (s : Shared) (ts : List Thread) : Prop where
  once : (places s ts).Perm (List.range s.received.length)
  queued : ∀ job ∈ s.queue, Unhandled s job
  inHand : ∀ t ∈ ts, ∀ job ∈ t.jobs, Unhandled s job
  pending : ∀ t ∈ ts, ∀ a ∈ t.pending, Sound s a
  answers : ∀ a ∈ s.answers, Sound s a
  calls : (s.calls.map (·.1.index)).Nodup
  called : ∀ call ∈ s.calls, s.received[call.1.index]? = some (.request call.1.request)
  ids : ∀ incoming ∈ s.received, incoming.id < 2 ^ 64
  writer : ts.countP holdsWriter = s.writerHeld.toNat
  receiver : ts.countP holdsReceiver = s.receiverHeld.toNat
  free : s.writerHeld = false → s.output = whole s
  held : ∀ t ∈ ts, t.holdsWriter = true → s.output = whole s ++ t.part
  stream : s.received ++ allIncoming libs ending s.input = allIncoming libs ending input
  reader : ts.countP isReader = 1
  flag : s.cancelled = true → s.raised = true ∨ ∀ t ∈ ts, t.reads = false
  drained : s.raised = false → (∀ t ∈ ts, t.reads = false) → allIncoming libs ending s.input = []
  closed : .readerDone ∈ ts → s.closed = true
  shut : s.closed = true → ∀ t ∈ ts, t.reads = false
  left : .workerDone ∈ ts → s.closed = true ∧ s.queue = []
  workers : ∃ t ∈ ts, t.isReader = false

section Invariant

variable {libs : TunnelLibs} {ending : InputEnd} {input : Bytes} {s s' : Shared} {t t' : Thread} {ts ts' rest : List Thread}

theorem Inv.perm (hp : ts.Perm ts') (h : Inv libs ending input s ts) : Inv libs ending input s ts' :=
  { h with
    once := ((hp.flatMap_right _).append_left _).symm.trans h.once
    inHand := fun t ht => h.inHand t (hp.mem_iff.mpr ht)
    pending := fun t ht => h.pending t (hp.mem_iff.mpr ht)
    writer := (hp.countP_eq _).symm.trans h.writer
    receiver := (hp.countP_eq _).symm.trans h.receiver
    held := fun t ht => h.held t (hp.mem_iff.mpr ht)
    reader := (hp.countP_eq _).symm.trans h.reader
    flag := fun hc => (h.flag hc).imp_right fun hr t ht => hr t (hp.mem_iff.mpr ht)
    drained := fun hr hn => h.drained hr fun t ht => hn t (hp.mem_iff.mp ht)
    closed := fun hd => h.closed (hp.mem_iff.mpr hd)
    shut := fun hc t ht => h.shut hc t (hp.mem_iff.mpr ht)
    left := fun hl => h.left (hp.mem_iff.mpr hl)
    workers := h.workers.imp fun _ ht => ⟨hp.mem_iff.mp ht.1, ht.2⟩ }

/-! ### Places -/

/-- A step moves a request from one place to another, or adds one that was read. -/
theorem once_moves (hm : Moves libs ending s t s' t') (h : (places s (t :: rest)).Perm (range s.received.length)) :
    (places s' (t' :: rest)).Perm (range s'.received.length) := by
  refine perm_iff_count.mpr fun x => ?_
  have hx := perm_iff_count.mp h x
  cases hm with
  | request | reject =>
    simp only [places, indices, jobs, pending, flatMap_cons, map_nil, map_cons,
      nil_append, count_append, length_append, length_singleton, range_succ,
      append_nil] at hx ⊢
    omega
  | enqueue | payload =>
    simp only [places, indices, jobs, pending, flatMap_cons, map_nil, map_cons,
      nil_append, count_append, map_append, append_nil] at hx ⊢
    omega
  | take job rest' hq =>
    simp only [places, hq, indices, jobs, pending, flatMap_cons, map_nil, map_cons,
      nil_append, count_append, count_cons, append_nil, count_nil] at hx ⊢
    omega
  | _ => simpa [places, indices, jobs, pending] using hx

theorem Inv.index_ne (h : Inv libs ending input s (t :: rest)) (hi : i ∈ t.indices)
    (hj : j ∈ s.answers.map Answer.index ∨ j ∈ s.queue.map Job.index ∨ ∃ u ∈ rest, j ∈ u.indices) : j ≠ i := by
  have hnodup : (places s (t :: rest)).Nodup := h.once.nodup_iff.mpr nodup_range
  rintro rfl
  simp only [places, flatMap_cons, nodup_append, mem_append] at hnodup
  rcases hj with hj | hj | ⟨u, hu, hj⟩
  · exact hnodup.2.2 j (.inl hj) j (.inl hi) rfl
  · exact hnodup.2.2 j (.inr hj) j (.inl hi) rfl
  · exact hnodup.2.1.2.2 j hi j (mem_flatMap.mpr ⟨u, hu, hj⟩) rfl

/-! ### What is known of requests and answers -/

/-- What is known stays known when more is read, called or refused. -/
structure Grows (s s' : Shared) : Prop where
  received : s.received <+: s'.received
  calls : ∀ call ∈ s.calls, call ∈ s'.calls
  overflows : ∀ i ∈ s.overflows, i ∈ s'.overflows

theorem grows_moves (hm : Moves libs ending s t s' t') : Grows s s' := by
  cases hm with
  | request | reject => exact ⟨prefix_append _ _, fun _ h => h, fun _ h => h⟩
  | overflow => exact ⟨prefix_refl _, fun _ h => h, fun _ h => mem_append_left _ h⟩
  | handle => exact ⟨prefix_refl _, fun _ h => mem_append_left _ h, fun _ h => h⟩
  | _ => exact ⟨prefix_refl _, fun _ h => h, fun _ h => h⟩

theorem Grows.getElem? (hg : Grows s s') {i : Nat} (h : s.received[i]? = some incoming) :
    s'.received[i]? = some incoming := by
  obtain ⟨more, hmore⟩ := hg.received
  rw [← hmore]
  rw [List.getElem?_append_left (List.getElem?_eq_some_iff.mp h).1, h]

/-- Only a thread that handles a request calls the handler. -/
theorem calls_moves (hm : Moves libs ending s t s' t') :
    s'.calls = s.calls ∨ ∃ job outcome, t = .handling job ∧ s'.calls = s.calls ++ [(job, outcome)] := by
  cases hm with
  | handle job outcome => exact .inr ⟨job, outcome, rfl, rfl⟩
  | _ => exact .inl rfl

theorem not_called (hm : Moves libs ending s t s' t') (hi : i ∉ t.indices)
    (h : i ∉ s.calls.map (·.1.index)) : i ∉ s'.calls.map (·.1.index) := by
  rcases calls_moves hm with heq | ⟨job, outcome, rfl, heq⟩
  · rwa [heq]
  · rw [heq, map_append, mem_append, not_or]
    exact ⟨h, by simpa [indices, jobs, pending] using hi⟩

theorem Sound.moves (h : Sound s a) (hm : Moves libs ending s t s' t') (hi : a.index ∉ t.indices) :
    Sound s' a := by
  have hg := grows_moves hm
  obtain ⟨hreceived, hwhy⟩ := h
  refine ⟨hg.getElem? hreceived, ?_⟩
  cases hhow : a.how with
  | handled =>
    rw [hhow] at hwhy
    obtain ⟨request, hrequest, hcall⟩ := hwhy
    exact ⟨request, hrequest, hg.calls _ hcall⟩
  | full =>
    rw [hhow] at hwhy
    exact ⟨hwhy.1, not_called hm hi hwhy.2.1, hg.overflows _ hwhy.2.2⟩
  | rejected =>
    rw [hhow] at hwhy
    exact hwhy

theorem Unhandled.moves (h : Unhandled s job) (hm : Moves libs ending s t s' t')
    (hi : job.index ∉ t.indices) : Unhandled s' job :=
  ⟨(grows_moves hm).getElem? h.1, not_called hm hi h.2⟩

/-- The index that the next frame gets has not been called. -/
theorem Inv.next_not_called (h : Inv libs ending input s ts) : s.received.length ∉ s.calls.map (·.1.index) := by
  intro hmem
  obtain ⟨call, hcall, heq⟩ := mem_map.mp hmem
  have hsome := h.called call hcall
  rw [heq, getElem?_eq_none le_rfl] at hsome
  cases hsome

theorem mem_indices_of_job {u : Thread} (h : job ∈ u.jobs) : job.index ∈ u.indices :=
  mem_append_left _ (mem_map_of_mem h)

theorem mem_indices_of_pending {u : Thread} (h : a ∈ u.pending) : a.index ∈ u.indices :=
  mem_append_right _ (mem_map_of_mem h)

section

variable (h : Inv libs ending input s (t :: rest))

include h

/-- What is elsewhere has another index than what the thread that moves has. -/
theorem Inv.elsewhere (hj : j ∈ s.answers.map Answer.index ∨ j ∈ s.queue.map Job.index ∨ ∃ u ∈ rest, j ∈ u.indices) :
    j ∉ t.indices :=
  fun hi => h.index_ne hi hj rfl

section

variable (hm : Moves libs ending s t s' t')

include hm

theorem queued_moves : ∀ job ∈ s'.queue, Unhandled s' job := by
  have hold : ∀ job ∈ s.queue, Unhandled s' job := fun job hjob =>
    (h.queued job hjob).moves hm (h.elsewhere (.inr (.inl (mem_map_of_mem hjob))))
  cases hm with
  | enqueue job hroom =>
    rw [forall_mem_append, forall_mem_singleton]
    exact ⟨hold, h.inHand _ mem_cons_self job mem_cons_self⟩
  | take job rest' hq => exact fun job' hjob' => hold job' (hq ▸ mem_cons_of_mem _ hjob')
  | _ => exact hold

theorem inHand_moves : ∀ u ∈ t' :: rest, ∀ job ∈ u.jobs, Unhandled s' job := by
  intro u hu job hjob
  rcases mem_cons.mp hu with rfl | hu
  · cases hm with
    | request =>
      obtain rfl := mem_singleton.mp hjob
      exact ⟨by simp, h.next_not_called⟩
    | take job' rest' hq =>
      obtain rfl := mem_singleton.mp hjob
      exact h.queued job (hq ▸ mem_cons_self)
    | done => exact h.inHand _ mem_cons_self job hjob
    | _ => cases hjob
  · exact (h.inHand u (mem_cons_of_mem _ hu) job hjob).moves hm
      (h.elsewhere (.inr (.inr ⟨u, hu, mem_indices_of_job hjob⟩)))

theorem pending_moves : ∀ u ∈ t' :: rest, ∀ a ∈ u.pending, Sound s' a := by
  intro u hu a ha
  rcases mem_cons.mp hu with rfl | hu
  · cases hm with
    | reject id rest' hnext =>
      obtain rfl := mem_singleton.mp ha
      exact ⟨by simp, id, rfl⟩
    | overflow job hfull =>
      obtain rfl := mem_singleton.mp ha
      obtain ⟨hreceived, hnot⟩ := h.inHand _ mem_cons_self job mem_cons_self
      exact ⟨hreceived, ⟨job.request, rfl⟩, hnot, mem_append_right _ mem_cons_self⟩
    | handle job outcome raises =>
      obtain rfl := mem_singleton.mp ha
      obtain ⟨hreceived, -⟩ := h.inHand _ mem_cons_self job mem_cons_self
      exact ⟨hreceived, job.request, rfl, mem_append_right _ mem_cons_self⟩
    | awaitWriter | lockWriter | header =>
      obtain ⟨hreceived, hwhy⟩ := h.pending _ mem_cons_self a ha
      exact ⟨hreceived, hwhy⟩
    | done t hdone => cases t <;> cases hdone <;> cases ha
    | _ => cases ha
  · exact (h.pending u (mem_cons_of_mem _ hu) a ha).moves hm
      (h.elsewhere (.inr (.inr ⟨u, hu, mem_indices_of_pending ha⟩)))

theorem answers_moves : ∀ a ∈ s'.answers, Sound s' a := by
  have hold : ∀ a ∈ s.answers, Sound s' a := fun a ha =>
    (h.answers a ha).moves hm (h.elsewhere (.inl (mem_map_of_mem ha)))
  cases hm with
  | payload role a =>
    rw [forall_mem_append, forall_mem_singleton]
    obtain ⟨hreceived, hwhy⟩ := h.pending _ mem_cons_self a mem_cons_self
    exact ⟨hold, hreceived, hwhy⟩
  | _ => exact hold

/-- **The handler is called once** for a request. -/
theorem calls_nodup_moves : (s'.calls.map (·.1.index)).Nodup ∧
      ∀ call ∈ s'.calls, s'.received[call.1.index]? = some (.request call.1.request) := by
  have hg := grows_moves hm
  rcases calls_moves hm with heq | ⟨job, outcome, rfl, heq⟩
  · rw [heq]
    exact ⟨h.calls, fun call hcall => hg.getElem? (h.called call hcall)⟩
  · obtain ⟨hreceived, hnot⟩ := h.inHand _ mem_cons_self job mem_cons_self
    rw [heq]
    refine ⟨?_, fun call hcall => ?_⟩
    · rw [map_append, map_singleton, nodup_append]
      refine ⟨h.calls, by simp, fun i hi j hj => ?_⟩
      rw [mem_singleton.mp hj]
      exact fun hij => hnot (hij ▸ hi)
    · rcases mem_append.mp hcall with hcall | hcall
      · exact hg.getElem? (h.called call hcall)
      · rw [mem_singleton.mp hcall]
        exact hg.getElem? hreceived

end

end

/-! ### The locks and the output -/

section

variable (hm : Moves libs ending s t s' t')

include hm

theorem writer_moves (h : (t :: rest).countP holdsWriter = s.writerHeld.toNat) :
    (t' :: rest).countP holdsWriter = s'.writerHeld.toNat := by
  have hle := s.writerHeld.toNat_le
  rw [countP_cons] at h ⊢
  cases hm with
  | done => exact h
  | lockWriter role a hfree =>
    simp only [holdsWriter, hfree, Bool.toNat_false, Bool.toNat_true, Bool.false_eq_true, if_false, if_true] at h ⊢
    omega
  | readOn | workOn =>
    simp only [holdsWriter, Bool.toNat_false, Bool.false_eq_true, if_false, if_true] at h ⊢
    omega
  | _ => exact h

theorem receiver_moves (h : (t :: rest).countP holdsReceiver = s.receiverHeld.toNat) :
    (t' :: rest).countP holdsReceiver = s'.receiverHeld.toNat := by
  have hle := s.receiverHeld.toNat_le
  rw [countP_cons] at h ⊢
  cases hm with
  | done => exact h
  | lockReceiver hfree =>
    simp only [holdsReceiver, hfree, Bool.toNat_false, Bool.toNat_true, Bool.false_eq_true, if_false, if_true] at h ⊢
    omega
  | take | disconnect =>
    simp only [holdsReceiver, Bool.toNat_false, Bool.false_eq_true, if_false, if_true] at h ⊢
    omega
  | _ => exact h

theorem reader_moves : t'.isReader = t.isReader := by
  cases hm with
  | leave | poll | stop | request | reject | enqueue | overflow | cancel | close | readOn => rfl
  | lockReceiver | take | disconnect | handle | workOn => rfl
  | lockWriter role | header role | payload role => cases role <;> rfl
  | done | awaitReceiver | awaitJob | awaitWriter => rfl

end

/-- What at most one thread is, no thread is beside it. -/
theorem eq_false_of_countP (h : (t :: rest).countP p ≤ 1) (ht : p t = true) : ∀ u ∈ rest, p u = false := by
  rw [countP_cons_of_pos ht] at h
  have hzero : rest.countP p = 0 := by omega
  exact fun u hu => by simpa using countP_eq_zero.mp hzero u hu

theorem Inv.held_of_holdsWriter (h : Inv libs ending input s ts) (ht : t ∈ ts) (hw : t.holdsWriter = true) :
    s.writerHeld = true := by
  have hpos : 0 < ts.countP holdsWriter := countP_pos_iff.mpr ⟨t, ht, hw⟩
  rw [h.writer] at hpos
  cases hh : s.writerHeld with
  | true => rfl
  | false =>
    rw [hh] at hpos
    cases hpos

theorem whole_append :
    whole { s with output := output, answers := s.answers ++ [a] } = whole s ++ frameBytes a.frame := by
  simp [whole]

section

variable (h : Inv libs ending input s (t :: rest))

include h

/-- **The output is whole frames, and what the thread with the lock has written of one more.** -/
theorem output_moves (hm : Moves libs ending s t s' t') : (s'.writerHeld = false → s'.output = whole s') ∧
      ∀ u ∈ t' :: rest, u.holdsWriter = true → s'.output = whole s' ++ u.part := by
  have hthis := h.held t mem_cons_self
  have hrest : ∀ u ∈ rest, u.holdsWriter = true → s.output = whole s ++ u.part := fun u hu =>
    h.held u (mem_cons_of_mem _ hu)
  -- the thread that moves is the one with the lock, or leaves the output alone
  have hothers : t.holdsWriter = true → ∀ {P : Prop}, ∀ u ∈ rest, u.holdsWriter = true → P := by
    intro ht P u hu hw
    rw [eq_false_of_countP (h.writer.trans_le s.writerHeld.toNat_le) ht u hu] at hw
    cases hw
  cases hm with
  | done => exact ⟨h.free, h.held⟩
  | lockWriter role a hfree =>
    refine ⟨Bool.noConfusion, fun u hu hw => ?_⟩
    rcases mem_cons.mp hu with rfl | hu
    · exact (h.free hfree).trans (append_nil _).symm
    · exact hrest u hu hw
  | header role a =>
    have hout := hthis rfl
    refine ⟨fun hheld => ?_, fun u hu hw => ?_⟩
    · rw [h.held_of_holdsWriter (t := .replying role a .header) mem_cons_self rfl] at hheld
      cases hheld
    · rcases mem_cons.mp hu with rfl | hu
      · exact congrArg (· ++ _) (hout.trans (append_nil _))
      · exact hothers rfl u hu hw
  | payload role a =>
    have hout := hthis rfl
    refine ⟨fun hheld => ?_, fun u hu hw => ?_⟩
    · rw [h.held_of_holdsWriter (t := .replying role a .payload) mem_cons_self rfl] at hheld
      cases hheld
    · rcases mem_cons.mp hu with rfl | hu
      · have hframe : frameBytes a.frame = frameHeader frameKindResponse a.payload ++ a.payload := rfl
        have hpart : s.output = whole s ++ frameHeader frameKindResponse a.payload := hout
        have hnone : (replying role a .unlocking).part = [] := rfl
        rw [whole_append, hnone, hframe, hpart, append_nil, append_assoc]
      · exact hothers rfl u hu hw
  | readOn a | workOn a =>
    have hout := hthis rfl
    refine ⟨fun _ => hout.trans (append_nil _), fun u hu hw => ?_⟩
    rcases mem_cons.mp hu with rfl | hu
    · cases hw
    · exact hothers rfl u hu hw
  | _ =>
    refine ⟨h.free, fun u hu hw => ?_⟩
    rcases mem_cons.mp hu with rfl | hu
    · cases hw
    · exact hrest u hu hw

/-! ### The input -/

/-- What was read is the beginning of what can be answered, and the reader does not leave before the end unless a handler
    asks for it. -/
theorem stream_moves (hm : Moves libs ending s t s' t') :
    s'.received ++ allIncoming libs ending s'.input = allIncoming libs ending input ∧
      ∀ incoming ∈ s'.received, incoming.id < 2 ^ 64 := by
  have hread : ∀ incoming rest', nextIncoming libs ending s.input = .ok (incoming, rest') →
      (s.received ++ [incoming]) ++ allIncoming libs ending rest' = allIncoming libs ending input ∧
        ∀ incoming' ∈ s.received ++ [incoming], incoming'.id < 2 ^ 64 := by
    intro incoming rest' hnext
    obtain ⟨-, frame, -, hclass⟩ := nextIncoming_ok hnext
    refine ⟨?_, fun incoming' hmem => ?_⟩
    · rw [← h.stream, allIncoming_ok hnext, append_assoc, singleton_append]
    · rcases mem_append.mp hmem with hmem | hmem
      · exact h.ids incoming' hmem
      · rw [mem_singleton.mp hmem]
        exact lt_of_parseableRequestId libs (classify_ok hclass).2.1
  cases hm with
  | request _ _ hnext | reject _ _ hnext => exact hread _ _ hnext
  | _ => exact ⟨h.stream, h.ids⟩

theorem Inv.not_reads (ht : t.isReader = true) : ∀ u ∈ rest, u.reads = false := by
  intro u hu
  have hnot : u.isReader = false := eq_false_of_countP h.reader.le ht u hu
  exact (Bool.or_eq_false_iff.mp hnot).1

end

/-- Nobody goes back into the reader's loop. -/
theorem reads_moves (hm : Moves libs ending s t s' t') (h : t.reads = false) : t'.reads = false := by
  cases hm with
  | lockWriter role | header role | payload role => cases role <;> exact h
  | done | awaitReceiver | awaitJob | awaitWriter => exact h
  | leave | stop | cancel | close | lockReceiver | take | disconnect | handle | workOn => rfl
  | _ => cases h

theorem none_reads_moves (rest : List Thread) (hm : Moves libs ending s t s' t') (h : ∀ u ∈ t :: rest, u.reads = false) :
    ∀ u ∈ t' :: rest, u.reads = false := by
  rw [forall_mem_cons] at h ⊢
  exact ⟨reads_moves hm h.1, h.2⟩

section

variable (h : Inv libs ending input s (t :: rest)) (hm : Moves libs ending s t s' t')

include h hm

theorem flag_moves : s'.cancelled = true → s'.raised = true ∨ ∀ u ∈ t' :: rest, u.reads = false := by
  have hnone := none_reads_moves rest hm
  cases hm with
  | cancel =>
    rw [forall_mem_cons]
    exact fun _ => .inr ⟨rfl, h.not_reads rfl⟩
  | handle job outcome raises =>
    intro hcancel
    cases raises with
    | true => exact .inl (Bool.or_true _)
    | false =>
      rw [Bool.or_false] at hcancel
      exact (h.flag hcancel).imp (fun hr => by rw [hr]; rfl) hnone
  | _ => exact fun hcancel => (h.flag hcancel).imp_right hnone

theorem drained_moves (hraised : s'.raised = false) (hnone : ∀ u ∈ t' :: rest, u.reads = false) :
    allIncoming libs ending s'.input = [] := by
  obtain ⟨hmoved, hrest⟩ := forall_mem_cons.mp hnone
  have hkeep : s'.raised = s.raised → (t'.reads = false → t.reads = false) → allIncoming libs ending s.input = [] :=
    fun hr hreads => h.drained (hr ▸ hraised) (forall_mem_cons.mpr ⟨hreads hmoved, hrest⟩)
  cases hm with
  | leave hcancel =>
    -- the reader leaves because the flag is set: a handler did that
    rcases h.flag hcancel with hr | hr
    · rw [hraised] at hr
      cases hr
    · have := hr _ mem_cons_self
      cases this
  | stop e hnext => exact allIncoming_error hnext
  | request | reject => cases hmoved
  | handle =>
    exact h.drained (Bool.or_eq_false_iff.mp hraised).1 (forall_mem_cons.mpr ⟨rfl, hrest⟩)
  | lockWriter role | header role | payload role => cases role <;> exact hkeep rfl id
  | done | awaitReceiver | awaitJob | awaitWriter => exact hkeep rfl id
  | _ => exact hkeep rfl (by simp [reads])

theorem closed_moves (hdone : .readerDone ∈ t' :: rest) : s'.closed = true := by
  cases hm with
  | close => rfl
  | done => exact h.closed hdone
  | _ => exact h.closed (mem_cons_of_mem _ ((mem_cons.mp hdone).resolve_left (by simp)))

theorem shut_moves (hclosed : s'.closed = true) : ∀ u ∈ t' :: rest, u.reads = false := by
  have hnone := none_reads_moves rest hm
  cases hm with
  | close =>
    rw [forall_mem_cons]
    exact ⟨rfl, h.not_reads rfl⟩
  | _ => exact hnone (h.shut hclosed)

/-- Workers leave when the queue is closed and empty, and then nothing is put into it. -/
theorem left_moves (hleft : .workerDone ∈ t' :: rest) : s'.closed = true ∧ s'.queue = [] := by
  cases hm with
  | disconnect hq hclosed => exact ⟨hclosed, hq⟩
  | done => exact h.left hleft
  | enqueue =>
    obtain ⟨hclosed, -⟩ := h.left (mem_cons_of_mem _ ((mem_cons.mp hleft).resolve_left (by simp)))
    have hreads := h.shut hclosed _ mem_cons_self
    cases hreads
  | take job rest' hq =>
    obtain ⟨-, hnil⟩ := h.left (mem_cons_of_mem _ ((mem_cons.mp hleft).resolve_left (by simp)))
    rw [hq] at hnil
    cases hnil
  | close => exact ⟨rfl, (h.left (mem_cons_of_mem _ ((mem_cons.mp hleft).resolve_left (by simp)))).2⟩
  | _ => exact h.left (mem_cons_of_mem _ ((mem_cons.mp hleft).resolve_left (by simp)))

/-- **Step lemma.** -/
theorem Inv.moves : Inv libs ending input s' (t' :: rest) where
  once := once_moves hm h.once
  queued := queued_moves h hm
  inHand := inHand_moves h hm
  pending := pending_moves h hm
  answers := answers_moves h hm
  calls := (calls_nodup_moves h hm).1
  called := (calls_nodup_moves h hm).2
  ids := (stream_moves h hm).2
  writer := writer_moves hm h.writer
  receiver := receiver_moves hm h.receiver
  free := (output_moves h hm).1
  held := (output_moves h hm).2
  stream := (stream_moves h hm).1
  reader := by
    have hcount := h.reader
    rw [countP_cons] at hcount ⊢
    rwa [reader_moves hm]
  flag := flag_moves h hm
  drained := drained_moves h hm
  closed := closed_moves h hm
  shut := shut_moves h hm
  left := left_moves h hm
  workers := by
    obtain ⟨u, hu, hw⟩ := h.workers
    rcases mem_cons.mp hu with rfl | hu
    · exact ⟨t', mem_cons_self, (reader_moves hm).trans hw⟩
    · exact ⟨u, mem_cons_of_mem _ hu, hw⟩

end

/-- An answer has an id of 64 bits. -/
theorem Inv.id_lt (h : Inv libs ending input s ts) (ha : Sound s a) : a.incoming.id < 2 ^ 64 :=
  h.ids _ (mem_of_getElem? ha.received)

end Invariant

/-! ## Runs -/

section Runs

variable {libs : TunnelLibs} {ending : InputEnd} {input : Bytes}

theorem inv_boot :
    Inv libs ending input (boot input).shared (boot input).threads := by
  have hthreads : ∀ t ∈ (boot input).threads, t = .polling ∨ t = .receiving := by
    intro t ht
    exact (mem_cons.mp ht).imp_right eq_of_mem_replicate
  refine
    { once := .refl _, queued := ?_, inHand := ?_, pending := ?_, answers := ?_, calls := .nil, called := ?_, ids := ?_
      writer := rfl, receiver := rfl, free := fun _ => rfl, held := ?_, stream := nil_append _, reader := rfl
      flag := Bool.noConfusion, drained := ?_, closed := ?_, shut := Bool.noConfusion, left := ?_
      workers := ⟨.receiving, mem_cons_of_mem _ (by simp [dispatchWorkers]), rfl⟩ }
  · exact nofun
  · intro t ht
    rcases hthreads t ht with rfl | rfl <;> exact nofun
  · intro t ht
    rcases hthreads t ht with rfl | rfl <;> exact nofun
  · exact nofun
  · exact nofun
  · exact nofun
  · intro t ht
    rcases hthreads t ht with rfl | rfl <;> exact Bool.noConfusion
  · intro _ hnone
    have := hnone .polling mem_cons_self
    cases this
  · intro hdone
    rcases hthreads _ hdone with h | h <;> cases h
  · intro hdone
    rcases hthreads _ hdone with h | h <;> cases h

/-- One step of the gateway keeps the invariant. -/
theorem inv_step (h : Inv libs ending input g.shared g.threads) (hfault : l.2.fault = none) :
    Inv libs ending input (step libs ending g l).shared (step libs ending g l).threads := by
  unfold step
  cases ht : g.threads[l.1]? with
  | none => exact h
  | some t =>
    refine Threads.moved_of_head (I := Inv libs ending input) (fun hp hI => hI.perm hp) ht h fun rest _ hI => ?_
    exact hI.moves (moves_move hfault fun a ha => hI.id_lt (hI.pending t mem_cons_self a ha))

/-! ## The end -/

/-- How far a thread is from its end. -/
def Thread.weight : Thread → Nat
  | .polling => 4
  | .reading => 3
  | .sending _ => 16
  | .stopping => 2
  | .closing => 1
  | .readerDone => 0
  | .receiving => 2
  | .holding => 1
  | .handling _ => 7
  | .workerDone => 0
  | .replying .reader _ stage =>
    match stage with | .locking => 8 | .header => 7 | .payload => 6 | .unlocking => 5
  | .replying .worker _ stage =>
    match stage with | .locking => 6 | .header => 5 | .payload => 4 | .unlocking => 3

/-- What is left to do outside of the threads. -/
def Shared.load (s : Shared) : Nat := 7 * s.queue.length + 2 * s.input.length

def Server.work (g : Server) : Nat := g.shared.load + (g.threads.map weight).sum

/-- The thread cannot go on, or has ended. -/
def Waits (s : Shared) (t : Thread) : Prop :=
  match t with
  | .readerDone | .workerDone => True
  | .receiving => s.receiverHeld = true
  | .holding => s.queue = [] ∧ s.closed = false
  | .replying _ _ .locking => s.writerHeld = true
  | _ => False

variable {t : Thread} {ts : List Thread}

/-- A thread that does not wait comes nearer to its end. -/
theorem weight_moves (hm : Moves libs ending s t s' t') :
    (s' = s ∧ t' = t ∧ Waits s t) ∨ s'.load + t'.weight < s.load + t.weight := by
  cases hm with
  | done t hdone => cases t <;> first | cases hdone; exact .inl ⟨rfl, rfl, trivial⟩ | cases hdone
  | awaitReceiver h | awaitWriter _ _ h => exact .inl ⟨rfl, rfl, h⟩
  | awaitJob h hclosed => exact .inl ⟨rfl, rfl, h, hclosed⟩
  | request _ _ hnext | reject _ _ hnext =>
    have hlt := (nextIncoming_ok hnext).1
    simp only [Shared.load, weight, frameHeaderBytes] at hlt ⊢
    omega
  | enqueue =>
    simp only [Shared.load, weight, length_append, length_singleton]
    omega
  | take job rest hq =>
    simp only [Shared.load, weight, hq, length_cons]
    omega
  | lockWriter role | header role | payload role =>
    right
    cases role <;> simp only [Shared.load, weight] <;> omega
  | _ =>
    right
    simp only [Shared.load, weight]
    omega

/-- **No deadlock**: unless all threads have ended, one of them can go on. -/
theorem Inv.not_all_wait (h : Inv libs ending input s ts) (hall : ∀ t ∈ ts, Waits s t) :
    ∀ t ∈ ts, t.isDone = true := by
  -- nobody has the writer's lock: who has it does not wait
  have hwriter : s.writerHeld = false := by
    cases hheld : s.writerHeld with
    | false => rfl
    | true =>
      have hpos : 0 < ts.countP holdsWriter := by
        rw [h.writer, hheld]
        exact Nat.one_pos
      obtain ⟨t, ht, hw⟩ := countP_pos_iff.mp hpos
      have hwaits := hall t ht
      cases t with
      | replying role a stage =>
        cases stage with
        | locking => cases hw
        | _ => cases hwaits
      | _ => cases hw
  -- the reader has ended, so the queue is closed
  have hclosed : s.closed = true := by
    obtain ⟨t, ht, hr⟩ := countP_pos_iff.mp (h.reader ▸ Nat.one_pos)
    have hwaits := hall t ht
    cases t with
    | readerDone => exact h.closed ht
    | replying role a stage =>
      cases stage with
      | locking =>
        rw [Waits, hwriter] at hwaits
        cases hwaits
      | _ => cases hwaits
    | receiving | holding | workerDone => cases hr
    | _ => cases hwaits
  -- so nobody is in `recv`, and the receiver's lock is free
  have hreceiver : s.receiverHeld = false := by
    cases hheld : s.receiverHeld with
    | false => rfl
    | true =>
      have hpos : 0 < ts.countP holdsReceiver := by
        rw [h.receiver, hheld]
        exact Nat.one_pos
      obtain ⟨t, ht, hr⟩ := countP_pos_iff.mp hpos
      have hwaits := hall t ht
      cases t with
      | holding =>
        rw [Waits, hclosed] at hwaits
        cases hwaits.2
      | _ => cases hr
  intro t ht
  have hwaits := hall t ht
  cases t with
  | readerDone | workerDone => rfl
  | receiving =>
    rw [Waits, hreceiver] at hwaits
    cases hwaits
  | holding =>
    rw [Waits, hclosed] at hwaits
    cases hwaits.2
  | replying role a stage =>
    cases stage with
    | locking =>
      rw [Waits, hwriter] at hwaits
      cases hwaits
    | _ => cases hwaits
  | _ => cases hwaits

theorem sum_weight_set (h : ts[i]? = some t) (t' : Thread) :
    ((ts.set i t').map weight).sum + t.weight = (ts.map weight).sum + t'.weight := by
  obtain ⟨rest, hts, hset⟩ := Threads.perm_set h t'
  rw [(hts.map weight).sum_nat, (hset.map weight).sum_nat, map_cons, map_cons, sum_cons, sum_cons]
  omega

theorem set_self (h : ts[i]? = some t) : ts.set i t = ts := by
  obtain ⟨hi, rfl⟩ := List.getElem?_eq_some_iff.mp h
  exact set_getElem_self hi

/-- A step without a failed write changes nothing, as the thread waits, or there is less to do after it. -/
theorem work_step (h : Inv libs ending input g.shared g.threads) (hfault : l.2.fault = none) :
    (step libs ending g l = g ∧ ∀ t, g.threads[l.1]? = some t → Waits g.shared t) ∨
      (step libs ending g l).work < g.work := by
  unfold step
  cases ht : g.threads[l.1]? with
  | none => exact .inl ⟨rfl, nofun⟩
  | some t =>
    have hmem : t ∈ g.threads := mem_of_getElem? ht
    have hm : Moves libs ending g.shared t (move libs ending l.2 g.shared t).1 (move libs ending l.2 g.shared t).2 :=
      moves_move hfault fun a ha => h.id_lt (h.pending t hmem a ha)
    rcases weight_moves hm with ⟨hs, hthread, hwaits⟩ | hlt
    · refine .inl ⟨?_, fun u hu => Option.some.inj hu ▸ hwaits⟩
      dsimp only
      rw [hs, hthread, set_self ht]
    · have hsum := sum_weight_set ht (move libs ending l.2 g.shared t).2
      refine .inr ?_
      simp only [Server.work]
      omega

/-! ## The result -/

/-- What is promised of the gateway in a state it can come to. -/
structure Served (libs : TunnelLibs) (ending : InputEnd) (input : Bytes) (g : Server) : Prop where
  /-- in the end the output is whole response frames -/
  framed : g.finished = true → ReadsAs g.shared.output (g.shared.answers.map Answer.frame)
  /-- exactly one for each request that was read -/
  once : g.finished = true → (g.shared.answers.map Answer.index).Perm (List.range g.shared.received.length)
  /-- with its id -/
  ids : g.finished = true → (g.shared.answers.map (·.incoming.id)).Perm (g.shared.received.map Incoming.id)
  /-- each for a reason -/
  sound : ∀ a ∈ g.shared.answers, Sound g.shared a
  /-- the handler gets a request at most once -/
  calls : (g.shared.calls.map (·.1.index)).Nodup
  called : ∀ call ∈ g.shared.calls, g.shared.received[call.1.index]? = some (.request call.1.request)
  /-- the requests are read in order, and unless a handler asks for the end all of them -/
  received : g.shared.received <+: allIncoming libs ending input
  all : g.finished = true → g.shared.raised = false → g.shared.received = allIncoming libs ending input
  /-- the gateway does not get stuck and does not go on forever -/
  goesOn : g.finished = false → ∃ i, ∀ env : Env, env.fault = none → (step libs ending g (i, env)).work < g.work
  ends : ∀ l : Nat × Env, l.2.fault = none → step libs ending g l = g ∨ (step libs ending g l).work < g.work

theorem Thread.idle_of_isDone (h : t.isDone = true) : t.indices = [] ∧ t.holdsWriter = false ∧ t.reads = false := by
  cases t with
  | readerDone | workerDone => exact ⟨rfl, rfl, rfl⟩
  | _ => cases h

/-- The answers have the ids of what they answer. -/
theorem ids_perm (hperm : (s.answers.map Answer.index).Perm (range s.received.length))
    (hsound : ∀ a ∈ s.answers, Sound s a) : (s.answers.map (·.incoming.id)).Perm (s.received.map Incoming.id) := by
  let idAt : Nat → Nat := fun i => (s.received[i]?.map Incoming.id).getD 0
  have hanswers : s.answers.map (·.incoming.id) = (s.answers.map Answer.index).map idAt := by
    rw [map_map]
    refine map_congr_left fun a ha => ?_
    simp [idAt, (hsound a ha).received]
  have hreceived : s.received.map Incoming.id = (range s.received.length).map idAt := by
    refine ext_getElem (by simp) fun i hi hi' => ?_
    have hlt : i < s.received.length := by simpa using hi
    simp [idAt, hlt]
  rw [hanswers, hreceived]
  exact hperm.map idAt

theorem Inv.served (h : Inv libs ending input g.shared g.threads) : Served libs ending input g := by
  have hdone : g.finished = true → ∀ t ∈ g.threads, t.isDone = true := fun hfin => all_eq_true.mp hfin
  -- in the end the queue is empty: otherwise a worker would not have left
  have honce : g.finished = true → (g.shared.answers.map Answer.index).Perm (range g.shared.received.length) := by
    intro hfin
    obtain ⟨t, ht, hworker⟩ := h.workers
    have hleft : t = .workerDone := by
      have htdone := hdone hfin t ht
      cases t with
      | workerDone => rfl
      | readerDone => cases hworker
      | _ => cases htdone
    have hqueue := (h.left (hleft ▸ ht)).2
    have hnone : g.threads.flatMap indices = [] :=
      flatMap_eq_nil_iff.mpr fun u hu => (idle_of_isDone (hdone hfin u hu)).1
    have hperm := h.once
    rwa [places, hqueue, hnone, map_nil, append_nil, append_nil] at hperm
  refine
    { framed := fun hfin => ?_, once := honce, ids := fun hfin => ids_perm (honce hfin) h.answers, sound := h.answers
      calls := h.calls, called := h.called, received := ⟨_, h.stream⟩, all := fun hfin hraised => ?_
      goesOn := fun hfin => ?_, ends := fun l hl => (work_step h hl).imp_left And.left }
  · have hfree : g.shared.writerHeld = false := by
      have hzero : g.threads.countP holdsWriter = 0 :=
        countP_eq_zero.mpr fun t ht => by simp [(idle_of_isDone (hdone hfin t ht)).2.1]
      rw [h.writer] at hzero
      exact Bool.toNat_eq_zero.mp hzero
    rw [h.free hfree]
    refine readsAs_flatMap fun frame hframe => ?_
    obtain ⟨a, ha, rfl⟩ := mem_map.mp hframe
    exact length_encodeBoundedTunnelResponse (h.id_lt (h.answers a ha)) _ _
  · have hnone := h.drained hraised fun t ht => (idle_of_isDone (hdone hfin t ht)).2.2
    rw [← h.stream, hnone, append_nil]
  · by_contra hstuck
    have hall : ∀ t ∈ g.threads, Waits g.shared t := by
      intro t ht
      obtain ⟨i, hi⟩ := getElem?_of_mem ht
      by_contra hwaits
      refine hstuck ⟨i, fun env henv => ?_⟩
      exact (work_step h (l := (i, env)) henv).resolve_left fun hidle => hwaits (hidle.2 t hi)
    have hfinished : g.finished = true := all_eq_true.mpr (h.not_all_wait hall)
    rw [hfinished] at hfin
    cases hfin

/-- Only a handler raises the flag. -/
theorem raised_step (hg : g.shared.raised = false) (hl : l.2.raises = false) :
    (step libs ending g l).shared.raised = false := by
  unfold step
  cases ht : g.threads[l.1]? with
  | none => exact hg
  | some t =>
    have hfail : ∀ (s : Shared) (role : Role) (e : String), (fail s role e).1.raised = s.raised := by
      intro s role e
      cases role <;> rfl
    dsimp only
    cases t with
    | handling => exact Bool.or_eq_false_iff.mpr ⟨hg, hl⟩
    | replying role a stage =>
      cases stage <;> simp only [move] <;> repeat' split
      all_goals first | exact hg | exact (hfail _ _ _).trans hg
    | _ =>
      simp only [move]
      repeat' split
      all_goals exact hg

end Runs

/-- **The gateway answers every request exactly once**: whatever comes in, whatever the handler does and whatever the order
    of the threads, as long as no write fails. -/
theorem serve_answers_once (libs : TunnelLibs) (ending : InputEnd) (input : Bytes) (moves : List (Nat × Env))
    (hwrites : ∀ l ∈ moves, l.2.fault = none) :
    Served libs ending input (Machine.run (step libs ending) (boot input) moves) ∧
    ((∀ l ∈ moves, l.2.raises = false) → (Machine.run (step libs ending) (boot input) moves).shared.raised = false) ∧
    (∀ frames : List StdioFrame, (∀ frame ∈ frames, frame.payload ≠ [] ∧ frame.payload.length ≤ maxPlaintextBytes) →
      ending = .eof → input = frames.flatMap frameBytes → allIncoming libs ending input = answerable libs frames) := by
  refine ⟨?_, fun hraises => ?_, ?_⟩
  · have hinv := Machine.invariant
      (fun (g : Server) l (hg : Inv libs ending input g.shared g.threads) hl => inv_step hg hl)
      inv_boot (Machine.along_of_forall hwrites _)
    exact hinv.served
  · exact Machine.invariant (fun (g : Server) l (hg : g.shared.raised = false) hl => raised_step hg hl) rfl
      (Machine.along_of_forall hraises _)
  · rintro frames hframes rfl rfl
    exact allIncoming_frames hframes

/-- Libraries that know one request. -/
def plainLibs : TunnelLibs where
  parseJson payload :=
    if payload = [49] then some (.obj [("id", .nat 7), ("method", .str "GET"), ("path", .str "/")]) else none
  unb64 _ := none

/-- All threads go through to their end, and the handler panics. -/
def plainMoves : List (Nat × Env) :=
  ([0, 0, 0, 0, 0, 0, 0, 1, 1, 1, 1, 1, 1, 1, 1, 1] ++ [2, 2, 3, 3, 4, 4, 5, 5, 6, 6, 7, 7, 8, 8]).map
    fun i => (i, ⟨.panicked, false, none⟩)

/-- One request, whose handler panics: its answer is all of the output. -/
theorem serve_answers_one_request : (∀ l ∈ plainMoves, l.2.fault = none) ∧
    (Machine.run (step plainLibs .eof) (boot (frameBytes ⟨1, [49]⟩)) plainMoves).finished = true ∧
    Served plainLibs .eof (frameBytes ⟨1, [49]⟩)
      (Machine.run (step plainLibs .eof) (boot (frameBytes ⟨1, [49]⟩)) plainMoves) := by
  have hwrites : ∀ l ∈ plainMoves, l.2.fault = none := by
    intro l hl
    obtain ⟨i, -, rfl⟩ := List.mem_map.mp hl
    rfl
  exact ⟨hwrites, by decide +kernel, (serve_answers_once plainLibs .eof _ plainMoves hwrites).1⟩

end Supercli.Gateway
