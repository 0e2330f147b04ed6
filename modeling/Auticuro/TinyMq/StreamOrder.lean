import Auticuro.TinyMq.WakeUps

namespace tiny_mq.raft_client

variable {D : Type}

namespace StreamBackEnd

variable {self next : StreamBackEnd D} {index : Nat} {gone : List (RaftMessage D)}

/-- The messages that a call has taken from the queue. -/
def buffered (self : StreamBackEnd D) : List (RaftMessage D) :=
  match self.phase with
  | .calling call => call.buffer.batch
  | _ => []

theorem buffered_of_calling {call : RaftCall D} (hphase : self.phase = .calling call) :
    self.buffered = call.buffer.batch := by
  unfold buffered
  rw [hphase]

/-- No call after the first has failed: the second may go on. -/
def AtMostOneFailed (self : StreamBackEnd D) : Prop :=
  self.retry_times ≤ 1 ∨ self.retry_times = 2 ∧ ∃ call, self.phase = .calling call

/-- The messages were handled in the order in which they were pushed: some are gone, and the
others are in the buffer of the call and in the queue. -/
structure InOrder (back_end : StreamBackEnd D) (gone : List (RaftMessage D)) : Prop where
  pushed : back_end.pushed = gone ++ back_end.buffered ++ back_end.queue.buf
  sent : back_end.sent.Sublist gone
  small : back_end.buffered.length ≤ 2
  room : ∀ call, back_end.phase = .calling call →
    call.point = .register ∨ call.point = .pop_again → ¬ call.buffer.full
  clearing : ∀ remaining, back_end.phase = .clearing remaining →
    remaining ≤ back_end.queue.buf.length ∧ 1 < back_end.retry_times
  alive : back_end.phase ≠ .panicked
  unstarted : back_end.retry_times = 0 → back_end.phase = .backoff ∧ gone = []
  first_call : ∀ call, back_end.phase = .calling call → back_end.retry_times ≤ 1 →
    back_end.sent = gone
  first_loss : back_end.AtMostOneFailed → gone.length ≤ back_end.sent.length + 2
  store : ∀ msg ∈ back_end.pushed, msg.to_store_id = back_end.store_id

namespace InOrder

variable {call : RaftCall D}

theorem new (store_id : Nat) : InOrder (.new store_id : StreamBackEnd D) [] where
  pushed := rfl
  sent := .slnil
  small := Nat.zero_le _
  room := by rintro call ⟨⟩
  clearing := by rintro remaining ⟨⟩
  alive := by rintro ⟨⟩
  unstarted := fun _ => ⟨rfl, rfl⟩
  first_call := by rintro call ⟨⟩
  first_loss := fun _ => Nat.zero_le _
  store := by rintro msg ⟨⟩

section

variable (horder : self.InOrder gone)
include horder

theorem of_calling (hphase : self.phase = .calling call) :
    self.pushed = gone ++ call.buffer.batch ++ self.queue.buf ∧ call.buffer.batch.length ≤ 2 := by
  rw [← buffered_of_calling hphase]
  exact ⟨horder.pushed, horder.small⟩

/-- A call that goes on. -/
theorem calling (hphase : self.phase = .calling call) (queue : Queue D) (after : RaftCall D)
    (more : List (RaftMessage D))
    (hpushed : self.pushed = gone ++ more ++ after.buffer.batch ++ queue.buf)
    (hsmall : after.buffer.batch.length ≤ 2)
    (hroom : after.point = .register ∨ after.point = .pop_again → ¬ after.buffer.full) :
    InOrder { self with queue := queue, phase := .calling after, sent := self.sent ++ more }
      (gone ++ more) where
  pushed := hpushed
  sent := horder.sent.append (List.Sublist.refl more)
  small := hsmall
  room := by
    rintro other ⟨⟩ hpoint
    exact hroom hpoint
  clearing := by rintro remaining ⟨⟩
  alive := by rintro ⟨⟩
  unstarted := by
    intro hzero
    cases hphase.symm.trans (horder.unstarted hzero).1
  first_call := fun _ _ hretry => congrArg (· ++ more) (horder.first_call call hphase hretry)
  first_loss := by
    rintro hfailed
    have hloss := horder.first_loss (hfailed.imp_right fun hsecond => ⟨hsecond.1, call, hphase⟩)
    rw [List.length_append, List.length_append]
    omega
  store := horder.store

/-- A call that goes on with the same buffer. -/
theorem same_buffer (hphase : self.phase = .calling call) {point : Point} {notified : Bool}
    {waker : Option Task} (hroom : point = .register ∨ point = .pop_again → ¬ call.buffer.full) :
    InOrder { self with
      queue := { self.queue with waker := waker }
      phase := .calling { call with point := point, notified := notified } } gone := by
  obtain ⟨hpushed, hsmall⟩ := horder.of_calling hphase
  simpa using horder.calling hphase { self.queue with waker := waker }
    { call with point := point, notified := notified } [] (by simpa using hpushed) hsmall hroom

variable {msg : RaftMessage D}

theorem pop {buf : List (RaftMessage D)} (hphase : self.phase = .calling call)
    (hfull : ¬ call.buffer.full) (hbuf : self.queue.buf = msg :: buf) :
    InOrder { self with
      queue := { self.queue with buf := buf }
      phase := .calling { call with buffer := call.buffer.push msg, point := .fill } } gone := by
  obtain ⟨hpushed, -⟩ := horder.of_calling hphase
  rw [hbuf] at hpushed
  have hsmall : (call.buffer.push msg).batch.length ≤ 2 := by
    unfold MessageBuffer.full at hfull
    rw [MessageBuffer.push, List.length_append, List.length_singleton]
    omega
  simpa using horder.calling hphase { self.queue with buf := buf }
    { call with buffer := call.buffer.push msg, point := .fill } []
    (by simpa [MessageBuffer.push] using hpushed) hsmall (by rintro (⟨⟨⟩⟩ | ⟨⟨⟩⟩))

theorem send {batch : List (RaftMessage D)} (hphase : self.phase = .calling call)
    (hbatch : call.buffer.batch = msg :: batch) :
    InOrder { self with
      phase := .calling { call with point := .fill, buffer := ⟨batch⟩ }
      sent := self.sent ++ [msg] } (gone ++ [msg]) := by
  obtain ⟨hpushed, hsmall⟩ := horder.of_calling hphase
  rw [hbatch] at hpushed hsmall
  exact horder.calling hphase _ _ [msg] (by simpa using hpushed) (Nat.le_of_succ_le hsmall)
    (by rintro (⟨⟨⟩⟩ | ⟨⟨⟩⟩))

/-- No call, while the loop of `start` is between two of them. -/
theorem between {queue : Queue D} {phase : Phase D} {later : List (RaftMessage D)}
    (hphase : ∀ call, phase ≠ .calling call) (halive : phase ≠ .panicked)
    (hpushed : self.pushed = later ++ queue.buf) (hsent : self.sent.Sublist later)
    (hclearing : ∀ remaining, phase = .clearing remaining →
      remaining ≤ queue.buf.length ∧ 1 < self.retry_times)
    (hunstarted : self.retry_times = 0 → phase = .backoff ∧ later = [])
    (hloss : self.retry_times ≤ 1 → later.length ≤ self.sent.length + 2) :
    InOrder { self with queue := queue, phase := phase } later := by
  have hbuffered : buffered { self with queue := queue, phase := phase } = [] := by
    unfold buffered
    split
    · next call hcall => exact absurd hcall (hphase call)
    · rfl
  constructor
  · rw [hbuffered, List.append_nil]
    exact hpushed
  · exact hsent
  · rw [hbuffered]
    exact Nat.zero_le _
  · exact fun call hcall => absurd hcall (hphase call)
  · exact hclearing
  · exact halive
  · exact hunstarted
  · exact fun call hcall => absurd hcall (hphase call)
  · rintro (hretry | ⟨-, call, hcall⟩)
    · exact hloss hretry
    · exact absurd hcall (hphase call)
  · exact horder.store

theorem close (hphase : self.phase = .calling call) (fallback : Bool) :
    (self.close fallback).InOrder (gone ++ call.buffer.batch) := by
  obtain ⟨hpushed, hsmall⟩ := horder.of_calling hphase
  refine horder.between (by rintro _ ⟨⟩) (by rintro ⟨⟩) hpushed
    (horder.sent.trans (List.sublist_append_left gone _)) (by rintro _ ⟨⟩) ?_ ?_
  · intro hzero
    cases hphase.symm.trans (horder.unstarted hzero).1
  · intro hfirst
    rw [List.length_append, horder.first_call call hphase hfirst]
    omega

theorem backoff (hbuffered : self.buffered = []) :
    InOrder { self with phase := .backoff } gone := by
  have hpushed := horder.pushed
  rw [hbuffered, List.append_nil] at hpushed
  exact horder.between (by rintro _ ⟨⟩) (by rintro ⟨⟩) hpushed horder.sent (by rintro _ ⟨⟩)
    (fun hzero => ⟨rfl, (horder.unstarted hzero).2⟩) fun hretry => horder.first_loss (.inl hretry)

theorem give_up (hbuffered : self.buffered = []) (hretry : 1 < self.retry_times) :
    InOrder { self with phase := .clearing self.queue.buf.length } gone := by
  have hpushed := horder.pushed
  rw [hbuffered, List.append_nil] at hpushed
  refine horder.between (by rintro _ ⟨⟩) (by rintro ⟨⟩) hpushed horder.sent ?_ (by omega) (by omega)
  rintro remaining ⟨⟩
  exact ⟨le_rfl, hretry⟩

theorem reconnect (hphase : self.phase = .backoff) :
    (self.reconnect index).InOrder gone where
  pushed := by
    have hpushed := horder.pushed
    unfold buffered at hpushed
    rw [hphase] at hpushed
    exact hpushed
  sent := horder.sent
  small := Nat.zero_le _
  room := by
    rintro call ⟨⟩ (⟨⟨⟩⟩ | ⟨⟨⟩⟩)
  clearing := by rintro remaining ⟨⟩
  alive := by rintro ⟨⟩
  unstarted := by
    intro hzero
    cases hzero
  first_call := by
    rintro call ⟨⟩ hfirst
    have hzero : self.retry_times = 0 := Nat.le_zero.mp (Nat.le_of_succ_le_succ hfirst)
    have hgone := (horder.unstarted hzero).2
    have hsent := horder.sent
    rw [hgone] at hsent ⊢
    exact List.sublist_nil.mp hsent
  first_loss := by
    rintro (hfirst | ⟨hsecond, -⟩)
    · exact horder.first_loss (.inl (Nat.le_of_succ_le hfirst))
    · exact horder.first_loss (.inl (Nat.succ.inj hsecond).le)
  store := horder.store

theorem clear {remaining : Nat} {buf : List (RaftMessage D)}
    (hphase : self.phase = .clearing (remaining + 1)) (hbuf : self.queue.buf = msg :: buf) :
    InOrder { self with queue := { self.queue with buf := buf }, phase := .clearing remaining }
      (gone ++ [msg]) := by
  have hpushed := horder.pushed
  unfold buffered at hpushed
  rw [hphase, hbuf] at hpushed
  obtain ⟨hclearing, hretry⟩ := horder.clearing _ hphase
  rw [hbuf] at hclearing
  refine horder.between (by rintro _ ⟨⟩) (by rintro ⟨⟩) (by simpa using hpushed)
    (horder.sent.trans (List.sublist_append_left gone _)) ?_ (by omega) (by omega)
  rintro left ⟨⟩
  exact ⟨Nat.le_of_succ_le_succ hclearing, hretry⟩

theorem step (hsteps : Steps self index next) : ∃ gone, next.InOrder gone := by
  cases hsteps with
  | reconnect hphase => exact ⟨gone, horder.reconnect hphase⟩
  | retry hphase | cleared hphase =>
    exact ⟨gone, horder.backoff (by unfold buffered; rw [hphase])⟩
  | give_up hphase hretry =>
    exact ⟨gone, horder.give_up (by unfold buffered; rw [hphase]) hretry⟩
  | clear hphase hbuf => exact ⟨_, horder.clear hphase hbuf⟩
  | starved hphase hbuf =>
    -- Only the back end pops, so there is at least what it counted.
    have hclearing := (horder.clearing _ hphase).1
    rw [hbuf] at hclearing
    cases hclearing
  | wake hphase =>
    exact ⟨gone, horder.same_buffer hphase fun hpoint => horder.room _ hphase hpoint⟩
  | poll hphase | full hphase | drained hphase | filled hphase | blocked hphase | flush hphase
  | wait hphase => exact ⟨gone, horder.same_buffer hphase (by rintro (⟨⟨⟩⟩ | ⟨⟨⟩⟩))⟩
  | pop hphase hpoint hbuf =>
    refine ⟨gone, horder.pop hphase ?_ hbuf⟩
    obtain ⟨-, hfull⟩ | hpoint := hpoint
    · exact hfull
    · exact horder.room _ hphase (.inr hpoint)
  | empty hphase _ hfull => exact ⟨gone, horder.same_buffer hphase fun _ => hfull⟩
  | register hphase hpoint =>
    exact ⟨gone, horder.same_buffer hphase fun _ => horder.room _ hphase (.inl hpoint)⟩
  | send hphase hbatch => exact ⟨_, horder.send hphase hbatch⟩
  | @nothing call hphase hbatch =>
    obtain ⟨task, ⟨batch⟩, point, notified⟩ := call
    cases hbatch
    exact ⟨gone, horder.same_buffer hphase (by rintro (⟨⟨⟩⟩ | ⟨⟨⟩⟩))⟩
  | close hphase fallback => exact ⟨_, horder.close hphase fallback⟩

/-- What the clients do to a back end. -/
theorem push (hpush : self.push msg = some next) (hstore : msg.to_store_id = self.store_id) :
    next.InOrder gone := by
  obtain ⟨queue, hqueue, rfl⟩ := Option.map_eq_some_iff.mp hpush
  unfold Queue.push at hqueue
  split at hqueue
  · cases hqueue
    exact {
      pushed := by
        change self.pushed ++ [msg] = gone ++ self.buffered ++ (self.queue.buf ++ [msg])
        rw [horder.pushed, List.append_assoc _ _ [msg]]
      sent := horder.sent
      small := horder.small
      room := horder.room
      clearing := by
        intro remaining hremaining
        obtain ⟨hle, hretry⟩ := horder.clearing remaining hremaining
        refine ⟨hle.trans ?_, hretry⟩
        simp
      alive := horder.alive
      unstarted := horder.unstarted
      first_call := horder.first_call
      first_loss := horder.first_loss
      store := by
        intro other hother
        obtain hmem | hmem := List.mem_append.mp hother
        · exact horder.store other hmem
        · rw [List.mem_singleton.mp hmem]
          exact hstore }
  · cases hqueue

theorem wake (task : Task) : (self.wake task).InOrder gone := by
  unfold StreamBackEnd.wake
  split
  · next call hphase =>
    split
    · exact horder.same_buffer hphase fun hpoint => horder.room _ hphase hpoint
    · exact horder
  · exact horder

theorem take :
    InOrder { self with queue := { self.queue with waker := none } } gone where
  pushed := horder.pushed
  sent := horder.sent
  small := horder.small
  room := horder.room
  clearing := horder.clearing
  alive := horder.alive
  unstarted := horder.unstarted
  first_call := horder.first_call
  first_loss := horder.first_loss
  store := horder.store

end

end InOrder

end StreamBackEnd

namespace Transport

variable {self next start last : Transport D}

def InOrder (transport : Transport D) : Prop :=
  ∀ back_end ∈ transport.pool.back_ends, ∃ gone, back_end.InOrder gone

theorem InOrder.set {pool : ConnectionPool D}
    (horder : ∀ back_end ∈ pool.back_ends, ∃ gone, back_end.InOrder gone) {queue : Nat}
    {after : StreamBackEnd D} (hafter : ∃ gone, after.InOrder gone) :
    ∀ back_end ∈ (pool.set queue after).back_ends, ∃ gone, back_end.InOrder gone := by
  intro back_end hmem
  obtain hmem | rfl := List.mem_or_eq_of_mem_set hmem
  · exact horder back_end hmem
  · exact hafter

theorem InOrder.advance (horder : self.InOrder) (hconsistent : self.Consistent)
    {client after : Client D} {pool : ConnectionPool D} (hclient : client ∈ self.clients)
    (hadvances : Client.Advances self.pool client after pool) :
    ∀ back_end ∈ pool.back_ends, ∃ gone, back_end.InOrder gone := by
  have hlater := hconsistent.clients client hclient
  cases hadvances with
  | push hpoint hcached hbefore hpush _ _ _ =>
    obtain ⟨gone, hgone⟩ := horder _ (List.mem_of_getElem? hbefore)
    refine InOrder.set horder ⟨gone, hgone.push hpush ?_⟩
    obtain ⟨found, hfound, hstore⟩ :=
      hconsistent.pool.back_end _ _ (hlater.shared _ _ hcached)
    cases hbefore.symm.trans hfound
    exact hstore.symm
  | @load msg _ _ _ _ _ _ _ =>
    intro back_end hmem
    unfold ConnectionPool.load at hmem
    split at hmem
    · exact horder back_end hmem
    · obtain hmem | hnew := List.mem_append.mp hmem
      · exact horder back_end hmem
      · rw [List.mem_singleton.mp hnew]
        exact ⟨[], .new _⟩
  | take _ hback_end _ =>
    obtain ⟨gone, hgone⟩ := horder _ (List.mem_of_getElem? hback_end)
    exact InOrder.set horder ⟨gone, hgone.take⟩
  | @wake task _ _ =>
    unfold ConnectionPool.wake
    split
    · next before hbefore =>
      obtain ⟨gone, hgone⟩ := horder _ (List.mem_of_getElem? hbefore)
      exact InOrder.set horder ⟨gone, hgone.wake task⟩
    · exact horder
  | _ => exact horder

theorem InOrder.step (horder : self.InOrder) (hconsistent : self.Consistent)
    (hsteps : Steps self next) : next.InOrder := by
  cases hsteps with
  | stream hbefore hstep =>
    obtain ⟨gone, hgone⟩ := horder _ (List.mem_of_getElem? hbefore)
    exact InOrder.set horder (hgone.step (StreamBackEnd.steps hstep))
  | advance hclient hadvance =>
    have hmem := List.mem_of_getElem? hclient
    exact horder.advance hconsistent hmem ((hconsistent.clients _ hmem).advances hadvance)
  | _ => exact horder

theorem InOrder.run (hstart : Transport.new = some start) {actions : List (TransportStep D)}
    (hrun : Run.run Transport.step start actions = some last) : last.InOrder := by
  have hinit : start.InOrder := by
    unfold Transport.new at hstart
    obtain ⟨client, -, hnext⟩ := Option.bind_eq_some_iff.mp hstart
    cases hnext
    rintro back_end ⟨⟩
  exact (consistent_new hstart).run_keeps (fun _ _ => InOrder.step) hinit hrun

/-- Whatever the clients and gRPC do, the messages that a stream has sent are some of those
that the clients pushed, in their order and each at most once, and all are for the store of
the stream. A message that is neither sent nor waiting was lost with a call or dropped by
`clear_pending_message`, which never finds the queue empty: while the first call lives
none is, and before a later call has failed at most two are. -/
theorem streams_keep_the_order (hstart : Transport.new = some start)
    {actions : List (TransportStep D)}
    (hrun : Run.run Transport.step start actions = some last) {back_end : StreamBackEnd D}
    (hback_end : back_end ∈ last.pool.back_ends) :
    back_end.phase ≠ .panicked ∧ back_end.buffered.length ≤ 2 ∧
    (∀ msg ∈ back_end.pushed, msg.to_store_id = back_end.store_id) ∧
    ∃ gone, back_end.pushed = gone ++ back_end.buffered ++ back_end.queue.buf ∧
      back_end.sent.Sublist gone ∧
      (back_end.retry_times ≤ 1 → ∀ call, back_end.phase = .calling call →
        back_end.sent = gone) ∧
      (back_end.retry_times ≤ 1 ∨
          back_end.retry_times = 2 ∧ (∃ call, back_end.phase = .calling call) →
        gone.length ≤ back_end.sent.length + 2) := by
  obtain ⟨gone, horder⟩ := InOrder.run hstart hrun back_end hback_end
  refine ⟨horder.alive, horder.small, horder.store, gone, horder.pushed, horder.sent, ?_,
    horder.first_loss⟩
  intro hfirst call hcall
  exact horder.first_call call hcall hfirst

/-- A message is in the buffer of the first call when the call ends; the second call begins. -/
def abortedCall : List (TransportStep Unit) :=
  [.send 0 ⟨1, ()⟩, .advance 0, .advance 0, .stream 0 .reconnect, .stream 0 .poll, .stream 0 .fill,
    .stream 0 .fill, .stream 0 .register, .stream 0 .pop_again,
    .stream 0 (.poll_ready (.Ready (.error .Other)) (.ok ()) none), .stream 0 .finish,
    .stream 0 .reconnect]

theorem streams_keep_the_order_of_aborted_call :
    ∃ start last : Transport Unit, ∃ back_end,
      Transport.new = some start ∧ Run.run Transport.step start abortedCall = some last ∧
      last.pool.back_ends[0]? = some back_end ∧ back_end.pushed = [⟨1, ()⟩] ∧
      back_end.retry_times = 2 ∧ back_end.sent = [] ∧ back_end.queue.buf = [] ∧
      ∃ gone, back_end.pushed = gone ++ back_end.buffered ++ back_end.queue.buf ∧
        gone.length ≤ back_end.sent.length + 2 := by
  have hstart : Transport.new = some (Transport.new.get rfl : Transport Unit) :=
    (Option.some_get rfl).symm
  have hrun : Run.run Transport.step (Transport.new.get rfl) abortedCall =
      some ((Run.run Transport.step (Transport.new.get rfl) abortedCall).get rfl) :=
    (Option.some_get rfl).symm
  obtain ⟨-, -, -, gone, hpushed, -, -, hloss⟩ :=
    streams_keep_the_order hstart hrun (List.mem_of_getElem? (i := 0) rfl)
  exact ⟨_, _, ⟨1, ⟨819200, [], some ⟨0, 1⟩⟩, 2, .calling ⟨⟨0, 2⟩, .new, .idle, true⟩, [⟨1, ()⟩],
    []⟩, hstart, hrun, rfl, rfl, rfl, rfl, rfl, gone, hpushed, hloss (.inr ⟨rfl, _, rfl⟩)⟩

end Transport

end tiny_mq.raft_client
