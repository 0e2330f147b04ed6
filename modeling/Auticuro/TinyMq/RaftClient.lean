import Auticuro.TikvUtil.Lru

/-! The streams that carry the raft messages to the other stores. A queue is shared by
the clients, which push, and the back end of its connection, which is the only one to pop.
The functions are cut where another thread may act in between. -/

open tikv_util.lru

namespace tiny_mq.raft_client

variable {D : Type}

structure RaftMessage (D : Type) where
  to_store_id : Nat
  data : D

/-- The call that the back end of a connection made at its n-th attempt. -/
structure Task where
  connection : Nat
  attempt : Nat
deriving DecidableEq

structure Queue (D : Type) where
  cap : Nat
  buf : List (RaftMessage D)
  waker : Option Task

namespace Queue

def with_capacity (cap : Nat) : Queue D := ⟨cap, [], none⟩

/-- `none` when the queue is full. -/
def push (self : Queue D) (msg : RaftMessage D) : Option (Queue D) :=
  if self.buf.length < self.cap then some { self with buf := self.buf ++ [msg] } else none

def len (self : Queue D) : Nat := self.buf.length

def try_pop (self : Queue D) : Option (RaftMessage D × Queue D) :=
  match self.buf with
  | [] => none
  | msg :: buf => some (msg, { self with buf := buf })

end Queue

structure MessageBuffer (D : Type) where
  batch : List (RaftMessage D)

namespace MessageBuffer

def new : MessageBuffer D := ⟨[]⟩

def full (self : MessageBuffer D) : Prop := 2 ≤ self.batch.length

instance (self : MessageBuffer D) : Decidable self.full := inferInstanceAs (Decidable (_ ≤ _))

def push (self : MessageBuffer D) (msg : RaftMessage D) : MessageBuffer D :=
  ⟨self.batch ++ [msg]⟩

def empty (self : MessageBuffer D) : Bool := self.batch.isEmpty

/-- The message that goes to gRPC. -/
def flush (self : MessageBuffer D) : Option (RaftMessage D) × MessageBuffer D :=
  (self.batch.head?, ⟨self.batch.tail⟩)

end MessageBuffer

inductive GrpcError where
  | RpcFailure (code : Nat)
  | Other
deriving DecidableEq

/-- The status code `UNIMPLEMENTED`. -/
def unimplemented : Nat := 12

def grpc_error_is_unimplemented : GrpcError → Bool
  | .RpcFailure code => code = unimplemented
  | .Other => false

inductive Poll (A : Type) where
  | Ready (value : A)
  | Pending
deriving DecidableEq

/-- Where a call is in its `poll`: `idle` between two polls; at the head of the loop of
`fill_msg`; in `Queue::pop`, before it registers its waker and before it looks again;
before `poll_ready`, `poll_flush` and the `poll` of the receiver. -/
inductive Point where
  | idle
  | fill
  | register
  | pop_again
  | send
  | flush
  | receive
deriving DecidableEq

structure RaftCall (D : Type) where
  task : Task
  buffer : MessageBuffer D
  point : Point
  /-- The task was woken, and is to be polled again. -/
  notified : Bool

/-- What the receiver of `lifetime` gets: `true` when the call asks for a fallback. -/
def clean_up (sink_err recv_err : Option GrpcError) : Bool :=
  [sink_err, recv_err].any fun err => (err.map grpc_error_is_unimplemented).getD false

/-- Where the loop of `start` is: it waits before the next attempt, for the end of the
call, or has got the answer of the call; it drops so many more messages. -/
inductive Phase (D : Type) where
  | backoff
  | calling (call : RaftCall D)
  | ended (fallback : Bool)
  | clearing (remaining : Nat)
  | panicked

/-- A connection of the pool with its back end, and what went in and out so far. -/
structure StreamBackEnd (D : Type) where
  store_id : Nat
  queue : Queue D
  retry_times : Nat
  phase : Phase D
  pushed : List (RaftMessage D)
  sent : List (RaftMessage D)

/-- A step of the thread of the streams. What gRPC answers is a part of the step. -/
inductive StreamStep where
  | reconnect
  | wake
  | poll
  | fill
  | register
  | pop_again
  | poll_ready (ready : Poll (Except GrpcError Unit)) (start_send : Except GrpcError Unit)
      (recv_err : Option GrpcError)
  | poll_flush (flushed : Poll (Except GrpcError Unit)) (recv_err : Option GrpcError)
  | receive (received : Poll (Except GrpcError Unit))
  | finish
  | clear_pending_message

namespace StreamBackEnd

def raft_client_queue_size : Nat := 819200

def new (store_id : Nat) : StreamBackEnd D where
  store_id := store_id
  queue := .with_capacity raft_client_queue_size
  retry_times := 0
  phase := .backoff
  pushed := []
  sent := []

def push (self : StreamBackEnd D) (msg : RaftMessage D) : Option (StreamBackEnd D) :=
  (self.queue.push msg).map fun queue =>
    { self with queue := queue, pushed := self.pushed ++ [msg] }

/-- A wake-up has no effect on a call that has ended. -/
def wake (self : StreamBackEnd D) (task : Task) : StreamBackEnd D :=
  match self.phase with
  | .calling call =>
    if call.task = task then { self with phase := .calling { call with notified := true } }
    else self
  | _ => self

/-- One round of the loop of `fill_msg`, up to the first `pop`. -/
def fill (self : StreamBackEnd D) (call : RaftCall D) : StreamBackEnd D :=
  if call.buffer.full then
    { self with phase := .calling { call with point := .send } }
  else
    match self.queue.try_pop with
    | some (msg, queue) =>
      { self with
        queue := queue, phase := .calling { call with buffer := call.buffer.push msg } }
    | none => { self with phase := .calling { call with point := .register } }

/-- The second `pop`: after it the waker is registered. -/
def pop_again (self : StreamBackEnd D) (call : RaftCall D) : StreamBackEnd D :=
  match self.queue.try_pop with
  | some (msg, queue) =>
    { self with
      queue := queue
      phase := .calling { call with buffer := call.buffer.push msg, point := .fill } }
  | none =>
    if call.buffer.empty then { self with phase := .calling { call with point := .flush } }
    else { self with phase := .calling { call with point := .send } }

/-- The call returns for good, and its buffer is dropped. -/
def close (self : StreamBackEnd D) (fallback : Bool) : StreamBackEnd D :=
  { self with phase := .ended fallback }

def send (self : StreamBackEnd D) (call : RaftCall D) (ready : Poll (Except GrpcError Unit))
    (start_send : Except GrpcError Unit) (recv_err : Option GrpcError) : StreamBackEnd D :=
  match ready with
  | .Pending => { self with phase := .calling { call with point := .idle } }
  | .Ready (.error err) => self.close (clean_up (some err) recv_err)
  | .Ready (.ok ()) =>
    let (msg, buffer) := call.buffer.flush
    match msg, start_send with
    | none, _ => { self with phase := .calling { call with point := .fill, buffer := buffer } }
    | some msg, .ok () =>
      { self with
        phase := .calling { call with point := .fill, buffer := buffer }
        sent := self.sent ++ [msg] }
    | some _, .error err => self.close (clean_up (some err) recv_err)

def flush (self : StreamBackEnd D) (call : RaftCall D) (flushed : Poll (Except GrpcError Unit))
    (recv_err : Option GrpcError) : StreamBackEnd D :=
  match flushed with
  | .Ready (.error err) => self.close (clean_up (some err) recv_err)
  | _ => { self with phase := .calling { call with point := .receive } }

def receive (self : StreamBackEnd D) (call : RaftCall D)
    (received : Poll (Except GrpcError Unit)) : StreamBackEnd D :=
  match received with
  | .Pending => { self with phase := .calling { call with point := .idle } }
  | .Ready (.ok ()) => self.close false
  | .Ready (.error err) => self.close (clean_up none (some err))

/-- A round of `start` up to the end of `call`: the new call is polled when it is spawned. -/
def reconnect (self : StreamBackEnd D) (connection : Nat) : StreamBackEnd D :=
  { self with
    retry_times := self.retry_times + 1
    phase := .calling ⟨⟨connection, self.retry_times + 1⟩, .new, .idle, true⟩ }

/-- The rest of the round. -/
def finish (self : StreamBackEnd D) (fallback : Bool) : StreamBackEnd D :=
  if !fallback ∧ 1 < self.retry_times then
    { self with phase := .clearing self.queue.len }
  else
    { self with phase := .backoff }

def clear_pending_message (self : StreamBackEnd D) : Nat → StreamBackEnd D
  | 0 => { self with phase := .backoff }
  | remaining + 1 =>
    match self.queue.try_pop with
    | some (_, queue) => { self with queue := queue, phase := .clearing remaining }
    | none => { self with phase := .panicked }

def call (self : StreamBackEnd D) : Option (RaftCall D) :=
  match self.phase with
  | .calling call => some call
  | _ => none

/-- The call when it is at a point. -/
def call_at (self : StreamBackEnd D) (point : Point) : Option (RaftCall D) :=
  self.call.filter fun call => call.point = point

/-- `none` where the step is not the next one. -/
def step (self : StreamBackEnd D) (connection : Nat) : StreamStep → Option (StreamBackEnd D)
  | .reconnect =>
    match self.phase with
    | .backoff => some (self.reconnect connection)
    | _ => none
  | .finish =>
    match self.phase with
    | .ended fallback => some (self.finish fallback)
    | _ => none
  | .clear_pending_message =>
    match self.phase with
    | .clearing remaining => some (self.clear_pending_message remaining)
    | _ => none
  | .wake => self.call.map fun call => self.wake call.task
  | .poll => ((self.call_at .idle).filter RaftCall.notified).map fun call =>
    { self with phase := .calling { call with point := .fill, notified := false } }
  | .fill => (self.call_at .fill).map self.fill
  | .register => (self.call_at .register).map fun call =>
    { self with
      queue := { self.queue with waker := some call.task }
      phase := .calling { call with point := .pop_again } }
  | .pop_again => (self.call_at .pop_again).map self.pop_again
  | .poll_ready ready start_send recv_err =>
    (self.call_at .send).map fun call => self.send call ready start_send recv_err
  | .poll_flush flushed recv_err =>
    (self.call_at .flush).map fun call => self.flush call flushed recv_err
  | .receive received => (self.call_at .receive).map fun call => self.receive call received

/-- What a step of the thread of the streams can be. -/
inductive Steps (self : StreamBackEnd D) (connection : Nat) : StreamBackEnd D → Prop where
  | reconnect (hphase : self.phase = .backoff) : Steps self connection (self.reconnect connection)
  | retry {fallback : Bool} (hphase : self.phase = .ended fallback) :
      Steps self connection { self with phase := .backoff }
  | give_up (hphase : self.phase = .ended false) (hretry : 1 < self.retry_times) :
      Steps self connection { self with phase := .clearing self.queue.buf.length }
  | cleared (hphase : self.phase = .clearing 0) :
      Steps self connection { self with phase := .backoff }
  | clear {remaining : Nat} {msg : RaftMessage D} {buf : List (RaftMessage D)}
      (hphase : self.phase = .clearing (remaining + 1)) (hbuf : self.queue.buf = msg :: buf) :
      Steps self connection
        { self with queue := { self.queue with buf := buf }, phase := .clearing remaining }
  | starved {remaining : Nat} (hphase : self.phase = .clearing (remaining + 1))
      (hbuf : self.queue.buf = []) : Steps self connection { self with phase := .panicked }
  | wake {call : RaftCall D} (hphase : self.phase = .calling call) :
      Steps self connection { self with phase := .calling { call with notified := true } }
  | poll {call : RaftCall D} (hphase : self.phase = .calling call) (hpoint : call.point = .idle) :
      Steps self connection
        { self with phase := .calling { call with point := .fill, notified := false } }
  | full {call : RaftCall D} (hphase : self.phase = .calling call) (hpoint : call.point = .fill)
      (hfull : call.buffer.full) :
      Steps self connection { self with phase := .calling { call with point := .send } }
  | pop {call : RaftCall D} {msg : RaftMessage D} {buf : List (RaftMessage D)}
      (hphase : self.phase = .calling call)
      (hpoint : call.point = .fill ∧ ¬ call.buffer.full ∨ call.point = .pop_again)
      (hbuf : self.queue.buf = msg :: buf) :
      Steps self connection { self with
        queue := { self.queue with buf := buf }
        phase := .calling { call with buffer := call.buffer.push msg, point := .fill } }
  | empty {call : RaftCall D} (hphase : self.phase = .calling call) (hpoint : call.point = .fill)
      (hfull : ¬ call.buffer.full) :
      Steps self connection { self with phase := .calling { call with point := .register } }
  | register {call : RaftCall D} (hphase : self.phase = .calling call)
      (hpoint : call.point = .register) :
      Steps self connection { self with
        queue := { self.queue with waker := some call.task }
        phase := .calling { call with point := .pop_again } }
  | drained {call : RaftCall D} (hphase : self.phase = .calling call)
      (hpoint : call.point = .pop_again) (hbuf : self.queue.buf = [])
      (hbatch : call.buffer.batch = []) :
      Steps self connection { self with phase := .calling { call with point := .flush } }
  | filled {call : RaftCall D} (hphase : self.phase = .calling call)
      (hpoint : call.point = .pop_again) (hbatch : call.buffer.batch ≠ []) :
      Steps self connection { self with phase := .calling { call with point := .send } }
  | blocked {call : RaftCall D} (hphase : self.phase = .calling call)
      (hpoint : call.point = .send) :
      Steps self connection { self with phase := .calling { call with point := .idle } }
  | send {call : RaftCall D} {msg : RaftMessage D} {batch : List (RaftMessage D)}
      (hphase : self.phase = .calling call) (hbatch : call.buffer.batch = msg :: batch) :
      Steps self connection { self with
        phase := .calling { call with point := .fill, buffer := ⟨batch⟩ }
        sent := self.sent ++ [msg] }
  | nothing {call : RaftCall D} (hphase : self.phase = .calling call)
      (hbatch : call.buffer.batch = []) :
      Steps self connection
        { self with phase := .calling { call with point := .fill, buffer := ⟨[]⟩ } }
  | flush {call : RaftCall D} (hphase : self.phase = .calling call) (hpoint : call.point = .flush) :
      Steps self connection { self with phase := .calling { call with point := .receive } }
  | wait {call : RaftCall D} (hphase : self.phase = .calling call)
      (hpoint : call.point = .receive) :
      Steps self connection { self with phase := .calling { call with point := .idle } }
  | close {call : RaftCall D} (hphase : self.phase = .calling call) (fallback : Bool) :
      Steps self connection (self.close fallback)

section Inversion

variable {self next : StreamBackEnd D} {connection : Nat} {call : RaftCall D}

section

variable (hphase : self.phase = .calling call)
include hphase

theorem steps_fill (hpoint : call.point = .fill) : Steps self connection (self.fill call) := by
  unfold fill Queue.try_pop
  split
  · next hfull => exact .full hphase hpoint hfull
  · next hfull =>
    cases hbuf : self.queue.buf with
    | nil => exact .empty hphase hpoint hfull
    | cons msg buf =>
      have hstep : Steps self connection _ := .pop hphase (.inl ⟨hpoint, hfull⟩) hbuf
      rw [← hpoint] at hstep
      exact hstep

theorem steps_pop_again (hpoint : call.point = .pop_again) :
    Steps self connection (self.pop_again call) := by
  unfold pop_again Queue.try_pop
  cases hbuf : self.queue.buf with
  | cons msg buf => exact .pop hphase (.inr hpoint) hbuf
  | nil =>
    dsimp only
    split
    · next hempty => exact .drained hphase hpoint hbuf (List.isEmpty_iff.mp hempty)
    · next hbatch => exact .filled hphase hpoint fun hnil => hbatch (List.isEmpty_iff.mpr hnil)

theorem steps_send (hpoint : call.point = .send) (ready : Poll (Except GrpcError Unit))
    (start_send : Except GrpcError Unit) (recv_err : Option GrpcError) :
    Steps self connection (self.send call ready start_send recv_err) := by
  unfold send
  split
  · exact .blocked hphase hpoint
  · exact .close hphase _
  · unfold MessageBuffer.flush
    cases hbatch : call.buffer.batch with
    | nil => exact .nothing hphase hbatch
    | cons msg batch =>
      cases start_send with
      | ok value => exact .send hphase hbatch
      | error err => exact .close hphase _

theorem steps_flush (hpoint : call.point = .flush) (flushed : Poll (Except GrpcError Unit))
    (recv_err : Option GrpcError) : Steps self connection (self.flush call flushed recv_err) := by
  unfold flush
  split
  · exact .close hphase _
  · exact .flush hphase hpoint

theorem steps_receive (hpoint : call.point = .receive) (received : Poll (Except GrpcError Unit)) :
    Steps self connection (self.receive call received) := by
  unfold receive
  split
  · exact .wait hphase hpoint
  · exact .close hphase _
  · exact .close hphase _

end

theorem steps_finish {fallback : Bool} (hphase : self.phase = .ended fallback) :
    Steps self connection (self.finish fallback) := by
  unfold finish
  split
  · next hclear =>
    cases fallback with
    | false => exact .give_up hphase hclear.2
    | true => cases hclear.1
  · exact .retry hphase

theorem steps_clear {remaining : Nat} (hphase : self.phase = .clearing remaining) :
    Steps self connection (self.clear_pending_message remaining) := by
  cases remaining with
  | zero => exact .cleared hphase
  | succ remaining =>
    rw [clear_pending_message]
    unfold Queue.try_pop
    cases hbuf : self.queue.buf with
    | nil => exact .starved hphase hbuf
    | cons msg buf => exact .clear hphase hbuf

theorem wake_of_calling (hphase : self.phase = .calling call) :
    self.wake call.task = { self with phase := .calling { call with notified := true } } := by
  unfold wake
  rw [hphase]
  exact if_pos rfl

theorem phase_of_call (hcall : self.call = some call) : self.phase = .calling call := by
  unfold StreamBackEnd.call at hcall
  split at hcall
  · next hphase =>
    cases hcall
    exact hphase
  · cases hcall

theorem of_call_at {point : Point} (hcall : self.call_at point = some call) :
    self.phase = .calling call ∧ call.point = point := by
  obtain ⟨hcall, hpoint⟩ := Option.filter_eq_some_iff.mp hcall
  exact ⟨phase_of_call hcall, of_decide_eq_true hpoint⟩

/-- A step of the call at a point. -/
theorem steps_at {point : Point} {f : RaftCall D → StreamBackEnd D}
    (hf : ∀ call, self.phase = .calling call → call.point = point → Steps self connection (f call))
    (hstep : (self.call_at point).map f = some next) : Steps self connection next := by
  obtain ⟨call, hcall, rfl⟩ := Option.map_eq_some_iff.mp hstep
  obtain ⟨hphase, hpoint⟩ := of_call_at hcall
  exact hf call hphase hpoint

theorem steps {action : StreamStep} (hstep : self.step connection action = some next) :
    Steps self connection next := by
  cases action with
  | reconnect =>
    unfold step at hstep
    dsimp only at hstep
    split at hstep
    · next hphase =>
      cases hstep
      exact .reconnect hphase
    · cases hstep
  | finish =>
    unfold step at hstep
    dsimp only at hstep
    split at hstep
    · next hphase =>
      cases hstep
      exact steps_finish hphase
    · cases hstep
  | clear_pending_message =>
    unfold step at hstep
    dsimp only at hstep
    split at hstep
    · next hphase =>
      cases hstep
      exact steps_clear hphase
    · cases hstep
  | wake =>
    obtain ⟨call, hcall, rfl⟩ := Option.map_eq_some_iff.mp hstep
    have hphase := phase_of_call hcall
    rw [wake_of_calling hphase]
    exact .wake hphase
  | poll =>
    obtain ⟨call, hcall, rfl⟩ := Option.map_eq_some_iff.mp hstep
    obtain ⟨hphase, hpoint⟩ := of_call_at (Option.filter_eq_some_iff.mp hcall).1
    exact .poll hphase hpoint
  | fill => exact steps_at (fun _ => steps_fill) hstep
  | register => exact steps_at (fun _ => .register) hstep
  | pop_again => exact steps_at (fun _ => steps_pop_again) hstep
  | poll_ready ready start_send recv_err =>
    exact steps_at (fun _ hphase hpoint => steps_send hphase hpoint ready start_send recv_err) hstep
  | poll_flush flushed recv_err =>
    exact steps_at (fun _ hphase hpoint => steps_flush hphase hpoint flushed recv_err) hstep
  | receive received =>
    exact steps_at (fun _ hphase hpoint => steps_receive hphase hpoint received) hstep

end Inversion

end StreamBackEnd

/-- The pool: the connections by their keys, at the places where they were spawned. -/
structure ConnectionPool (D : Type) where
  connections : Finmap fun _ : Nat × Nat => Nat
  back_ends : List (StreamBackEnd D)

structure CachedQueue where
  queue : Nat
  dirty : Bool
deriving DecidableEq

structure RaftClient where
  cache : LruCache (Nat × Nat) CachedQueue CountTracker
  need_flush : List (Nat × Nat)

namespace ConnectionPool

/-- The `or_insert_with` of `load_stream`. -/
def load (self : ConnectionPool D) (key : Nat × Nat) : Nat × ConnectionPool D :=
  match self.connections.lookup key with
  | some queue => (queue, self)
  | none =>
    (self.back_ends.length,
      ⟨self.connections.insert key self.back_ends.length, self.back_ends ++ [.new key.1]⟩)

def len (self : ConnectionPool D) : Nat := self.connections.keys.card

end ConnectionPool

namespace RaftClient

/-- The result is `none` where the cache has no answer. -/
def new : Option RaftClient := do
  let cache ← LruCache.with_capacity_and_sample 0 7
  return ⟨cache, []⟩

def load_stream (self : RaftClient) (pool : ConnectionPool D) (key : Nat × Nat) :
    Option (RaftClient × ConnectionPool D) := do
  let (queue, pool) := pool.load key
  let cache ← self.cache.resize pool.len
  let cache ← cache.insert key ⟨queue, false⟩
  return ({ self with cache := cache }, pool)

/-- What a round of the loop of `send` does with the cache: the queue to push to. -/
def mark_dirty (self : RaftClient) (key : Nat × Nat) : Option (RaftClient × Option Nat) := do
  let (cache, cached) ← self.cache.get_mut key fun cached => { cached with dirty := true }
  match cached with
  | some cached =>
    return (⟨cache, if cached.dirty then self.need_flush else self.need_flush ++ [key]⟩,
      some cached.queue)
  | none => return (⟨cache, self.need_flush⟩, none)

/-- What a round of the loop of `flush` does with the cache: the queue to notify, or
`none` where the key is not cached. -/
def clear_dirty (self : RaftClient) (key : Nat × Nat) :
    Option (RaftClient × Option (Option Nat)) := do
  let (cache, cached) ← self.cache.get_mut key fun cached => { cached with dirty := false }
  return ({ self with cache := cache },
    cached.map fun cached => if cached.dirty then some cached.queue else none)

end RaftClient

end tiny_mq.raft_client
