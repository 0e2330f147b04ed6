import Auticuro.TikvUtil.LruRefinement
import Auticuro.TinyMq.RaftClient

open tikv_util.lru

namespace tiny_mq.raft_client

variable {D : Type}

inductive Panic where
  | queue_full
  | cache
deriving DecidableEq

/-- Where the thread of a client is: in a round of the loop of `send`, in the loop of
`flush` with the ids that are left, or in `notify` before it looks whether the queue is
empty, before it takes the waker, and before it wakes the task. -/
inductive ClientPoint (D : Type) where
  | idle
  | sending (msg : RaftMessage D) (rounds : Nat)
  | flushing (ids : List (Nat × Nat))
  | notifying (queue : Nat) (ids : List (Nat × Nat))
  | taking (queue : Nat) (ids : List (Nat × Nat))
  | waking (task : Task) (ids : List (Nat × Nat))
  | panicked (reason : Panic)

structure Client (D : Type) where
  client : RaftClient
  point : ClientPoint D

/-- The clients of a node with the pool that they share. -/
structure Transport (D : Type) where
  pool : ConnectionPool D
  clients : List (Client D)

inductive TransportStep (D : Type) where
  | stream (connection : Nat) (step : StreamStep)
  | clone (client : Nat)
  | send (client : Nat) (msg : RaftMessage D)
  | flush (client : Nat)
  | advance (client : Nat)

namespace ConnectionPool

def set (self : ConnectionPool D) (queue : Nat) (back_end : StreamBackEnd D) :
    ConnectionPool D :=
  { self with back_ends := self.back_ends.set queue back_end }

def wake (self : ConnectionPool D) (task : Task) : ConnectionPool D :=
  match self.back_ends[task.connection]? with
  | some back_end => self.set task.connection (back_end.wake task)
  | none => self

end ConnectionPool

namespace Client

def start_flush (self : Client D) : Client D :=
  if self.client.need_flush.isEmpty then self
  else { self with point := .flushing self.client.need_flush }

/-- A round of the loop of `send`. -/
def send_round (self : Client D) (pool : ConnectionPool D) (msg : RaftMessage D) (rounds : Nat) :
    Option (Client D × ConnectionPool D) :=
  let key := (msg.to_store_id, 0)
  match self.client.mark_dirty key with
  | none => some ({ self with point := .panicked .cache }, pool)
  | some (client, some queue) =>
    match pool.back_ends[queue]? with
    | none => none
    | some back_end =>
      match back_end.push msg with
      | none => some ({ self with point := .panicked .queue_full }, pool)
      | some back_end => some (⟨client, .idle⟩, pool.set queue back_end)
  | some (client, none) =>
    match client.load_stream pool key with
    | none => some ({ self with point := .panicked .cache }, pool)
    | some (client, pool) => some (⟨client, .sending msg (rounds + 1)⟩, pool)

/-- A round of the loop of `flush`, up to `notify`. -/
def flush_round (self : Client D) (pool : ConnectionPool D) (id : Nat × Nat)
    (ids : List (Nat × Nat)) : Client D :=
  match self.client.clear_dirty id with
  | none => { self with point := .panicked .cache }
  | some (client, some (some queue)) => ⟨client, .notifying queue ids⟩
  | some (client, some none) => ⟨client, .flushing ids⟩
  | some (client, none) =>
    match pool.connections.lookup id with
    | some queue => ⟨client, .notifying queue ids⟩
    | none => ⟨client, .flushing ids⟩

/-- The next step of the thread of a client. -/
def advance (self : Client D) (pool : ConnectionPool D) :
    Option (Client D × ConnectionPool D) :=
  match self.point with
  | .idle => none
  | .panicked _ => none
  | .sending msg rounds => self.send_round pool msg rounds
  | .flushing [] => some (⟨{ self.client with need_flush := [] }, .idle⟩, pool)
  | .flushing (id :: ids) => some (self.flush_round pool id ids, pool)
  | .notifying queue ids =>
    pool.back_ends[queue]?.map fun back_end =>
      if back_end.queue.buf.isEmpty then ({ self with point := .flushing ids }, pool)
      else ({ self with point := .taking queue ids }, pool)
  | .taking queue ids =>
    pool.back_ends[queue]?.map fun back_end =>
      match back_end.queue.waker with
      | none => ({ self with point := .flushing ids }, pool)
      | some task => ({ self with point := .waking task ids },
          pool.set queue { back_end with queue := { back_end.queue with waker := none } })
  | .waking task ids => some ({ self with point := .flushing ids }, pool.wake task)

end Client

namespace Transport

def new : Option (Transport D) := do
  let client ← RaftClient.new
  return ⟨⟨∅, []⟩, [⟨client, .idle⟩]⟩

/-- `none` where the step is not the next one. -/
def step (self : Transport D) : TransportStep D → Option (Transport D)
  | .stream connection step => do
    let back_end ← self.pool.back_ends[connection]?
    let back_end ← back_end.step connection step
    return { self with pool := self.pool.set connection back_end }
  | .clone client => do
    let _ ← self.clients[client]?
    let client ← RaftClient.new
    return { self with clients := self.clients ++ [⟨client, .idle⟩] }
  | .send index msg => do
    let client ← self.clients[index]?
    match client.point with
    | .idle => some { self with
        clients := self.clients.set index { client with point := .sending msg 0 } }
    | _ => none
  | .flush index => do
    let client ← self.clients[index]?
    match client.point with
    | .idle => some { self with clients := self.clients.set index client.start_flush }
    | _ => none
  | .advance index => do
    let client ← self.clients[index]?
    let (client, pool) ← client.advance self.pool
    return ⟨pool, self.clients.set index client⟩

/-- What a step of the transport can be. -/
inductive Steps (self : Transport D) : Transport D → Prop where
  | stream {connection : Nat} {step : StreamStep} {before after : StreamBackEnd D}
      (hbefore : self.pool.back_ends[connection]? = some before)
      (hstep : before.step connection step = some after) :
      Steps self { self with pool := self.pool.set connection after }
  | clone {client : RaftClient} (hclient : RaftClient.new = some client) :
      Steps self { self with clients := self.clients ++ [⟨client, .idle⟩] }
  | send {index : Nat} {client : Client D} (hclient : self.clients[index]? = some client)
      (hidle : client.point = .idle) (msg : RaftMessage D) :
      Steps self { self with
        clients := self.clients.set index { client with point := .sending msg 0 } }
  | flush {index : Nat} {client : Client D} (hclient : self.clients[index]? = some client)
      (hidle : client.point = .idle) :
      Steps self { self with clients := self.clients.set index client.start_flush }
  | advance {index : Nat} {client next : Client D} {pool : ConnectionPool D}
      (hclient : self.clients[index]? = some client)
      (hadvance : client.advance self.pool = some (next, pool)) :
      Steps self ⟨pool, self.clients.set index next⟩

theorem steps {self next : Transport D} {action : TransportStep D}
    (hstep : self.step action = some next) : Steps self next := by
  cases action with
  | stream connection step =>
    obtain ⟨before, hbefore, hrest⟩ := Option.bind_eq_some_iff.mp hstep
    obtain ⟨after, hafter, hnext⟩ := Option.bind_eq_some_iff.mp hrest
    cases hnext
    exact .stream hbefore hafter
  | clone client =>
    obtain ⟨_, _, hrest⟩ := Option.bind_eq_some_iff.mp hstep
    obtain ⟨client, hclient, hnext⟩ := Option.bind_eq_some_iff.mp hrest
    cases hnext
    exact .clone hclient
  | send index msg =>
    obtain ⟨client, hclient, hrest⟩ := Option.bind_eq_some_iff.mp hstep
    split at hrest
    · next hidle =>
      cases hrest
      exact .send hclient hidle msg
    · cases hrest
  | flush index =>
    obtain ⟨client, hclient, hrest⟩ := Option.bind_eq_some_iff.mp hstep
    split at hrest
    · next hidle =>
      cases hrest
      exact .flush hclient hidle
    · cases hrest
  | advance index =>
    obtain ⟨client, hclient, hrest⟩ := Option.bind_eq_some_iff.mp hstep
    obtain ⟨⟨after, pool⟩, hadvance, hnext⟩ := Option.bind_eq_some_iff.mp hrest
    cases hnext
    exact .advance hclient hadvance

end Transport

end tiny_mq.raft_client
