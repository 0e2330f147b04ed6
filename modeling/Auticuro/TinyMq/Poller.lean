import Auticuro.TinyMq.CompactedPeer
import Mathlib.Data.Finset.Basic

namespace hologram_kv

/-- A step of the thread that collects the log. -/
def CompactedPeer.Action.OfCollector (action : CompactedPeer.Action) : Prop :=
  action = .run ∨ action = .on_timeout ∨ action = .gc ∨ action = .write_batch

instance (action : CompactedPeer.Action) : Decidable action.OfCollector :=
  inferInstanceAs (Decidable (_ ∨ _))

namespace poller

inductive PeerTicks where
  | RAFT
  | RAFT_LOG_GC
  deriving DecidableEq

def PeerTicks.get_all_ticks : List PeerTicks := [.RAFT, .RAFT_LOG_GC]

/-- What the mailbox of the peer holds. What a raft message or a command makes of raft
is an answer of raft. -/
inductive PeerMsg where
  | RaftMessage
  | RaftCommand
  | Tick (tick : PeerTicks)
  | ApplyRes (res : ApplyRes)
  | Start
  deriving DecidableEq

variable {M : Type}

/-- A ready of raft, with messages that need not and that must wait for it to be
persisted. -/
structure RaftReady (M : Type) extends Ready where
  entries := []
  messages : List M := []
  committed_entries : List Entry := []
  persisted_messages : List M := []
  deriving DecidableEq

/-- What raft has when a ready is persisted. -/
structure LightReady (M : Type) where
  commit_index : Option Nat := none
  messages : List M := []
  committed_entries : List Entry := []
  deriving DecidableEq

/-- What raft answers in a step of the poller: whether a tick, a message or a proposal
has made something ready, the role and the matched indices of the peers, the ready and the
light ready. -/
structure RaftAnswer (M : Type) where
  has_ready : Bool := false
  is_leader : Bool := false
  matched : List Nat := []
  ready : RaftReady M := {}
  light_ready : LightReady M := {}
  deriving DecidableEq

/-- A ready with its number and with what the storage becomes once it is written. -/
structure CollectedReady (M : Type) where
  region_id : Nat
  ctx : InvokeContext
  number : Nat
  ready : RaftReady M

/-- The callbacks in the batch are those that send a tick. -/
structure PollContext (M : Type) where
  has_ready : Bool := false
  ready_res : List (CollectedReady M) := []
  kv_wb : RocksWriteBatch := []
  raft_wb : RocksWriteBatch := []
  tick_batch : List PeerTicks := []

/-- What the poller does next. -/
inductive Point (M : Type) where
  | begin
  | handle_normal
  | handle_msgs
  | collect_ready
  | flush_ticks
  | save_kv
  | save_raft
  | post
  | advance (collected : CollectedReady M)

/-- What leaves the poller for good: a ready is saved, its persisted messages are sent,
other messages are sent. -/
inductive Event (M : Type) where
  | saved (ready : RaftReady M)
  | persisted (ready : RaftReady M)
  | sent (messages : List M)
  deriving DecidableEq

/-- The thread of the poller with its peer. The memory and the databases are those of the
peer, and so are the threads that apply and collect; its results are in the mailbox.
`max_number` is the number of the last ready of raft, `timers` are the callbacks of the
delays that go on, `apply_rx` are the tasks of the apply thread. -/
structure Poller (M : Type) where
  peer : CompactedPeer
  max_number : Nat := 0
  last_unpersisted_number : Nat := 0
  has_ready : Bool := false
  leader_unreachable : Bool := false
  tick_registry : Finset PeerTicks := ∅
  receiver : List PeerMsg := []
  peer_msg_buf : List PeerMsg := []
  poll_ctx : PollContext M := {}
  timers : List PeerTicks := []
  apply_rx : List (List Entry) := []
  start_sent : Bool := false
  panicked : Bool := false
  point : Point M := .begin
  history : List (Event M) := []

namespace Poller

variable (codec : EnginesCodec) (raft_log_gc_count_limit : Nat)

/-- The callback sends the tick. -/
def schedule_tick (self : Poller M) (tick : PeerTicks) : Poller M :=
  if tick ∈ self.tick_registry then
    self
  else
    { self with
      tick_registry := insert tick self.tick_registry
      poll_ctx.tick_batch := self.poll_ctx.tick_batch ++ [tick] }

def register_raft_base_tick (self : Poller M) : Poller M := self.schedule_tick .RAFT

def register_raft_gc_log_tick (self : Poller M) : Poller M := self.schedule_tick .RAFT_LOG_GC

def set_has_ready (self : Poller M) (has_ready : Bool) : Poller M :=
  { self with has_ready := self.has_ready || has_ready }

def on_raft_base_tick (self : Poller M) (raft : RaftAnswer M) : Poller M :=
  (self.set_has_ready raft.has_ready).register_raft_base_tick

/-- The index up to which the log is to be compacted, of a leader. -/
def compact_idx (self : Poller M) (raft : RaftAnswer M) : Option Nat :=
  if raft.is_leader then
    hologram_kv.on_raft_gc_log_tick raft_log_gc_count_limit
      (first_index self.peer.storage.apply_state) self.peer.storage.last_index raft.matched
  else
    none

/-- The tick is registered before anything else, and once more behind the proposal. -/
def on_raft_gc_log_tick (self : Poller M) (raft : RaftAnswer M) : Poller M :=
  let self := self.register_raft_gc_log_tick
  match self.compact_idx raft_log_gc_count_limit raft with
  | none => self
  | some _ => (self.set_has_ready raft.has_ready).register_raft_gc_log_tick

def on_tick (self : Poller M) (tick : PeerTicks) (raft : RaftAnswer M) : Poller M :=
  let self := { self with tick_registry := self.tick_registry.erase tick }
  match tick with
  | .RAFT => self.on_raft_base_tick raft
  | .RAFT_LOG_GC => self.on_raft_gc_log_tick raft_log_gc_count_limit raft

def on_apply_res (self : Poller M) (res : ApplyRes) : Poller M :=
  { self with peer := (self.peer.on_ready_result res.exec_res).post_apply res }

def start (self : Poller M) (raft : RaftAnswer M) : Poller M :=
  let self := self.register_raft_base_tick.register_raft_gc_log_tick
  self.set_has_ready
    (self.peer.storage.applied_index < self.peer.storage.commit_index || raft.is_leader)

/-- One round of the loop of `handle_msgs`. -/
def handle_msg (self : Poller M) (raft : RaftAnswer M) : PeerMsg → Poller M
  | .RaftMessage => self.set_has_ready raft.has_ready
  | .RaftCommand => self.set_has_ready raft.has_ready
  | .Tick tick => self.on_tick raft_log_gc_count_limit tick raft
  | .ApplyRes res => self.on_apply_res res
  | .Start => self.start raft

def send (self : Poller M) (messages : List M) : Poller M :=
  if messages.isEmpty then self
  else { self with history := self.history ++ [.sent messages] }

def handle_raft_committed_entries (self : Poller M) (committed_entries : List Entry) : Poller M :=
  if committed_entries.isEmpty then self
  else { self with apply_rx := self.apply_rx ++ [committed_entries] }

/-- The batch of the ready is appended to the one of the poller. -/
def handle_raft_ready_append (self : Poller M) (ready : RaftReady M) :
    CollectedReady M × Poller M :=
  let number := self.max_number + 1
  let self := { self with max_number := number, last_unpersisted_number := number }
  let self := self.send ready.messages
  let self := self.handle_raft_committed_entries ready.committed_entries
  let (ctx, raft_wb) := self.peer.storage.handle_raft_ready codec.toRaftCodec
    self.poll_ctx.raft_wb ready.toReady
  (⟨self.peer.storage.region_id, ctx, number, ready⟩,
    { self with poll_ctx.raft_wb := raft_wb })

def push_ready (self : Poller M) (collected : CollectedReady M) : Poller M :=
  { self with poll_ctx.ready_res := self.poll_ctx.ready_res ++ [collected] }

def collect_ready (self : Poller M) (raft : RaftAnswer M) : Poller M :=
  if self.has_ready then
    let self := { self with has_ready := false, poll_ctx.has_ready := true }
    let (collected, self) := self.handle_raft_ready_append codec raft.ready
    let self := if collected.ctx.has_new_entries then self.register_raft_gc_log_tick else self
    self.push_ready collected
  else
    self

/-- The batch of one kind of ticks becomes a delay. -/
def flush_tick (self : Poller M) (tick : PeerTicks) : Poller M :=
  { self with
    timers := self.timers ++ self.poll_ctx.tick_batch.filter (· = tick)
    poll_ctx.tick_batch := self.poll_ctx.tick_batch.filter (· ≠ tick) }

def flush_ticks (self : Poller M) : Poller M :=
  PeerTicks.get_all_ticks.foldl flush_tick self

/-- The batch of the kv database is written and synced, if there is something in it. -/
def save_kv (self : Poller M) : Poller M :=
  if self.poll_ctx.kv_wb.isEmpty then
    self
  else
    { self with
      peer := { self.peer with
        kv := Wal.durable ((self.peer.kv.current RocksDB.write_op).write_opt self.poll_ctx.kv_wb) }
      poll_ctx.kv_wb := [] }

/-- The batch of the raft database is written and synced, if there is something in it.
The log of the peer and the history follow. -/
def save_raft (self : Poller M) : Poller M :=
  let readys := self.poll_ctx.ready_res.map (·.ready)
  let raft := self.peer.storage.raft.write_opt self.poll_ctx.raft_wb
  { self with
    peer := { self.peer with
      storage := { self.peer.storage with raft := raft }
      raft := if self.poll_ctx.raft_wb.isEmpty then self.peer.raft else Wal.durable raft
      log := readys.foldl (fun log ready =>
        DurablePeer.Consistent.log_on_ready log ready.toReady) self.peer.log }
    poll_ctx.raft_wb := []
    history := self.history ++ readys.map .saved }

/-- The memory follows, and the messages that had to wait are sent. -/
def post_raft_ready_append (self : Poller M) (collected : CollectedReady M) : Poller M :=
  let storage := self.peer.storage.post_ready collected.ctx
  let self := { self with peer := { self.peer with storage := storage } }
  if collected.ready.persisted_messages.isEmpty then self
  else { self with history := self.history ++ [.persisted collected.ready] }

def set_commit_index (self : Poller M) : Option Nat → Poller M
  | none => self
  | some commit_index =>
    let storage := self.peer.storage.set_commit_index commit_index
    { self with peer := { self.peer with storage := storage } }

def handle_raft_ready_advance (self : Poller M) (number : Nat) (light_rd : LightReady M) :
    Poller M :=
  if number ≠ self.last_unpersisted_number then
    { self with panicked := true }
  else
    let self := self.set_commit_index light_rd.commit_index
    let self := self.send light_rd.messages
    self.handle_raft_committed_entries light_rd.committed_entries

/-- What follows a ready in the loop over them. -/
def check_leader (self : Poller M) : Poller M :=
  if self.leader_unreachable then
    { self.register_raft_base_tick with leader_unreachable := false }
  else
    self

def goto (self : Poller M) (point : Point M) : Poller M := { self with point := point }

def messages_per_tick : Nat := 4096

/-- A message is received, unless there is none or the buffer is full. -/
def try_recv (self : Poller M) : Poller M :=
  if self.peer_msg_buf.length < messages_per_tick then
    match self.receiver with
    | msg :: receiver =>
      { self with peer_msg_buf := self.peer_msg_buf ++ [msg], receiver := receiver }
    | [] => self.goto .handle_msgs
  else
    self.goto .handle_msgs

/-- The loop over the messages; behind them the commands that wait for more of them are
proposed. -/
def handle_msgs (self : Poller M) (raft : RaftAnswer M) : Poller M :=
  match self.peer_msg_buf with
  | msg :: peer_msg_buf =>
    { self with peer_msg_buf := peer_msg_buf }.handle_msg raft_log_gc_count_limit raft msg
  | [] => (self.set_has_ready raft.has_ready).goto .collect_ready

/-- The loop over the readys. -/
def post (self : Poller M) : Poller M :=
  match self.poll_ctx.ready_res with
  | [] => self.goto .begin
  | collected :: ready_res =>
    if collected.region_id ≠ self.peer.storage.region_id then
      { self with panicked := true }
    else
      ({ self with poll_ctx.ready_res := ready_res }.post_raft_ready_append collected).goto
        (.advance collected)

/-- The next step of `Poller::poll`. -/
def poll (self : Poller M) (raft : RaftAnswer M) : Poller M :=
  match self.point with
  | .begin => { self with poll_ctx.has_ready := false, point := .handle_normal }
  | .handle_normal => self.try_recv
  | .handle_msgs => self.handle_msgs raft_log_gc_count_limit raft
  | .collect_ready => (self.collect_ready codec raft).goto .flush_ticks
  | .flush_ticks =>
    self.flush_ticks.goto (if self.poll_ctx.has_ready then .save_kv else .begin)
  | .save_kv => self.save_kv.goto .save_raft
  | .save_raft => self.save_raft.goto .post
  | .post => self.post
  | .advance collected =>
    ((self.handle_raft_ready_advance collected.number raft.light_ready).check_leader).goto .post

/-- The apply thread takes the tasks that it has received, and sends the results. -/
def apply (self : Poller M) (count : Nat) : Option (Poller M) := do
  let results ← (self.peer.apply_state.poll (self.apply_rx.take count)).toOption
  return { self with
    peer := { self.peer.end_poll codec results with results := self.peer.results }
    apply_rx := self.apply_rx.drop count
    receiver := self.receiver ++ results.map .ApplyRes }

/-- The poller of a peer that starts. -/
def new (peer : CompactedPeer) (history : List (Event M)) : Poller M where
  peer := peer
  history := history

/-- The messages that are not handled. -/
def messages (self : Poller M) : List PeerMsg := self.peer_msg_buf ++ self.receiver

/-- A callback of a delay is called. -/
def fire (self : Poller M) (index : Nat) : Option (Poller M) :=
  match self.timers[index]? with
  | none => none
  | some tick => some { self with
    timers := self.timers.eraseIdx index
    receiver := self.receiver ++ [.Tick tick] }

end Poller

inductive Action (M : Type) where
  /-- A message of another peer or a command is sent to the mailbox. -/
  | send (msg : PeerMsg)
  /-- The end of `start_system`. -/
  | start
  | fire (index : Nat)
  | apply (count : Nat)
  /-- A step of the collector. -/
  | collector (action : CompactedPeer.Action)
  | poll (raft : RaftAnswer M)
  /-- The process stops, with so many of the unsynced writes on disk, and starts again. -/
  | restart (kept_kv kept_raft : Nat)
  deriving DecidableEq

namespace Poller

variable (codec : EnginesCodec) (raft_log_gc_count_limit : Nat)

/-- Entries of raft have a machine number behind them. -/
def Indexed (entries : List Entry) : Prop := ∀ entry ∈ entries, entry.index + 1 < U64.size

instance Indexed.decidable (entries : List Entry) : Decidable (Indexed entries) :=
  inferInstanceAs (Decidable (∀ entry ∈ entries, _))

/-- What raft guarantees of its readys: the entries extend the log or overwrite a suffix of
it, and the commit index does not go back. -/
def Answers (self : Poller M) (raft : RaftAnswer M) : Point M → Prop
  | .collect_ready =>
    raft.ready.toReady.Appends self.peer.storage.truncated_index self.peer.storage.last_index ∧
      (∀ hs ∈ raft.ready.hs, self.peer.storage.commit_index ≤ hs.commit) ∧
      Indexed raft.ready.committed_entries
  | .advance _ =>
    (∀ commit ∈ raft.light_ready.commit_index, self.peer.storage.commit_index ≤ commit) ∧
      Indexed raft.light_ready.committed_entries
  | _ => True

instance Answers.decidable (self : Poller M) (raft : RaftAnswer M) (point : Point M) :
    Decidable (self.Answers raft point) := by
  cases point <;> dsimp only [Answers] <;> infer_instance

/-- The threads take turns at every point. A poller that has panicked goes no further. -/
def step (self : Poller M) : Action M → Option (Poller M)
  | .send msg =>
    if msg = .RaftMessage ∨ msg = .RaftCommand then
      some { self with receiver := self.receiver ++ [msg] }
    else
      none
  | .start =>
    if self.start_sent then none
    else some { self with start_sent := true, receiver := self.receiver ++ [.Start] }
  | .fire index => self.fire index
  | .apply count => self.apply codec count
  | .collector action =>
    if action.OfCollector then
      (self.peer.step codec action).map fun peer => { self with peer := peer }
    else
      none
  | .poll raft =>
    if self.panicked = false ∧ self.Answers raft self.point then
      some (self.poll codec raft_log_gc_count_limit raft)
    else
      none
  | .restart kept_kv kept_raft =>
    (self.peer.restart codec kept_kv kept_raft).map fun peer => new peer self.history

section Frame

variable (self : Poller M)

theorem schedule_tick_eq (tick : PeerTicks) : ∃ registry batch, self.schedule_tick tick =
    { self with tick_registry := registry, poll_ctx.tick_batch := batch } := by
  unfold schedule_tick
  split
  · exact ⟨self.tick_registry, self.poll_ctx.tick_batch, rfl⟩
  · exact ⟨_, _, rfl⟩

/-- A message changes the ticks and whether there is a ready; a result of the apply thread
changes the peer. -/
theorem handle_msg_eq (raft : RaftAnswer M) (msg : PeerMsg) :
    ∃ has_ready registry batch, self.handle_msg raft_log_gc_count_limit raft msg =
      { self with
        peer := match msg with
          | .ApplyRes res => (self.peer.on_ready_result res.exec_res).post_apply res
          | _ => self.peer
        has_ready := has_ready
        tick_registry := registry
        poll_ctx.tick_batch := batch } := by
  cases msg with
  | RaftMessage | RaftCommand => exact ⟨_, self.tick_registry, self.poll_ctx.tick_batch, rfl⟩
  | Tick tick =>
    simp only [handle_msg, on_tick]
    cases tick with
    | RAFT =>
      simp only [on_raft_base_tick, register_raft_base_tick]
      obtain ⟨registry, batch, heq⟩ := schedule_tick_eq (set_has_ready { self with
        tick_registry := self.tick_registry.erase .RAFT } raft.has_ready) .RAFT
      exact ⟨_, registry, batch, heq⟩
    | RAFT_LOG_GC =>
      simp only [on_raft_gc_log_tick, register_raft_gc_log_tick]
      obtain ⟨registry, batch, heq⟩ := schedule_tick_eq { self with
        tick_registry := self.tick_registry.erase .RAFT_LOG_GC } .RAFT_LOG_GC
      rw [heq]
      split
      · exact ⟨_, registry, batch, rfl⟩
      · obtain ⟨registry', batch', heq'⟩ := schedule_tick_eq (set_has_ready { self with
          tick_registry := registry, poll_ctx.tick_batch := batch } raft.has_ready) .RAFT_LOG_GC
        exact ⟨_, registry', batch', heq'⟩
  | ApplyRes res => exact ⟨self.has_ready, self.tick_registry, self.poll_ctx.tick_batch, rfl⟩
  | Start =>
    obtain ⟨registry, batch, heq⟩ := self.schedule_tick_eq .RAFT
    obtain ⟨registry', batch', heq'⟩ := schedule_tick_eq { self with
      tick_registry := registry, poll_ctx.tick_batch := batch } .RAFT_LOG_GC
    have hboth := (congrArg register_raft_gc_log_tick heq).trans heq'
    have hstart := congrArg (fun poller : Poller M => poller.set_has_ready
      (poller.peer.storage.applied_index < poller.peer.storage.commit_index ||
        raft.is_leader)) hboth
    exact ⟨_, registry', batch', hstart⟩

/-- Messages that are not persisted leave nothing but a trace. -/
theorem send_eq (messages : List M) : ∃ events,
    self.send messages = { self with history := self.history ++ events } ∧
      (events = [] ∨ events = [.sent messages]) := by
  unfold send
  split
  · exact ⟨[], by rw [List.append_nil], .inl rfl⟩
  · exact ⟨_, rfl, .inr rfl⟩

theorem handle_raft_committed_entries_eq (committed_entries : List Entry) : ∃ tasks,
    self.handle_raft_committed_entries committed_entries =
      { self with apply_rx := self.apply_rx ++ tasks } ∧
      ∀ task ∈ tasks, task = committed_entries := by
  unfold handle_raft_committed_entries
  split
  · exact ⟨[], by rw [List.append_nil], by simp⟩
  · exact ⟨_, rfl, by simp⟩

end Frame

/-- The steps by what they do. -/
inductive Steps (self : Poller M) : Action M → Poller M → Prop where
  | send {msg : PeerMsg} (hmsg : msg = .RaftMessage ∨ msg = .RaftCommand) :
      Steps self (.send msg) { self with receiver := self.receiver ++ [msg] }
  | start (hsent : self.start_sent = false) :
      Steps self .start
        { self with start_sent := true, receiver := self.receiver ++ [.Start] }
  | fire {index : Nat} {tick : PeerTicks} (htick : self.timers[index]? = some tick) :
      Steps self (.fire index)
        { self with
          timers := self.timers.eraseIdx index
          receiver := self.receiver ++ [.Tick tick] }
  | apply {count : Nat} {results : List ApplyRes}
      (hresults : self.peer.apply_state.poll (self.apply_rx.take count) = .ok results) :
      Steps self (.apply count)
        { self with
          peer := { self.peer.end_poll codec results with results := self.peer.results }
          apply_rx := self.apply_rx.drop count
          receiver := self.receiver ++ results.map .ApplyRes }
  | collector {action : CompactedPeer.Action} {peer : CompactedPeer} (haction : action.OfCollector)
      (hpeer : self.peer.step codec action = some peer) :
      Steps self (.collector action) { self with peer := peer }
  | begin {raft : RaftAnswer M} (hpoint : self.point = .begin) :
      Steps self (.poll raft)
        { self with poll_ctx.has_ready := false, point := .handle_normal }
  | recv {raft : RaftAnswer M} {msg : PeerMsg} {receiver : List PeerMsg}
      (hpoint : self.point = .handle_normal) (hreceiver : self.receiver = msg :: receiver) :
      Steps self (.poll raft)
        { self with peer_msg_buf := self.peer_msg_buf ++ [msg], receiver := receiver }
  | recv_end {raft : RaftAnswer M} (hpoint : self.point = .handle_normal) :
      Steps self (.poll raft) (self.goto .handle_msgs)
  | handle_msg {raft : RaftAnswer M} {msg : PeerMsg} {peer_msg_buf : List PeerMsg}
      (hpoint : self.point = .handle_msgs) (hbuf : self.peer_msg_buf = msg :: peer_msg_buf) :
      Steps self (.poll raft)
        ({ self with peer_msg_buf := peer_msg_buf }.handle_msg raft_log_gc_count_limit raft msg)
  | handle_end {raft : RaftAnswer M} (hpoint : self.point = .handle_msgs)
      (hbuf : self.peer_msg_buf = []) :
      Steps self (.poll raft) ((self.set_has_ready raft.has_ready).goto .collect_ready)
  | collect_ready {raft : RaftAnswer M} (hpoint : self.point = .collect_ready)
      (hanswers : self.Answers raft .collect_ready) :
      Steps self (.poll raft) ((self.collect_ready codec raft).goto .flush_ticks)
  | flush_ticks {raft : RaftAnswer M} (hpoint : self.point = .flush_ticks) :
      Steps self (.poll raft)
        (self.flush_ticks.goto (if self.poll_ctx.has_ready then .save_kv else .begin))
  | save_kv {raft : RaftAnswer M} (hpoint : self.point = .save_kv) :
      Steps self (.poll raft) (self.save_kv.goto .save_raft)
  | save_raft {raft : RaftAnswer M} (hpoint : self.point = .save_raft) :
      Steps self (.poll raft) (self.save_raft.goto .post)
  | post {raft : RaftAnswer M} (hpoint : self.point = .post) : Steps self (.poll raft) self.post
  | advance {raft : RaftAnswer M} {collected : CollectedReady M}
      (hpoint : self.point = .advance collected)
      (hanswers : self.Answers raft (.advance collected)) :
      Steps self (.poll raft)
        ((self.handle_raft_ready_advance collected.number raft.light_ready).check_leader.goto
          .post)
  | restart {kept_kv kept_raft : Nat} {peer : CompactedPeer}
      (hpeer : self.peer.restart codec kept_kv kept_raft = some peer) :
      Steps self (.restart kept_kv kept_raft) (new peer self.history)

variable {codec raft_log_gc_count_limit} {self next : Poller M}

theorem poll_steps {raft : RaftAnswer M} (hanswers : self.Answers raft self.point) :
    Steps codec raft_log_gc_count_limit self (.poll raft)
      (self.poll codec raft_log_gc_count_limit raft) := by
  unfold poll
  cases hpoint : self.point with
  | begin => exact .begin hpoint
  | handle_normal =>
    simp only [try_recv]
    split
    · split
      · next hreceiver => exact .recv hpoint hreceiver
      · exact .recv_end hpoint
    · exact .recv_end hpoint
  | handle_msgs =>
    simp only [handle_msgs]
    split
    · next hbuf => exact .handle_msg hpoint hbuf
    · next hbuf => exact .handle_end hpoint hbuf
  | collect_ready =>
    rw [hpoint] at hanswers
    exact .collect_ready hpoint hanswers
  | flush_ticks => exact .flush_ticks hpoint
  | save_kv => exact .save_kv hpoint
  | save_raft => exact .save_raft hpoint
  | post => exact .post hpoint
  | advance collected =>
    rw [hpoint] at hanswers
    exact .advance hpoint hanswers

theorem steps {action : Action M}
    (hstep : self.step codec raft_log_gc_count_limit action = some next) :
    Steps codec raft_log_gc_count_limit self action next := by
  cases action with
  | send msg =>
    obtain ⟨hmsg, heq⟩ := Option.ite_none_right_eq_some.mp hstep
    cases heq
    exact .send hmsg
  | start =>
    obtain ⟨hsent, heq⟩ := Option.ite_none_left_eq_some.mp hstep
    cases heq
    exact .start (Bool.not_eq_true _ ▸ hsent)
  | fire index =>
    simp only [step, fire] at hstep
    split at hstep
    · cases hstep
    · next htick =>
      cases hstep
      exact .fire htick
  | apply count =>
    obtain ⟨results, hresults, heq⟩ := Option.bind_eq_some_iff.mp hstep
    cases heq
    exact .apply (Exec.toOption_eq_some_iff.mp hresults)
  | collector action =>
    obtain ⟨haction, hmap⟩ := Option.ite_none_right_eq_some.mp hstep
    obtain ⟨peer, hpeer, rfl⟩ := Option.map_eq_some_iff.mp hmap
    exact .collector haction hpeer
  | poll raft =>
    obtain ⟨⟨-, hanswers⟩, heq⟩ := Option.ite_none_right_eq_some.mp hstep
    cases heq
    exact poll_steps hanswers
  | restart kept_kv kept_raft =>
    obtain ⟨peer, hpeer, rfl⟩ := Option.map_eq_some_iff.mp hstep
    exact .restart hpeer

end Poller

end poller

end hologram_kv
