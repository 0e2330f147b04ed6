import Auticuro.TinyMq.ClientCaches

namespace tiny_mq.raft_client

variable {D : Type}

namespace RaftCall

/-- The call found the queue empty after it had registered, and has nothing to send. -/
def Drained (call : RaftCall D) : Prop :=
  call.point = .flush ∨ call.point = .receive ∨ call.point = .idle ∧ call.buffer.batch = []

/-- A call is not left asleep: before it sleeps it has its waker in the queue, or was woken
since; what is in the queue then is owed a notification by the client that pushed it. -/
structure Wakeful (call : RaftCall D) (index : Nat) (queue : Queue D) (owed waking : Prop) :
    Prop where
  connection : call.task.connection = index
  sending : call.point = .send → call.buffer.batch ≠ []
  registered : call.point = .pop_again ∨ call.Drained →
    call.notified = true ∨ waking ∨ queue.waker = some call.task
  owed : call.Drained → call.notified = true ∨ waking ∨ queue.buf = [] ∨ owed

variable {call : RaftCall D} {index : Nat} {queue after : Queue D}
  {owed owed' waking waking' : Prop}

/-- What a step of a client does to a call: it may only wake it. -/
theorem Wakeful.update (hwakeful : call.Wakeful index queue owed waking) {notified : Bool}
    (hregistered : call.notified = true ∨ waking ∨ queue.waker = some call.task →
      notified = true ∨ waking' ∨ after.waker = some call.task)
    (howed : call.notified = true ∨ waking ∨ queue.waker = some call.task →
      call.notified = true ∨ waking ∨ queue.buf = [] ∨ owed →
      notified = true ∨ waking' ∨ after.buf = [] ∨ owed') :
    RaftCall.Wakeful { call with notified := notified } index after owed' waking' where
  connection := hwakeful.connection
  sending := hwakeful.sending
  registered := fun hpoint => hregistered (hwakeful.registered hpoint)
  owed := fun hdrained => howed (hwakeful.registered (.inr hdrained)) (hwakeful.owed hdrained)

theorem Wakeful.mono (hwakeful : call.Wakeful index queue owed waking) (howed : owed → owed')
    (hwaking : waking → waking') : call.Wakeful index queue owed' waking' := by
  refine hwakeful.update (fun hregistered => ?_) fun _ hbuf => ?_
  · exact hregistered.imp_right (Or.imp_left hwaking)
  · exact hbuf.imp_right (Or.imp hwaking (Or.imp_right howed))

/-- A call that is not about to sleep. -/
theorem Wakeful.of_point (hconnection : call.task.connection = index)
    (hpoint : call.point = .fill ∨ call.point = .register ∨
      call.point = .send ∧ call.buffer.batch ≠ [] ∨
      call.point = .idle ∧ call.buffer.batch ≠ []) :
    call.Wakeful index queue owed waking := by
  have hawake : ¬ (call.point = .pop_again ∨ call.Drained) := by
    unfold Drained
    obtain hfill | hregister | ⟨hsend, -⟩ | ⟨hidle, hbatch⟩ := hpoint
    · simp [hfill]
    · simp [hregister]
    · simp [hsend]
    · simp [hidle, hbatch]
  constructor
  · exact hconnection
  · intro hsend
    rw [hsend] at hpoint
    simpa using hpoint
  · exact fun hsleeps => absurd hsleeps hawake
  · exact fun hdrained => absurd (.inr hdrained) hawake

end RaftCall

namespace StreamBackEnd

variable {self next : StreamBackEnd D} {index : Nat} {owed : Prop} {waking : Task → Prop}

def Wakeful (index : Nat) (owed : Prop) (waking : Task → Prop) (self : StreamBackEnd D) : Prop :=
  ∀ call, self.phase = .calling call →
    call.Wakeful index self.queue owed (waking call.task)

theorem Wakeful.step (hwakeful : self.Wakeful index owed waking)
    (hsteps : Steps self index next) : next.Wakeful index owed waking := by
  intro call hcall
  cases hsteps with
  | reconnect _ =>
    cases hcall
    exact ⟨rfl, by rintro ⟨⟩, fun _ => .inl rfl, fun _ => .inl rfl⟩
  | wake hphase =>
    cases hcall
    exact (hwakeful _ hphase).update (fun _ => .inl rfl) fun _ _ => .inl rfl
  | poll hphase | pop hphase | send hphase | nothing hphase =>
    cases hcall
    exact .of_point (hwakeful _ hphase).connection (.inl rfl)
  | full hphase _ hfull =>
    cases hcall
    refine .of_point (hwakeful _ hphase).connection (.inr (.inr (.inl ⟨rfl, ?_⟩)))
    rintro hnil
    unfold MessageBuffer.full at hfull
    rw [hnil] at hfull
    cases hfull
  | empty hphase _ _ =>
    cases hcall
    exact .of_point (hwakeful _ hphase).connection (.inr (.inl rfl))
  | register hphase _ =>
    cases hcall
    refine ⟨(hwakeful _ hphase).connection, by rintro ⟨⟩, fun _ => .inr (.inr rfl), ?_⟩
    rintro (⟨⟨⟩⟩ | ⟨⟨⟩⟩ | ⟨⟨⟩, -⟩)
  | drained hphase hpoint hbuf _ =>
    cases hcall
    have hbefore := hwakeful _ hphase
    exact ⟨hbefore.connection, by rintro ⟨⟩, fun _ => hbefore.registered (.inl hpoint),
      fun _ => .inr (.inr (.inl hbuf))⟩
  | filled hphase _ hbatch =>
    cases hcall
    exact .of_point (hwakeful _ hphase).connection (.inr (.inr (.inl ⟨rfl, hbatch⟩)))
  | blocked hphase hpoint =>
    cases hcall
    have hbefore := hwakeful _ hphase
    exact .of_point hbefore.connection (.inr (.inr (.inr ⟨rfl, hbefore.sending hpoint⟩)))
  | flush hphase hpoint =>
    cases hcall
    have hbefore := hwakeful _ hphase
    exact ⟨hbefore.connection, by rintro ⟨⟩, fun _ => hbefore.registered (.inr (.inl hpoint)),
      fun _ => hbefore.owed (.inl hpoint)⟩
  | wait hphase hpoint =>
    cases hcall
    have hbefore := hwakeful _ hphase
    exact ⟨hbefore.connection, by rintro ⟨⟩,
      fun _ => hbefore.registered (.inr (.inr (.inl hpoint))),
      fun _ => hbefore.owed (.inr (.inl hpoint))⟩
  | _ => cases hcall

end StreamBackEnd

namespace Client

variable {self next : Client D} {pool after : ConnectionPool D}

/-- The client has yet to take the waker of a queue. -/
def Owes (pool : ConnectionPool D) (self : Client D) (queue : Nat) : Prop :=
  (∃ id ∈ self.pending, pool.connections.lookup id = some queue) ∨
    ∃ ids, self.point = .notifying queue ids ∨ self.point = .taking queue ids

/-- The client has taken the waker of a task. -/
def Wakes (self : Client D) (task : Task) : Prop := ∃ ids, self.point = .waking task ids

theorem Owes.mono {queue : Nat} (howes : self.Owes pool queue) (hgrows : pool.Grows after) :
    self.Owes after queue := by
  obtain ⟨id, hmem, hlookup⟩ | hpoint := howes
  · exact .inl ⟨id, hmem, hgrows.lookup id queue hlookup⟩
  · exact .inr hpoint

/-- The client has a queue or a waker in its hands. -/
def holds : ClientPoint D → Bool
  | .notifying _ _ | .taking _ _ | .waking _ _ => true
  | _ => false

variable {point : ClientPoint D}

theorem Owes.of_not_holds {queue : Nat} (howes : self.Owes pool queue) (hpoint : self.point = point)
    (hfree : holds point = false) :
    ∃ id ∈ pending { self with point := point }, pool.connections.lookup id = some queue := by
  subst hpoint
  obtain howes | ⟨ids, hat | hat⟩ := howes
  · exact howes
  · rw [hat] at hfree
    cases hfree
  · rw [hat] at hfree
    cases hfree

theorem not_wakes (hpoint : self.point = point) (hfree : holds point = false) (task : Task) :
    ¬ self.Wakes task := by
  rintro ⟨ids, hat⟩
  cases hpoint.symm.trans hat
  cases hfree

/-- A client that leaves a queue owes the others what it owed them. -/
theorem Owes.leave {queue other : Nat} {ids : List (Nat × Nat)} (howes : self.Owes pool other)
    (hpoint : self.point = .notifying queue ids ∨ self.point = .taking queue ids)
    (hpending : pending { self with point := point } = ids) (hother : other ≠ queue) :
    Owes pool { self with point := point } other := by
  have hbefore : self.pending = ids := by
    obtain hpoint | hpoint := hpoint <;> exact pending_eq hpoint
  obtain ⟨id, hmem, hlookup⟩ | ⟨rest, hat⟩ := howes
  · refine .inl ⟨id, ?_, hlookup⟩
    rwa [hpending, ← hbefore]
  · exfalso
    obtain hpoint | hpoint := hpoint
    all_goals
      rw [hpoint] at hat
      obtain ⟨⟨⟩⟩ | ⟨⟨⟩⟩ := hat
      exact hother rfl

end Client

namespace Transport

variable {self next start last : Transport D}

def Owed (transport : Transport D) (queue : Nat) : Prop :=
  ∃ client ∈ transport.clients, client.Owes transport.pool queue

def Waking (transport : Transport D) (task : Task) : Prop :=
  ∃ client ∈ transport.clients, client.Wakes task

def Wakeful (transport : Transport D) : Prop :=
  ∀ index (back_end : StreamBackEnd D), transport.pool.back_ends[index]? = some back_end →
    back_end.Wakeful index (transport.Owed index) transport.Waking

/-- What some client has to do is still there after a step of one of them that keeps it. -/
theorem exists_client_set {P Q : Client D → Prop} {clients : List (Client D)} {index : Nat}
    {before after : Client D} (hbefore : clients[index]? = some before)
    (hexists : ∃ client ∈ clients, P client) (hothers : ∀ client, P client → Q client)
    (hafter : P before → Q after) : ∃ client ∈ clients.set index after, Q client := by
  obtain ⟨client, hmem, hclient⟩ := hexists
  obtain ⟨other, hother⟩ := List.getElem?_of_mem hmem
  by_cases hsame : index = other
  · subst hsame
    cases hbefore.symm.trans hother
    exact ⟨after, List.mem_set (List.getElem?_eq_some_iff.mp hbefore).1 after, hafter hclient⟩
  · exact ⟨client, List.mem_of_getElem? ((List.getElem?_set_ne hsame).trans hother),
      hothers client hclient⟩

section Clients

variable {index : Nat} {client after : Client D} {pool : ConnectionPool D}
  (hclient : self.clients[index]? = some client)
include hclient

theorem waking_set {task : Task} (hwaking : self.Waking task)
    (hafter : client.Wakes task → after.Wakes task) :
    Waking ⟨pool, self.clients.set index after⟩ task :=
  exists_client_set hclient hwaking (fun _ hwakes => hwakes) hafter

theorem owed_set (hgrows : self.pool.Grows pool) {queue : Nat} (howed : self.Owed queue)
    (hafter : client.Owes self.pool queue → after.Owes pool queue) :
    Owed ⟨pool, self.clients.set index after⟩ queue :=
  exists_client_set hclient howed (fun _ howes => howes.mono hgrows) hafter

theorem owed_of_owes {queue : Nat} (howes : after.Owes pool queue) :
    Owed ⟨pool, self.clients.set index after⟩ queue :=
  ⟨after, List.mem_set (List.getElem?_eq_some_iff.mp hclient).1 after, howes⟩

theorem waking_of_wakes {task : Task} (hwakes : after.Wakes task) :
    Waking ⟨pool, self.clients.set index after⟩ task :=
  ⟨after, List.mem_set (List.getElem?_eq_some_iff.mp hclient).1 after, hwakes⟩

end Clients

theorem back_ends_set {pool : ConnectionPool D} {queue other : Nat}
    {before after back_end : StreamBackEnd D} (hbefore : pool.back_ends[queue]? = some before)
    (hback_end : (pool.set queue after).back_ends[other]? = some back_end) :
    other = queue ∧ back_end = after ∨ other ≠ queue ∧ pool.back_ends[other]? = some back_end := by
  by_cases hsame : queue = other
  · subst hsame
    have hset : (pool.set queue after).back_ends[queue]? = some after :=
      List.getElem?_set_self (List.getElem?_eq_some_iff.mp hbefore).1
    exact .inl ⟨rfl, Option.some_injective _ (hback_end.symm.trans hset)⟩
  · exact .inr ⟨fun heq => hsame heq.symm, (List.getElem?_set_ne hsame).symm.trans hback_end⟩

variable {back_end : StreamBackEnd D}

/-- A step of a client keeps a call wakeful that has the same queue after it. -/
theorem Wakeful.of_same {queue : Nat} (hwakeful : self.Wakeful)
    (hback_end : self.pool.back_ends[queue]? = some back_end)
    (howed : self.Owed queue → next.Owed queue)
    (hwaking : ∀ task, self.Waking task → next.Waking task) :
    back_end.Wakeful queue (next.Owed queue) next.Waking := by
  intro call hcall
  exact (hwakeful queue back_end hback_end call hcall).mono howed (hwaking call.task)

section Advance

variable {index : Nat} {client after : Client D} {pool : ConnectionPool D}

/-- A step that keeps what the client owes, and leaves the back ends that there were. -/
theorem Wakeful.of_kept (hwakeful : self.Wakeful) (hclient : self.clients[index]? = some client)
    (hgrows : self.pool.Grows pool)
    (hback_ends : ∀ (queue : Nat) (back_end : StreamBackEnd D),
      pool.back_ends[queue]? = some back_end →
      self.pool.back_ends[queue]? = some back_end ∨ back_end.phase = .backoff)
    (howes : ∀ queue, client.Owes self.pool queue → after.Owes pool queue)
    (hwakes : ∀ task, ¬ client.Wakes task) :
    Wakeful ⟨pool, self.clients.set index after⟩ := by
  intro queue back_end hback_end
  obtain hbefore | hnew := hback_ends queue back_end hback_end
  · refine hwakeful.of_same hbefore (fun howed => ?_) fun task hwaking => ?_
    · exact owed_set hclient hgrows howed (howes queue)
    · exact waking_set hclient hwaking fun hbefore => absurd hbefore (hwakes task)
  · intro call hcall
    cases hnew.symm.trans hcall

/-- So does a step of a client that holds nothing, if it goes on to owe what it has pending. -/
theorem Wakeful.of_not_holds (hwakeful : self.Wakeful)
    (hclient : self.clients[index]? = some client) (hgrows : self.pool.Grows pool)
    (hback_ends : ∀ (queue : Nat) (back_end : StreamBackEnd D),
      pool.back_ends[queue]? = some back_end →
      self.pool.back_ends[queue]? = some back_end ∨ back_end.phase = .backoff)
    {point : ClientPoint D} (hpoint : client.point = point) (hfree : Client.holds point = false)
    (hpending : ∀ id ∈ Client.pending { client with point := point }, ∀ queue,
      pool.connections.lookup id = some queue → after.Owes pool queue) :
    Wakeful ⟨pool, self.clients.set index after⟩ := by
  refine hwakeful.of_kept hclient hgrows hback_ends (fun queue howes => ?_) fun task => ?_
  · obtain ⟨id, hid, hlookup⟩ := howes.of_not_holds hpoint hfree
    exact hpending id hid queue (hgrows.lookup id queue hlookup)
  · exact Client.not_wakes hpoint hfree task

theorem back_ends_load {key : Nat × Nat} {queue : Nat}
    (hback_end : (pool.load key).2.back_ends[queue]? = some back_end) :
    pool.back_ends[queue]? = some back_end ∨ back_end.phase = .backoff := by
  unfold ConnectionPool.load at hback_end
  split at hback_end
  · exact .inl hback_end
  · change (pool.back_ends ++ [_])[queue]? = _ at hback_end
    by_cases hold : queue < pool.back_ends.length
    · rw [List.getElem?_append_left hold] at hback_end
      exact .inl hback_end
    · rw [List.getElem?_append_right (Nat.not_lt.mp hold), List.getElem?_singleton] at hback_end
      split at hback_end
      · cases hback_end
        exact .inr rfl
      · cases hback_end

theorem Wakeful.push (hwakeful : self.Wakeful) (hconsistent : self.Consistent)
    (hclient : self.clients[index]? = some client) {msg : RaftMessage D} {rounds : Nat}
    {cached : CachedQueue} {before pushed : StreamBackEnd D} {used : RaftClient}
    (hpoint : client.point = .sending msg rounds)
    (hcached : client.client.peek (RaftClient.key msg) = some cached)
    (hbefore : self.pool.back_ends[cached.queue]? = some before)
    (hpush : before.push msg = some pushed)
    (hneed : used.need_flush =
      if cached.dirty then client.client.need_flush
      else client.client.need_flush ++ [RaftClient.key msg]) :
    Wakeful ⟨self.pool.set cached.queue pushed, self.clients.set index ⟨used, .idle⟩⟩ := by
  have hlater := hconsistent.clients client (List.mem_of_getElem? hclient)
  have hpending : client.pending = client.client.need_flush := Client.pending_eq hpoint
  have hmem : ∀ id, id ∈ client.client.need_flush → id ∈ used.need_flush := by
    intro id hid
    rw [hneed]
    split
    · exact hid
    · exact List.mem_append_left _ hid
  have hkey : RaftClient.key msg ∈ used.need_flush := by
    rw [hneed]
    split
    · next hdirty =>
      rw [← hpending]
      exact (hlater.dirty _).mpr ⟨cached, hcached, hdirty⟩
    · exact List.mem_append_right _ (List.mem_singleton_self _)
  have howes : ∀ queue, client.Owes self.pool queue →
      Client.Owes (self.pool.set cached.queue pushed) ⟨used, .idle⟩ queue := by
    intro queue howes
    obtain ⟨id, hid, hlookup⟩ := howes.of_not_holds hpoint rfl
    exact .inl ⟨id, hmem id hid, hlookup⟩
  have hwakes := Client.not_wakes hpoint rfl
  have hgrows : self.pool.Grows (self.pool.set cached.queue pushed) :=
    ConnectionPool.grows_set cached.queue pushed
  intro queue back_end hback_end call hcall
  obtain ⟨rfl, rfl⟩ | ⟨-, hother⟩ := back_ends_set hbefore hback_end
  · obtain ⟨grown, hgrown, rfl⟩ := Option.map_eq_some_iff.mp hpush
    have hwaker : grown.waker = before.queue.waker := by
      unfold Queue.push at hgrown
      split at hgrown
      · cases hgrown
        rfl
      · cases hgrown
    refine (hwakeful _ before hbefore call hcall).update (fun hregistered => ?_) fun _ _ => ?_
    · rw [hwaker]
      refine hregistered.imp_right (Or.imp_left fun hwaking => ?_)
      exact waking_set hclient hwaking fun hbefore => absurd hbefore (hwakes _)
    · refine .inr (.inr (.inr (owed_of_owes hclient (.inl ⟨_, hkey, ?_⟩))))
      exact hlater.shared _ cached hcached
  · refine hwakeful.of_same hother (fun howed => ?_) (fun task hwaking => ?_) call hcall
    · exact owed_set hclient hgrows howed (howes queue)
    · exact waking_set hclient hwaking fun hbefore => absurd hbefore (hwakes task)

variable {ids : List (Nat × Nat)}

/-- A client that leaves a queue: only the call of that queue has to be looked at. -/
theorem Wakeful.leave (hwakeful : self.Wakeful) (hclient : self.clients[index]? = some client)
    {queue : Nat} {back_end left : StreamBackEnd D} {point : ClientPoint D}
    (hpoint : client.point = .notifying queue ids ∨ client.point = .taking queue ids)
    (hpending : Client.pending { client with point := point } = ids)
    (hback_end : self.pool.back_ends[queue]? = some back_end) (hleft : left.Wakeful queue
      (Owed ⟨self.pool.set queue left, self.clients.set index { client with point := point }⟩ queue)
      (Waking ⟨self.pool.set queue left, self.clients.set index { client with point := point }⟩)) :
    Wakeful ⟨self.pool.set queue left, self.clients.set index { client with point := point }⟩ := by
  have hwakes : ∀ task, ¬ client.Wakes task := by
    rintro task ⟨ids, hat⟩
    obtain hpoint | hpoint := hpoint <;> cases hpoint.symm.trans hat
  intro other found hfound
  obtain ⟨rfl, rfl⟩ | ⟨hother, hfound⟩ := back_ends_set hback_end hfound
  · exact hleft
  · refine hwakeful.of_same hfound (fun howed => ?_) fun task hwaking => ?_
    · refine owed_set hclient (ConnectionPool.grows_set _ _) howed fun howes => ?_
      exact (howes.leave hpoint hpending hother).mono (ConnectionPool.grows_set _ _)
    · exact waking_set hclient hwaking fun hbefore => absurd hbefore (hwakes task)

theorem waking_leave (hclient : self.clients[index]? = some client) {queue : Nat}
    {point : ClientPoint D}
    (hpoint : client.point = .notifying queue ids ∨ client.point = .taking queue ids) {task : Task}
    (hwaking : self.Waking task) :
    Waking ⟨pool, self.clients.set index { client with point := point }⟩ task := by
  refine waking_set hclient hwaking ?_
  rintro ⟨ids, hat⟩
  obtain hpoint | hpoint := hpoint <;> cases hpoint.symm.trans hat

theorem set_self {queue : Nat} (hback_end : pool.back_ends[queue]? = some back_end) :
    pool.set queue back_end = pool := by
  obtain ⟨connections, back_ends⟩ := pool
  obtain ⟨hlt, rfl⟩ := List.getElem?_eq_some_iff.mp hback_end
  exact congrArg (ConnectionPool.mk connections) (List.set_getElem_self hlt)

/-- A queue that is found empty needs no notification. -/
theorem Wakeful.empty (hwakeful : self.Wakeful) (hclient : self.clients[index]? = some client)
    {queue : Nat} (hpoint : client.point = .notifying queue ids)
    (hback_end : self.pool.back_ends[queue]? = some back_end) (hempty : back_end.queue.buf = []) :
    Wakeful ⟨self.pool, self.clients.set index { client with point := .flushing ids }⟩ := by
  rw [← set_self hback_end]
  refine hwakeful.leave hclient (.inl hpoint) rfl hback_end fun call hcall => ?_
  refine (hwakeful _ _ hback_end call hcall).update (fun hregistered => ?_) fun _ _ => ?_
  · exact hregistered.imp_right (Or.imp_left (waking_leave hclient (.inl hpoint)))
  · exact .inr (.inr (.inl hempty))

/-- Where no waker is found, the call was woken or is about to be. -/
theorem Wakeful.not_asleep (hwakeful : self.Wakeful) (hclient : self.clients[index]? = some client)
    {queue : Nat} (hpoint : client.point = .taking queue ids)
    (hback_end : self.pool.back_ends[queue]? = some back_end)
    (hwaker : back_end.queue.waker = none) :
    Wakeful ⟨self.pool, self.clients.set index { client with point := .flushing ids }⟩ := by
  rw [← set_self hback_end]
  refine hwakeful.leave hclient (.inr hpoint) rfl hback_end fun call hcall => ?_
  refine (hwakeful _ _ hback_end call hcall).update (fun hregistered => ?_) fun hregistered _ => ?_
  all_goals
    rw [hwaker] at hregistered
    obtain hnotified | hwaking | hasleep := hregistered
    · exact .inl hnotified
    · exact .inr (.inl (waking_leave hclient (.inr hpoint) hwaking))
    · cases hasleep

/-- The one who takes the waker is to wake the call. -/
theorem Wakeful.take (hwakeful : self.Wakeful) (hclient : self.clients[index]? = some client)
    {queue : Nat} {task : Task} (hpoint : client.point = .taking queue ids)
    (hback_end : self.pool.back_ends[queue]? = some back_end)
    (hwaker : back_end.queue.waker = some task) :
    Wakeful ⟨self.pool.set queue { back_end with queue := { back_end.queue with waker := none } },
      self.clients.set index { client with point := .waking task ids }⟩ := by
  refine hwakeful.leave hclient (.inr hpoint) rfl hback_end fun call hcall => ?_
  refine (hwakeful _ _ hback_end call hcall).update (fun hregistered => ?_) fun hregistered _ => ?_
  all_goals
    rw [hwaker] at hregistered
    obtain hnotified | hwaking | hasleep := hregistered
    · exact .inl hnotified
    · exact .inr (.inl (waking_leave hclient (.inr hpoint) hwaking))
    · cases hasleep
      exact .inr (.inl (waking_of_wakes hclient ⟨ids, rfl⟩))

theorem queue_wake (back_end : StreamBackEnd D) (task : Task) :
    (back_end.wake task).queue = back_end.queue := by
  unfold StreamBackEnd.wake
  split
  · split <;> rfl
  · rfl

theorem phase_wake {task : Task} {call : RaftCall D}
    (hcall : (back_end.wake task).phase = .calling call) :
    ∃ before, back_end.phase = .calling before ∧
      (before.task = task ∧ call = { before with notified := true } ∨
        before.task ≠ task ∧ call = before) := by
  unfold StreamBackEnd.wake at hcall
  split at hcall
  · next before hphase =>
    split at hcall
    · next htask =>
      cases hcall
      exact ⟨before, hphase, .inl ⟨htask, rfl⟩⟩
    · next htask =>
      cases hphase.symm.trans hcall
      exact ⟨call, hphase, .inr ⟨htask, rfl⟩⟩
  · next hphase => exact absurd hcall (hphase call)

/-- The call that is woken is notified, and no other was waiting for this wake-up. -/
theorem Wakeful.wake (hwakeful : self.Wakeful) (hclient : self.clients[index]? = some client)
    {task : Task} (hpoint : client.point = .waking task ids) :
    Wakeful ⟨self.pool.wake task,
      self.clients.set index { client with point := .flushing ids }⟩ := by
  have howed : ∀ queue, self.Owed queue → Owed ⟨self.pool.wake task,
      self.clients.set index { client with point := .flushing ids }⟩ queue := by
    intro queue howed
    refine owed_set hclient (ConnectionPool.grows_wake task) howed ?_
    rintro (⟨id, hmem, hlookup⟩ | ⟨rest, hat⟩)
    · rw [Client.pending_eq hpoint] at hmem
      exact .inl ⟨id, hmem, (ConnectionPool.grows_wake task).lookup id queue hlookup⟩
    · rw [hpoint] at hat
      obtain hat | hat := hat <;> cases hat
  have hwaking : ∀ other, other ≠ task → self.Waking other → Waking ⟨self.pool.wake task,
      self.clients.set index { client with point := .flushing ids }⟩ other := by
    intro other hother hwaking
    refine waking_set hclient hwaking ?_
    rintro ⟨rest, hat⟩
    cases hpoint.symm.trans hat
    exact absurd rfl hother
  intro queue back_end hback_end call hcall
  by_cases hqueue : queue = task.connection
  · -- The back end that has the call of the task, if the call still lives.
    subst hqueue
    obtain ⟨before, hbefore, rfl⟩ : ∃ before,
        self.pool.back_ends[task.connection]? = some before ∧ back_end = before.wake task := by
      change (self.pool.wake task).back_ends[task.connection]? = some back_end at hback_end
      unfold ConnectionPool.wake at hback_end
      split at hback_end
      · next before hbefore =>
        obtain ⟨-, hset⟩ | ⟨hne, -⟩ := back_ends_set hbefore hback_end
        · exact ⟨before, hbefore, hset⟩
        · exact absurd rfl hne
      · next hnone => cases hnone.symm.trans hback_end
    rw [queue_wake]
    obtain ⟨sleeper, hsleeper, ⟨-, rfl⟩ | ⟨htask, rfl⟩⟩ := phase_wake hcall
    · exact (hwakeful _ _ hbefore sleeper hsleeper).update (fun _ => .inl rfl) fun _ _ => .inl rfl
    · exact (hwakeful _ _ hbefore call hsleeper).mono (howed _) (hwaking _ htask)
  · have hfound : self.pool.back_ends[queue]? = some back_end := by
      change (self.pool.wake task).back_ends[queue]? = some back_end at hback_end
      unfold ConnectionPool.wake at hback_end
      split at hback_end
      · next before hbefore =>
        obtain ⟨heq, -⟩ | ⟨-, hfound⟩ := back_ends_set hbefore hback_end
        · exact absurd heq hqueue
        · exact hfound
      · exact hback_end
    have hbefore := hwakeful queue back_end hfound call hcall
    refine hbefore.mono (howed queue) (hwaking call.task ?_)
    rintro rfl
    exact hqueue hbefore.connection.symm

theorem Wakeful.advance (hwakeful : self.Wakeful) (hconsistent : self.Consistent)
    (hclient : self.clients[index]? = some client)
    (hadvances : Client.Advances self.pool client after pool) :
    Wakeful ⟨pool, self.clients.set index after⟩ := by
  have hlater := hconsistent.clients client (List.mem_of_getElem? hclient)
  cases hadvances with
  | push hpoint hcached hbefore hpush _ _ hneed =>
    exact hwakeful.push hconsistent hclient hpoint hcached hbefore hpush hneed
  | empty hpoint hback_end hempty => exact hwakeful.empty hclient hpoint hback_end hempty
  | not_asleep hpoint hback_end hwaker =>
    exact hwakeful.not_asleep hclient hpoint hback_end hwaker
  | take hpoint hback_end hwaker => exact hwakeful.take hclient hpoint hback_end hwaker
  | wake hpoint => exact hwakeful.wake hclient hpoint
  | full hpoint =>
    refine hwakeful.of_not_holds hclient ConnectionPool.grows_refl (fun _ _ => .inl) hpoint rfl ?_
    exact fun id hid queue hlookup => .inl ⟨id, hid, hlookup⟩
  | @load msg rounds used hpoint _ _ _ hneed =>
    refine hwakeful.of_not_holds hclient (ConnectionPool.grows_load _) (fun _ _ => back_ends_load)
      hpoint rfl fun id hid queue hlookup => .inl ⟨id, ?_, hlookup⟩
    change id ∈ used.need_flush
    rwa [hneed]
  | done hpoint =>
    refine hwakeful.of_not_holds hclient ConnectionPool.grows_refl (fun _ _ => .inl) hpoint rfl ?_
    rintro id ⟨⟩
  | @notify id ids cached used hpoint hcached _ _ =>
    refine hwakeful.of_not_holds hclient ConnectionPool.grows_refl (fun _ _ => .inl) hpoint rfl ?_
    intro other hmem queue hlookup
    obtain rfl | hmem := List.mem_cons.mp hmem
    · have hshared := hlater.shared other cached hcached
      cases hlookup.symm.trans hshared
      exact .inr ⟨ids, .inl rfl⟩
    · exact .inl ⟨other, hmem, hlookup⟩
  | @nonempty queue ids hpoint =>
    refine hwakeful.of_kept hclient ConnectionPool.grows_refl (fun _ _ => .inl) ?_ ?_
    · rintro other (⟨id, hmem, hlookup⟩ | ⟨rest, hat⟩)
      · rw [Client.pending_eq hpoint] at hmem
        exact .inl ⟨id, hmem, hlookup⟩
      · rw [hpoint] at hat
        obtain ⟨⟨⟩⟩ | ⟨⟨⟩⟩ := hat
        exact .inr ⟨ids, .inr rfl⟩
    · rintro task ⟨ids, hat⟩
      cases hpoint.symm.trans hat

/-- An idle client that starts a call owes what it owed. -/
theorem Wakeful.of_idle (hwakeful : self.Wakeful) (hclient : self.clients[index]? = some client)
    (hidle : client.point = .idle) (hpending : after.pending = client.pending) :
    Wakeful ⟨self.pool, self.clients.set index after⟩ := by
  refine hwakeful.of_not_holds hclient ConnectionPool.grows_refl (fun _ _ => .inl) hidle rfl ?_
  intro id hid queue hlookup
  rw [← Client.pending_eq hidle, ← hpending] at hid
  exact .inl ⟨id, hid, hlookup⟩

theorem Wakeful.step (hwakeful : self.Wakeful) (hconsistent : self.Consistent)
    (hsteps : Steps self next) : next.Wakeful := by
  cases hsteps with
  | stream hbefore hstep =>
    intro queue back_end hback_end
    obtain ⟨rfl, rfl⟩ | ⟨-, hfound⟩ := back_ends_set hbefore hback_end
    · exact (hwakeful _ _ hbefore).step (StreamBackEnd.steps hstep)
    · exact hwakeful queue back_end hfound
  | clone _ =>
    intro queue back_end hback_end
    refine hwakeful.of_same hback_end ?_ fun task => ?_
    · rintro ⟨client, hmem, howes⟩
      exact ⟨client, List.mem_append_left _ hmem, howes⟩
    · rintro ⟨client, hmem, hwakes⟩
      exact ⟨client, List.mem_append_left _ hmem, hwakes⟩
  | send hclient hidle msg =>
    exact hwakeful.of_idle hclient hidle (Client.pending_eq hidle).symm
  | flush hclient hidle =>
    refine hwakeful.of_idle hclient hidle ?_
    unfold Client.start_flush
    split
    · rfl
    · exact (Client.pending_eq hidle).symm
  | advance hclient hadvance =>
    have hbefore := hconsistent.clients _ (List.mem_of_getElem? hclient)
    exact hwakeful.advance hconsistent hclient (hbefore.advances hadvance)

theorem wakeful_new (hstart : Transport.new = some start) : start.Wakeful := by
  unfold Transport.new at hstart
  obtain ⟨client, -, hnext⟩ := Option.bind_eq_some_iff.mp hstart
  cases hnext
  intro queue back_end hback_end
  cases hback_end

theorem Wakeful.run (hstart : Transport.new = some start) {actions : List (TransportStep D)}
    (hrun : Run.run Transport.step start actions = some last) : last.Wakeful :=
  (consistent_new hstart).run_keeps (fun _ _ => Wakeful.step) (wakeful_new hstart) hrun

end Advance

/-- No wake-up is lost, in any interleaving of the clients and the streams and across
reconnects: while a call sleeps with nothing to send and its queue has messages, some
client has yet to notify the queue or has the waker of the call in its hands. So when every
client has flushed, no call sleeps beside messages. -/
theorem no_lost_wake_up (hstart : Transport.new = some start) {actions : List (TransportStep D)}
    (hrun : Run.run Transport.step start actions = some last) {queue : Nat}
    {back_end : StreamBackEnd D} {call : RaftCall D}
    (hback_end : last.pool.back_ends[queue]? = some back_end)
    (hcall : back_end.phase = .calling call) (hidle : call.point = .idle)
    (hbatch : call.buffer.batch = []) (hbuf : back_end.queue.buf ≠ [])
    (hasleep : call.notified = false) :
    (∃ client ∈ last.clients,
      (∃ id ∈ client.pending, last.pool.connections.lookup id = some queue) ∨
      (∃ ids, client.point = .notifying queue ids ∨ client.point = .taking queue ids) ∨
      ∃ ids, client.point = .waking call.task ids) ∧
    ¬ ∀ client ∈ last.clients, client.point = .idle ∧ client.client.need_flush = [] := by
  have hwakeful := Wakeful.run hstart hrun queue back_end hback_end call hcall
  have hbusy : ∃ client ∈ last.clients,
      (∃ id ∈ client.pending, last.pool.connections.lookup id = some queue) ∨
      (∃ ids, client.point = .notifying queue ids ∨ client.point = .taking queue ids) ∨
      ∃ ids, client.point = .waking call.task ids := by
    obtain hnotified | ⟨client, hmem, hwakes⟩ | hempty | ⟨client, hmem, howes | hat⟩ :=
      hwakeful.owed (.inr (.inr ⟨hidle, hbatch⟩))
    · cases hasleep.symm.trans hnotified
    · exact ⟨client, hmem, .inr (.inr hwakes)⟩
    · exact absurd hempty hbuf
    · exact ⟨client, hmem, .inl howes⟩
    · exact ⟨client, hmem, .inr (.inl hat)⟩
  refine ⟨hbusy, fun hflushed => ?_⟩
  obtain ⟨client, hmem, hclient⟩ := hbusy
  obtain ⟨hpoint, hneed⟩ := hflushed client hmem
  obtain ⟨id, hid, -⟩ | ⟨ids, hat | hat⟩ | ⟨ids, hat⟩ := hclient
  · unfold Client.pending at hid
    rw [hpoint, hneed] at hid
    cases hid
  · cases hpoint.symm.trans hat
  · cases hpoint.symm.trans hat
  · cases hpoint.symm.trans hat

/-- A call that goes to sleep between the loading of its connection and the push. -/
theorem no_lost_wake_up_before_flush :
    ∃ start last : Transport Unit, ∃ back_end call,
      Transport.new = some start ∧
      Run.run Transport.step start [.send 0 ⟨1, ()⟩, .advance 0, .stream 0 .reconnect,
        .stream 0 .poll, .stream 0 .fill, .stream 0 .register, .stream 0 .pop_again,
        .stream 0 (.poll_flush .Pending none), .stream 0 (.receive .Pending),
        .advance 0] = some last ∧
      last.pool.back_ends[0]? = some back_end ∧ back_end.phase = .calling call ∧
      back_end.queue.buf ≠ [] ∧ call.notified = false ∧
      ∃ client ∈ last.clients,
        (∃ id ∈ client.pending, last.pool.connections.lookup id = some 0) ∨
        (∃ ids, client.point = .notifying 0 ids ∨ client.point = .taking 0 ids) ∨
        ∃ ids, client.point = .waking call.task ids := by
  have hbuf : [(⟨1, ()⟩ : RaftMessage Unit)] ≠ [] := List.cons_ne_nil _ _
  refine ⟨_, _, ⟨1, ⟨819200, [⟨1, ()⟩], some ⟨0, 1⟩⟩, 1, .calling ⟨⟨0, 1⟩, ⟨[]⟩, .idle, false⟩,
    [⟨1, ()⟩], []⟩, _, (Option.some_get rfl).symm, (Option.some_get rfl).symm, rfl, rfl, hbuf,
    rfl, ?_⟩
  exact (no_lost_wake_up (Option.some_get rfl).symm (Option.some_get rfl).symm rfl rfl rfl rfl
    hbuf rfl).1

end Transport

end tiny_mq.raft_client
