import Auticuro.TinyMq.Transport

open tikv_util.lru

namespace tiny_mq.raft_client

variable {D : Type}

namespace RaftClient

/-- The key of the connection that carries a message. -/
def key (msg : RaftMessage D) : Nat × Nat := (msg.to_store_id, 0)

def peek (self : RaftClient) (id : Nat × Nat) : Option CachedQueue := self.cache.peek id

end RaftClient

namespace Client

variable {self next : Client D} {pool grown : ConnectionPool D}

/-- The ids that the client still has to notify. -/
def pending (self : Client D) : List (Nat × Nat) :=
  match self.point with
  | .flushing ids => ids
  | .notifying _ ids => ids
  | .taking _ ids => ids
  | .waking _ ids => ids
  | _ => self.client.need_flush

theorem pending_eq {point : ClientPoint D} (hpoint : self.point = point) :
    self.pending = pending { self with point := point } := by
  subst hpoint
  rfl

/-- The cached queues are those of the pool, and those with a message that was not
notified yet are the ones to be flushed. -/
structure Consistent (pool : ConnectionPool D) (user : Client D) : Prop where
  valid : user.client.cache.Valid
  shared : ∀ id cached, user.client.peek id = some cached →
    pool.connections.lookup id = some cached.queue
  dirty : ∀ id, id ∈ user.pending ↔
    ∃ cached, user.client.peek id = some cached ∧ cached.dirty = true
  nodup : user.pending.Nodup
  rounds : ∀ msg rounds, user.point = .sending msg rounds →
    rounds = 0 ∨ rounds = 1 ∧ user.client.peek (RaftClient.key msg) ≠ none
  target : ∀ queue ids, user.point = .notifying queue ids ∨ user.point = .taking queue ids →
    queue < pool.back_ends.length
  panic : ∀ reason, user.point = .panicked reason → reason = .queue_full

/-- What the next step of a client whose cache is in order can be. -/
inductive Advances (pool : ConnectionPool D) (self : Client D) :
    Client D → ConnectionPool D → Prop where
  | push {msg : RaftMessage D} {rounds : Nat} {cached : CachedQueue}
      {before after : StreamBackEnd D} {client : RaftClient}
      (hpoint : self.point = .sending msg rounds)
      (hcached : self.client.peek (RaftClient.key msg) = some cached)
      (hbefore : pool.back_ends[cached.queue]? = some before)
      (hpush : before.push msg = some after) (hvalid : client.cache.Valid)
      (hpeek : ∀ other, client.peek other =
        if other = RaftClient.key msg then some { cached with dirty := true }
        else self.client.peek other)
      (hneed : client.need_flush =
        if cached.dirty then self.client.need_flush
        else self.client.need_flush ++ [RaftClient.key msg]) :
      Advances pool self ⟨client, .idle⟩ (pool.set cached.queue after)
  | full {msg : RaftMessage D} {rounds : Nat} (hpoint : self.point = .sending msg rounds) :
      Advances pool self { self with point := .panicked .queue_full } pool
  | load {msg : RaftMessage D} {rounds : Nat} {client : RaftClient}
      (hpoint : self.point = .sending msg rounds)
      (habsent : self.client.peek (RaftClient.key msg) = none) (hvalid : client.cache.Valid)
      (hpeek : ∀ other, client.peek other =
        if other = RaftClient.key msg then
          some ⟨(pool.load (RaftClient.key msg)).1, false⟩
        else self.client.peek other)
      (hneed : client.need_flush = self.client.need_flush) :
      Advances pool self ⟨client, .sending msg (rounds + 1)⟩ (pool.load (RaftClient.key msg)).2
  | done (hpoint : self.point = .flushing []) :
      Advances pool self ⟨{ self.client with need_flush := [] }, .idle⟩ pool
  | notify {id : Nat × Nat} {ids : List (Nat × Nat)} {cached : CachedQueue} {client : RaftClient}
      (hpoint : self.point = .flushing (id :: ids))
      (hcached : self.client.peek id = some cached) (hvalid : client.cache.Valid)
      (hpeek : ∀ other, client.peek other =
        if other = id then some { cached with dirty := false } else self.client.peek other) :
      Advances pool self ⟨client, .notifying cached.queue ids⟩ pool
  | empty {queue : Nat} {ids : List (Nat × Nat)} {back_end : StreamBackEnd D}
      (hpoint : self.point = .notifying queue ids)
      (hback_end : pool.back_ends[queue]? = some back_end) (hempty : back_end.queue.buf = []) :
      Advances pool self { self with point := .flushing ids } pool
  | nonempty {queue : Nat} {ids : List (Nat × Nat)} (hpoint : self.point = .notifying queue ids) :
      Advances pool self { self with point := .taking queue ids } pool
  | not_asleep {queue : Nat} {ids : List (Nat × Nat)} {back_end : StreamBackEnd D}
      (hpoint : self.point = .taking queue ids)
      (hback_end : pool.back_ends[queue]? = some back_end) (hwaker : back_end.queue.waker = none) :
      Advances pool self { self with point := .flushing ids } pool
  | take {queue : Nat} {ids : List (Nat × Nat)} {back_end : StreamBackEnd D} {task : Task}
      (hpoint : self.point = .taking queue ids)
      (hback_end : pool.back_ends[queue]? = some back_end)
      (hwaker : back_end.queue.waker = some task) :
      Advances pool self { self with point := .waking task ids }
        (pool.set queue { back_end with queue := { back_end.queue with waker := none } })
  | wake {task : Task} {ids : List (Nat × Nat)} (hpoint : self.point = .waking task ids) :
      Advances pool self { self with point := .flushing ids } (pool.wake task)

end Client

namespace ConnectionPool

variable {self : ConnectionPool D}

/-- The pool after a step: it may have more connections. -/
structure Grows (pool next : ConnectionPool D) : Prop where
  lookup : ∀ id queue, pool.connections.lookup id = some queue →
    next.connections.lookup id = some queue
  length : pool.back_ends.length ≤ next.back_ends.length

/-- Each connection has a back end of its own, for the store of its key. -/
structure Valid (pool : ConnectionPool D) : Prop where
  back_end : ∀ id queue, pool.connections.lookup id = some queue →
    ∃ back_end, pool.back_ends[queue]? = some back_end ∧ back_end.store_id = id.1
  injective : ∀ id other queue, pool.connections.lookup id = some queue →
    pool.connections.lookup other = some queue → id = other

theorem grows_refl : self.Grows self := ⟨fun _ _ hlookup => hlookup, le_rfl⟩

theorem grows_set (queue : Nat) (back_end : StreamBackEnd D) :
    self.Grows (self.set queue back_end) :=
  ⟨fun _ _ hlookup => hlookup, (List.length_set ..).ge⟩

theorem grows_wake (task : Task) : self.Grows (self.wake task) := by
  unfold wake
  split
  · exact grows_set _ _
  · exact grows_refl

theorem grows_load (key : Nat × Nat) : self.Grows (self.load key).2 := by
  unfold load
  split
  · exact grows_refl
  · next hnone =>
    refine ⟨fun id queue hlookup => ?_, ?_⟩
    · rw [Finmap.lookup_insert_of_ne]
      · exact hlookup
      · rintro rfl
        cases hnone.symm.trans hlookup
    · simp

theorem lookup_load (key : Nat × Nat) :
    (self.load key).2.connections.lookup key = some (self.load key).1 := by
  unfold load
  split
  · next hsome => exact hsome
  · exact Finmap.lookup_insert _

namespace Valid

theorem set (hvalid : self.Valid) {queue : Nat} {before after : StreamBackEnd D}
    (hbefore : self.back_ends[queue]? = some before) (hstore : after.store_id = before.store_id) :
    (self.set queue after).Valid where
  injective := hvalid.injective
  back_end := by
    intro id other hlookup
    obtain ⟨back_end, hback_end, hid⟩ := hvalid.back_end id other hlookup
    change ∃ back_end, (self.back_ends.set queue after)[other]? = some back_end ∧ _
    by_cases hsame : queue = other
    · subst hsame
      cases hbefore.symm.trans hback_end
      refine ⟨after, ?_, hstore.trans hid⟩
      exact List.getElem?_set_self (List.getElem?_eq_some_iff.mp hbefore).1
    · exact ⟨back_end, (List.getElem?_set_ne hsame).trans hback_end, hid⟩

theorem load (hvalid : self.Valid) (key : Nat × Nat) : (self.load key).2.Valid := by
  unfold ConnectionPool.load
  split
  · exact hvalid
  · next hnone =>
    have hbelow : ∀ id queue, self.connections.lookup id = some queue →
        queue < self.back_ends.length := by
      intro id queue hlookup
      obtain ⟨back_end, hback_end, -⟩ := hvalid.back_end id queue hlookup
      exact (List.getElem?_eq_some_iff.mp hback_end).1
    constructor
    · intro id queue hlookup
      rw [Finmap.lookup_insert_eq_ite] at hlookup
      split at hlookup
      · next heq =>
        cases hlookup
        exact ⟨.new key.1, by simp, by rw [heq]; rfl⟩
      · obtain ⟨back_end, hback_end, hid⟩ := hvalid.back_end id queue hlookup
        refine ⟨back_end, ?_, hid⟩
        rw [List.getElem?_append_left (hbelow id queue hlookup)]
        exact hback_end
    · intro id other queue hid hother
      rw [Finmap.lookup_insert_eq_ite] at hid hother
      split at hid
      · next heq =>
        cases hid
        split at hother
        · next hsame => exact heq.trans hsame.symm
        · exact absurd (hbelow other _ hother) (Nat.lt_irrefl _)
      · split at hother
        · cases hother
          exact absurd (hbelow id _ hid) (Nat.lt_irrefl _)
        · exact hvalid.injective id other queue hid hother

end Valid

end ConnectionPool

namespace RaftClient

variable {self : RaftClient} {pool : ConnectionPool D}

theorem mark_dirty_eq (hvalid : self.cache.Valid) (key : Nat × Nat) :
    ∃ client : RaftClient, client.cache.Valid ∧
      (∀ other, client.peek other =
        if other = key then (self.peek key).map fun cached => { cached with dirty := true }
        else self.peek other) ∧
      self.mark_dirty key =
        some (client, (self.peek key).map CachedQueue.queue) ∧
      client.need_flush = match self.peek key with
        | some cached => if cached.dirty then self.need_flush else self.need_flush ++ [key]
        | none => self.need_flush := by
  obtain ⟨cache, hget, hvalid, hpeek⟩ :=
    hvalid.get_mut key fun cached => { cached with dirty := true }
  refine ⟨⟨cache, _⟩, hvalid, hpeek, ?_, rfl⟩
  unfold mark_dirty peek
  rw [hget]
  cases self.cache.peek key with
  | none | some cached => rfl

theorem clear_dirty_eq (hvalid : self.cache.Valid) (key : Nat × Nat) :
    ∃ cache, cache.Valid ∧
      (∀ other, cache.peek other =
        if other = key then (self.peek key).map fun cached => { cached with dirty := false }
        else self.peek other) ∧
      self.clear_dirty key = some ({ self with cache := cache },
        (self.peek key).map fun cached => if cached.dirty then some cached.queue else none) := by
  obtain ⟨cache, hget, hvalid, hpeek⟩ :=
    hvalid.get_mut key fun cached => { cached with dirty := false }
  refine ⟨cache, hvalid, hpeek, ?_⟩
  unfold clear_dirty
  rw [hget]
  rfl

/-- The keys of the cache and one more of the pool. -/
theorem len_lt_of_absent {key : Nat × Nat} (habsent : self.peek key = none)
    (hshared : ∀ id cached, self.peek id = some cached → id ∈ pool.connections)
    (hkey : key ∈ pool.connections) : self.cache.len < pool.len := by
  refine Finset.card_lt_card ?_
  rw [Finset.ssubset_iff_of_subset]
  · refine ⟨key, Finmap.mem_keys.mpr hkey, fun hmem => ?_⟩
    obtain ⟨entry, hentry⟩ := Finmap.mem_iff.mp (Finmap.mem_keys.mp hmem)
    unfold peek LruCache.peek at habsent
    rw [hentry] at habsent
    cases habsent
  · intro id hmem
    obtain ⟨entry, hentry⟩ := Finmap.mem_iff.mp (Finmap.mem_keys.mp hmem)
    refine Finmap.mem_keys.mpr (hshared id entry.value ?_)
    unfold peek LruCache.peek
    rw [hentry]
    rfl

/-- The cache has room for every connection of the pool, so that loading one evicts no
other. -/
theorem load_stream_eq (hvalid : self.cache.Valid) {key : Nat × Nat}
    (hshared : ∀ id cached, self.peek id = some cached →
      pool.connections.lookup id = some cached.queue)
    (habsent : self.peek key = none) :
    ∃ client : RaftClient, client.cache.Valid ∧
      (∀ other, client.peek other =
        if other = key then some ⟨(pool.load key).1, false⟩ else self.peek other) ∧
      client.need_flush = self.need_flush ∧
      self.load_stream pool key = some (client, (pool.load key).2) := by
  have hlt : self.cache.len < (pool.load key).2.len := by
    refine len_lt_of_absent habsent (fun id cached hpeek => ?_) ?_
    · exact Finmap.mem_of_lookup_eq_some
        ((ConnectionPool.grows_load key).lookup id _ (hshared id cached hpeek))
    · exact Finmap.mem_of_lookup_eq_some (ConnectionPool.lookup_load key)
  obtain ⟨resized, hresized, hvalid, hcapacity, hmap⟩ :=
    hvalid.resize hlt.le (Nat.zero_lt_of_lt hlt)
  have hpeek : ∀ id, resized.peek id = self.peek id := by
    intro id
    unfold peek LruCache.peek
    rw [hmap]
  have hroom : resized.len < resized.capacity := by
    unfold LruCache.len at hlt ⊢
    rw [hmap, hcapacity]
    exact hlt
  obtain ⟨cache, hcache, hvalid, hinserted⟩ :=
    hvalid.insert ((hpeek key).trans habsent) hroom ⟨(pool.load key).1, false⟩
  refine ⟨{ self with cache := cache }, hvalid, fun other => ?_, rfl, ?_⟩
  · unfold peek
    rw [hinserted other, hpeek]
    rfl
  · unfold load_stream
    simp [hresized, hcache]

end RaftClient

namespace Client

variable {self next : Client D} {pool after : ConnectionPool D}

theorem Consistent.advances (hconsistent : self.Consistent pool)
    (hadvance : self.advance pool = some (next, after)) : Advances pool self next after := by
  unfold advance at hadvance
  split at hadvance
  · cases hadvance
  · cases hadvance
  · next msg rounds hpoint =>
    unfold send_round at hadvance
    dsimp only at hadvance
    obtain ⟨client, hvalid, hpeek, hmark, hneed⟩ :=
      RaftClient.mark_dirty_eq hconsistent.valid (RaftClient.key msg)
    cases hcached : self.client.peek (RaftClient.key msg) with
    | none =>
      rw [hcached] at hmark hneed hpeek
      have hsame : ∀ other, client.peek other = self.client.peek other := by
        intro other
        rw [hpeek]
        split
        · next heq =>
          rw [heq, hcached]
          rfl
        · rfl
      have hshared : ∀ id cached, client.peek id = some cached →
          pool.connections.lookup id = some cached.queue := by
        intro id cached hid
        exact hconsistent.shared id cached ((hsame id).symm.trans hid)
      obtain ⟨loaded, hloaded, hlater, hflush, hload⟩ :=
        RaftClient.load_stream_eq hvalid hshared ((hsame _).trans hcached)
      have hrun := hmark
      unfold RaftClient.key at hrun hload
      rw [hrun] at hadvance
      dsimp only [Option.map_none] at hadvance
      rw [hload] at hadvance
      cases hadvance
      refine .load hpoint hcached hloaded (fun other => ?_) (hflush.trans hneed)
      rw [hlater, hsame]
    | some cached =>
      rw [hcached] at hmark hneed hpeek
      have hrun := hmark
      unfold RaftClient.key at hrun
      rw [hrun] at hadvance
      dsimp only [Option.map_some] at hadvance
      split at hadvance
      · cases hadvance
      · next before hbefore =>
        split at hadvance
        · cases hadvance
          exact .full hpoint
        · next after hpush =>
          cases hadvance
          exact .push hpoint hcached hbefore hpush hvalid hpeek hneed
  · next hpoint =>
    cases hadvance
    exact .done hpoint
  · next id ids hpoint =>
    have hid : id ∈ self.pending := by
      rw [pending_eq hpoint]
      exact List.mem_cons_self
    obtain ⟨cached, hcached, hdirty⟩ := (hconsistent.dirty id).mp hid
    obtain ⟨cache, hvalid, hpeek, hclear⟩ := RaftClient.clear_dirty_eq hconsistent.valid id
    rw [hcached] at hpeek hclear
    simp only [Option.map_some, hdirty, if_true] at hclear
    unfold flush_round at hadvance
    rw [hclear] at hadvance
    cases hadvance
    exact .notify hpoint hcached hvalid hpeek
  · next queue ids hpoint =>
    obtain ⟨back_end, hback_end, hnext⟩ := Option.map_eq_some_iff.mp hadvance
    split at hnext
    · next hempty =>
      cases hnext
      exact .empty hpoint hback_end (List.isEmpty_iff.mp hempty)
    · cases hnext
      exact .nonempty hpoint
  · next queue ids hpoint =>
    obtain ⟨back_end, hback_end, hnext⟩ := Option.map_eq_some_iff.mp hadvance
    split at hnext
    · next hwaker =>
      cases hnext
      exact .not_asleep hpoint hback_end hwaker
    · next task hwaker =>
      cases hnext
      exact .take hpoint hback_end hwaker
  · next task ids hpoint =>
    cases hadvance
    exact .wake hpoint

theorem Consistent.mono (hconsistent : self.Consistent pool) (hgrows : pool.Grows after) :
    self.Consistent after where
  valid := hconsistent.valid
  shared := fun id cached hpeek => hgrows.lookup id _ (hconsistent.shared id cached hpeek)
  dirty := hconsistent.dirty
  nodup := hconsistent.nodup
  rounds := hconsistent.rounds
  target := fun queue ids hpoint => (hconsistent.target queue ids hpoint).trans_le hgrows.length
  panic := hconsistent.panic

variable {client : RaftClient}

theorem consistent_idle (hvalid : client.cache.Valid)
    (hshared : ∀ id cached, client.peek id = some cached →
      pool.connections.lookup id = some cached.queue) (hdirty : ∀ id, id ∈ client.need_flush ↔
      ∃ cached, client.peek id = some cached ∧ cached.dirty = true)
    (hnodup : client.need_flush.Nodup) : Consistent pool ⟨client, .idle⟩ where
  valid := hvalid
  shared := hshared
  dirty := hdirty
  nodup := hnodup
  rounds := by rintro msg rounds ⟨⟩
  target := by rintro queue ids (⟨⟨⟩⟩ | ⟨⟨⟩⟩)
  panic := by rintro reason ⟨⟩

/-- A client that has changed one of its cached queues: the id is pending if the queue is
dirty now, and the other ids are pending as before. -/
theorem Consistent.set_queue (hconsistent : self.Consistent pool) {key : Nat × Nat} {queue : Nat}
    {dirty : Bool} (hvalid : next.client.cache.Valid)
    (hqueue : pool.connections.lookup key = some queue)
    (hpeek : ∀ other, next.client.peek other =
      if other = key then some ⟨queue, dirty⟩ else self.client.peek other)
    (hkey : key ∈ next.pending ↔ dirty = true)
    (hothers : ∀ id, id ≠ key → (id ∈ next.pending ↔ id ∈ self.pending))
    (hnodup : next.pending.Nodup)
    (hrounds : ∀ msg rounds, next.point = .sending msg rounds →
      rounds = 0 ∨ rounds = 1 ∧ next.client.peek (RaftClient.key msg) ≠ none)
    (htarget : ∀ queue ids, next.point = .notifying queue ids ∨ next.point = .taking queue ids →
      queue < pool.back_ends.length)
    (hpanic : ∀ reason, next.point = .panicked reason → reason = .queue_full) :
    next.Consistent pool where
  valid := hvalid
  shared := by
    intro id cached hid
    rw [hpeek] at hid
    split at hid
    · next heq =>
      cases hid
      rw [heq]
      exact hqueue
    · exact hconsistent.shared id cached hid
  dirty := by
    intro id
    rw [hpeek]
    by_cases hid : id = key
    · rw [if_pos hid, hid, hkey]
      simp
    · rw [if_neg hid, hothers id hid]
      exact hconsistent.dirty id
  nodup := hnodup
  rounds := hrounds
  target := htarget
  panic := hpanic

theorem consistent_new (hclient : RaftClient.new = some client) :
    Consistent pool ⟨client, .idle⟩ := by
  obtain ⟨cache, hcache, hvalid, hpeek⟩ :=
    LruCache.Valid.with_capacity_and_sample (K := Nat × Nat) (V := CachedQueue) 0 7
  unfold RaftClient.new at hclient
  rw [hcache] at hclient
  cases hclient
  have hnone : ∀ id, RaftClient.peek ⟨cache, []⟩ id = none := hpeek
  refine consistent_idle hvalid ?_ ?_ .nil
  · intro id cached hsome
    cases (hnone id).symm.trans hsome
  · intro id
    simp [hnone]

/-- A step that changes only where the thread is. -/
theorem Consistent.move (hconsistent : self.Consistent pool) {point : ClientPoint D}
    (hpending : pending { self with point := point } = self.pending)
    (hsending : ∀ msg rounds, point = .sending msg rounds → rounds = 0)
    (htarget : ∀ queue ids, point = .notifying queue ids ∨ point = .taking queue ids →
      queue < pool.back_ends.length)
    (hpanic : ∀ reason, point = .panicked reason → reason = .queue_full) :
    Consistent pool { self with point := point } where
  valid := hconsistent.valid
  shared := hconsistent.shared
  dirty := by
    rw [hpending]
    exact hconsistent.dirty
  nodup := by
    rw [hpending]
    exact hconsistent.nodup
  rounds := fun msg rounds hpoint => .inl (hsending msg rounds hpoint)
  target := htarget
  panic := hpanic

theorem Consistent.to_flushing (hconsistent : self.Consistent pool) {ids : List (Nat × Nat)}
    (hpending : self.pending = ids) : Consistent pool { self with point := .flushing ids } := by
  refine hconsistent.move hpending.symm ?_ ?_ ?_
  · rintro msg rounds ⟨⟩
  · rintro queue ids (⟨⟨⟩⟩ | ⟨⟨⟩⟩)
  · rintro reason ⟨⟩

theorem Advances.grows (hadvances : Advances pool self next after) : pool.Grows after := by
  cases hadvances with
  | push => exact ConnectionPool.grows_set _ _
  | load => exact ConnectionPool.grows_load _
  | take => exact ConnectionPool.grows_set _ _
  | wake => exact ConnectionPool.grows_wake _
  | _ => exact ConnectionPool.grows_refl

section

variable (hconsistent : self.Consistent pool)
include hconsistent

/-- A message is pushed: its queue is dirty now. -/
theorem Consistent.push {msg : RaftMessage D} {rounds : Nat} {cached : CachedQueue}
    (hpoint : self.point = .sending msg rounds)
    (hcached : self.client.peek (RaftClient.key msg) = some cached) (hvalid : client.cache.Valid)
    (hpeek : ∀ other, client.peek other =
      if other = RaftClient.key msg then some { cached with dirty := true }
      else self.client.peek other) (hneed : client.need_flush =
      if cached.dirty then self.client.need_flush
      else self.client.need_flush ++ [RaftClient.key msg]) : Consistent pool ⟨client, .idle⟩ := by
  have hpending : self.pending = self.client.need_flush := pending_eq hpoint
  have hkey : RaftClient.key msg ∈ self.pending ↔ cached.dirty = true := by
    rw [hconsistent.dirty, hcached]
    simp
  obtain ⟨hmem, hothers, hnodup⟩ : RaftClient.key msg ∈ client.need_flush ∧
      (∀ id, id ≠ RaftClient.key msg → (id ∈ client.need_flush ↔ id ∈ self.pending)) ∧
      client.need_flush.Nodup := by
    rw [hneed, ← hpending]
    split
    · next hdirty => exact ⟨hkey.mpr hdirty, fun _ _ => Iff.rfl, hconsistent.nodup⟩
    · next hclean =>
      refine ⟨by simp, fun id hid => by simp [hid], ?_⟩
      rw [← List.concat_eq_append]
      exact hconsistent.nodup.concat (hkey.not.mpr hclean)
  exact hconsistent.set_queue hvalid (hconsistent.shared _ cached hcached) hpeek
    (iff_of_true hmem rfl) hothers hnodup (by rintro msg rounds ⟨⟩)
    (by rintro queue ids (⟨⟨⟩⟩ | ⟨⟨⟩⟩)) (by rintro reason ⟨⟩)

/-- An id that was not cached is loaded, with a queue that is clean. -/
theorem Consistent.load {msg : RaftMessage D} {rounds : Nat}
    (hpoint : self.point = .sending msg rounds)
    (habsent : self.client.peek (RaftClient.key msg) = none) (hvalid : client.cache.Valid)
    (hpeek : ∀ other, client.peek other =
      if other = RaftClient.key msg then some ⟨(pool.load (RaftClient.key msg)).1, false⟩
      else self.client.peek other) (hneed : client.need_flush = self.client.need_flush) :
    Consistent (pool.load (RaftClient.key msg)).2 ⟨client, .sending msg (rounds + 1)⟩ := by
  have hpending : pending ⟨client, .sending msg (rounds + 1)⟩ = self.pending :=
    hneed.trans (pending_eq hpoint).symm
  refine (hconsistent.mono (ConnectionPool.grows_load _)).set_queue hvalid
    (ConnectionPool.lookup_load _) hpeek ?_ ?_ ?_ ?_ (by rintro queue ids (⟨⟨⟩⟩ | ⟨⟨⟩⟩))
    (by rintro reason ⟨⟩)
  · rw [hpending, hconsistent.dirty, habsent]
    simp
  · intro id _
    rw [hpending]
  · rw [hpending]
    exact hconsistent.nodup
  · rintro other later ⟨⟩
    obtain rfl | ⟨-, hloaded⟩ := hconsistent.rounds msg rounds hpoint
    · refine .inr ⟨rfl, ?_⟩
      rw [hpeek, if_pos rfl]
      exact Option.some_ne_none _
    · exact absurd habsent hloaded

/-- The next queue is clean before its stream is notified. -/
theorem Consistent.notify (hpool : pool.Valid) {id : Nat × Nat} {ids : List (Nat × Nat)}
    {cached : CachedQueue} (hpoint : self.point = .flushing (id :: ids))
    (hcached : self.client.peek id = some cached) (hvalid : client.cache.Valid)
    (hpeek : ∀ other, client.peek other =
      if other = id then some { cached with dirty := false } else self.client.peek other) :
    Consistent pool ⟨client, .notifying cached.queue ids⟩ := by
  have hpending : self.pending = id :: ids := pending_eq hpoint
  have hqueue := hconsistent.shared id cached hcached
  have hnodup := hconsistent.nodup
  rw [hpending, List.nodup_cons] at hnodup
  refine hconsistent.set_queue hvalid hqueue hpeek ?_ ?_ hnodup.2 (by rintro msg rounds ⟨⟩) ?_
    (by rintro reason ⟨⟩)
  · exact iff_of_false hnodup.1 Bool.false_ne_true
  · intro other hother
    rw [hpending, List.mem_cons, or_iff_right hother]
    rfl
  · rintro queue rest (hnotify | ⟨⟨⟩⟩)
    cases hnotify
    obtain ⟨back_end, hback_end, -⟩ := hpool.back_end id cached.queue hqueue
    exact (List.getElem?_eq_some_iff.mp hback_end).1

theorem Advances.consistent (hpool : pool.Valid) (hadvances : Advances pool self next after) :
    next.Consistent after := by
  have hgrows := hadvances.grows
  cases hadvances with
  | push hpoint hcached _ _ hvalid hpeek hneed =>
    exact (hconsistent.push hpoint hcached hvalid hpeek hneed).mono hgrows
  | load hpoint habsent hvalid hpeek hneed =>
    exact hconsistent.load hpoint habsent hvalid hpeek hneed
  | notify hpoint hcached hvalid hpeek =>
    exact hconsistent.notify hpool hpoint hcached hvalid hpeek
  | done hpoint =>
    have hpending : self.pending = [] := pending_eq hpoint
    have hdirty := hconsistent.dirty
    rw [hpending] at hdirty
    exact consistent_idle hconsistent.valid hconsistent.shared hdirty .nil
  | @full msg rounds hpoint =>
    refine hconsistent.move (pending_eq hpoint).symm ?_ ?_ ?_
    · rintro msg rounds ⟨⟩
    · rintro queue ids (⟨⟨⟩⟩ | ⟨⟨⟩⟩)
    · rintro reason ⟨⟩
      rfl
  | @nonempty queue ids hpoint =>
    refine hconsistent.move (pending_eq hpoint).symm ?_ ?_ ?_
    · rintro msg rounds ⟨⟩
    · rintro other rest (⟨⟨⟩⟩ | htaking)
      cases htaking
      exact hconsistent.target queue ids (.inl hpoint)
    · rintro reason ⟨⟩
  | empty hpoint | not_asleep hpoint => exact hconsistent.to_flushing (pending_eq hpoint)
  | take hpoint =>
    refine (hconsistent.move ?_ ?_ ?_ ?_).mono hgrows
    · exact (pending_eq hpoint).symm
    · rintro msg rounds ⟨⟩
    · rintro queue ids (⟨⟨⟩⟩ | ⟨⟨⟩⟩)
    · rintro reason ⟨⟩
  | wake hpoint =>
    exact (hconsistent.to_flushing (pending_eq hpoint)).mono hgrows

end

/-- A key that was loaded stays in the cache. -/
theorem Advances.peek_ne_none (hadvances : Advances pool self next after) {id : Nat × Nat}
    (hcached : self.client.peek id ≠ none) : next.client.peek id ≠ none := by
  cases hadvances with
  | push _ _ _ _ _ hpeek _ | load _ _ _ hpeek _ | notify _ _ _ hpeek =>
    rw [hpeek]
    split
    · exact Option.some_ne_none _
    · exact hcached
  | _ => exact hcached

theorem Consistent.start_flush (hconsistent : self.Consistent pool) (hidle : self.point = .idle) :
    self.start_flush.Consistent pool := by
  unfold Client.start_flush
  split
  · exact hconsistent
  · exact hconsistent.to_flushing (pending_eq hidle)

end Client

namespace StreamBackEnd

variable {self next : StreamBackEnd D}

theorem push_store_id {msg : RaftMessage D} (hpush : self.push msg = some next) :
    next.store_id = self.store_id := by
  obtain ⟨queue, -, rfl⟩ := Option.map_eq_some_iff.mp hpush
  rfl

theorem wake_store_id (task : Task) : (self.wake task).store_id = self.store_id := by
  unfold wake
  split
  · split <;> rfl
  · rfl

theorem step_store_id {connection : Nat} (hsteps : Steps self connection next) :
    next.store_id = self.store_id := by
  cases hsteps with
  | _ => rfl

end StreamBackEnd

namespace Client

variable {self next : Client D} {pool after : ConnectionPool D}

theorem Advances.valid (hpool : pool.Valid) (hadvances : Advances pool self next after) :
    after.Valid := by
  cases hadvances with
  | push _ _ hbefore hpush _ _ _ =>
    exact hpool.set hbefore (StreamBackEnd.push_store_id hpush)
  | load => exact hpool.load _
  | take _ hback_end _ => exact hpool.set hback_end rfl
  | wake =>
    unfold ConnectionPool.wake
    split
    · next hback_end => exact hpool.set hback_end (StreamBackEnd.wake_store_id _)
    · exact hpool
  | _ => exact hpool

end Client

namespace Transport

variable {self next start middle last : Transport D}

structure Consistent (transport : Transport D) : Prop where
  pool : transport.pool.Valid
  clients : ∀ client ∈ transport.clients, client.Consistent transport.pool

theorem consistent_new (hstart : Transport.new = some start) : start.Consistent := by
  unfold Transport.new at hstart
  obtain ⟨client, hclient, hnext⟩ := Option.bind_eq_some_iff.mp hstart
  cases hnext
  constructor
  · exact ⟨by rintro id queue ⟨⟩, by rintro id other queue ⟨⟩⟩
  · intro other hother
    rw [List.mem_singleton] at hother
    rw [hother]
    exact Client.consistent_new hclient

namespace Consistent

/-- The clients that a step does not touch. -/
theorem set_client (hconsistent : self.Consistent) {pool : ConnectionPool D}
    (hpool : pool.Valid) (hgrows : self.pool.Grows pool) {index : Nat} {client : Client D}
    (hclient : client.Consistent pool) :
    Consistent ⟨pool, self.clients.set index client⟩ where
  pool := hpool
  clients := by
    intro other hother
    obtain hmem | rfl := List.mem_or_eq_of_mem_set hother
    · exact (hconsistent.clients other hmem).mono hgrows
    · exact hclient

theorem step (hconsistent : self.Consistent) (hsteps : Steps self next) : next.Consistent := by
  cases hsteps with
  | stream hbefore hstep =>
    have hstore := StreamBackEnd.step_store_id (StreamBackEnd.steps hstep)
    refine ⟨hconsistent.pool.set hbefore hstore, fun client hmem => ?_⟩
    exact (hconsistent.clients client hmem).mono (ConnectionPool.grows_set _ _)
  | clone hclient =>
    refine ⟨hconsistent.pool, fun other hother => ?_⟩
    obtain hmem | hnew := List.mem_append.mp hother
    · exact hconsistent.clients other hmem
    · rw [List.mem_singleton] at hnew
      rw [hnew]
      exact Client.consistent_new hclient
  | @send index client hclient hidle msg =>
    have hbefore := hconsistent.clients client (List.mem_of_getElem? hclient)
    refine hconsistent.set_client hconsistent.pool ConnectionPool.grows_refl ?_
    refine hbefore.move (Client.pending_eq hidle).symm ?_ ?_ ?_
    · rintro other rounds ⟨⟩
      rfl
    · rintro queue ids (⟨⟨⟩⟩ | ⟨⟨⟩⟩)
    · rintro reason ⟨⟩
  | @flush index client hclient hidle =>
    have hbefore := hconsistent.clients client (List.mem_of_getElem? hclient)
    exact hconsistent.set_client hconsistent.pool ConnectionPool.grows_refl
      (hbefore.start_flush hidle)
  | @advance index client after pool hclient hadvance =>
    have hbefore := hconsistent.clients client (List.mem_of_getElem? hclient)
    have hadvances := hbefore.advances hadvance
    exact hconsistent.set_client (hadvances.valid hconsistent.pool) hadvances.grows
      (hadvances.consistent hbefore hconsistent.pool)

theorem run (hconsistent : self.Consistent) {actions : List (TransportStep D)}
    (hrun : Run.run Transport.step self actions = some last) : last.Consistent :=
  Run.run_invariant (fun _ _ _ hinv hstep => hinv.step (steps hstep)) hconsistent hrun

/-- What the steps from consistent states keep. -/
theorem run_keeps (hconsistent : self.Consistent) {P : Transport D → Prop}
    (hkeeps : ∀ state next, P state → state.Consistent → Steps state next → P next)
    (hself : P self) {actions : List (TransportStep D)}
    (hrun : Run.run Transport.step self actions = some last) : P last := by
  have hboth : ∀ (state : Transport D) action next, state.Consistent ∧ P state →
      state.step action = some next → next.Consistent ∧ P next := by
    intro state action next hstate hstep
    exact ⟨hstate.1.step (steps hstep), hkeeps state next hstate.2 hstate.1 (steps hstep)⟩
  exact (Run.run_invariant hboth ⟨hconsistent, hself⟩ hrun).2

end Consistent

/-- The client at an index has a key in its cache. -/
def Caches (transport : Transport D) (index : Nat) (id : Nat × Nat) : Prop :=
  ∃ client, transport.clients[index]? = some client ∧ client.client.peek id ≠ none

theorem Caches.set_client {index other : Nat} {id : Nat × Nat} {client after : Client D}
    {pool : ConnectionPool D} (hcaches : self.Caches index id)
    (hclient : self.clients[other]? = some client)
    (hafter : client.client.peek id ≠ none → after.client.peek id ≠ none) :
    Caches ⟨pool, self.clients.set other after⟩ index id := by
  obtain ⟨cached, hcached, hpeek⟩ := hcaches
  by_cases hsame : other = index
  · subst hsame
    cases hcached.symm.trans hclient
    exact ⟨after, List.getElem?_set_self (List.getElem?_eq_some_iff.mp hclient).1, hafter hpeek⟩
  · exact ⟨cached, (List.getElem?_set_ne hsame).trans hcached, hpeek⟩

theorem Caches.step {index : Nat} {id : Nat × Nat} (hcaches : self.Caches index id)
    (hconsistent : self.Consistent) (hsteps : Steps self next) : next.Caches index id := by
  cases hsteps with
  | stream _ _ => exact hcaches
  | clone _ =>
    obtain ⟨client, hclient, hpeek⟩ := hcaches
    refine ⟨client, ?_, hpeek⟩
    rw [List.getElem?_append_left (List.getElem?_eq_some_iff.mp hclient).1]
    exact hclient
  | send hclient _ _ => exact hcaches.set_client hclient fun hpeek => hpeek
  | @flush other client hclient _ =>
    refine hcaches.set_client hclient fun hpeek => ?_
    unfold Client.start_flush
    split
    · exact hpeek
    · exact hpeek
  | @advance other client after pool hclient hadvance =>
    have hbefore := hconsistent.clients client (List.mem_of_getElem? hclient)
    exact hcaches.set_client hclient (hbefore.advances hadvance).peek_ne_none

/-- In every interleaving of the clients and the streams, a client has in its cache the
connections of the pool and none besides: those with a message that was not notified yet
are the ones that it will flush, each once. A message is sent in the second round of the
loop at the latest, no connection is ever evicted, and only a full queue makes a client panic. -/
theorem clients_share_the_connections (hstart : Transport.new = some start)
    {before after : List (TransportStep D)}
    (hbefore : Run.run Transport.step start before = some middle)
    (hafter : Run.run Transport.step middle after = some last) :
    (∀ client ∈ last.clients,
      (∀ id cached, client.client.peek id = some cached →
        last.pool.connections.lookup id = some cached.queue ∧
        ∃ back_end, last.pool.back_ends[cached.queue]? = some back_end ∧
          back_end.store_id = id.1) ∧
      client.pending.Nodup ∧
      (∀ id, id ∈ client.pending ↔
        ∃ cached, client.client.peek id = some cached ∧ cached.dirty = true) ∧
      (∀ msg rounds, client.point = .sending msg rounds →
        rounds = 0 ∨ rounds = 1 ∧ client.client.peek (RaftClient.key msg) ≠ none) ∧
      ∀ reason, client.point = .panicked reason → reason = .queue_full) ∧
    ∀ index id, middle.Caches index id → last.Caches index id := by
  have hmiddle := (consistent_new hstart).run hbefore
  have hlast := hmiddle.run hafter
  constructor
  · intro client hmem
    have hclient := hlast.clients client hmem
    refine ⟨fun id cached hpeek => ?_, hclient.nodup, hclient.dirty, hclient.rounds, hclient.panic⟩
    have hlookup := hclient.shared id cached hpeek
    exact ⟨hlookup, hlast.pool.back_end id cached.queue hlookup⟩
  · intro index id hcaches
    exact hmiddle.run_keeps (P := (Caches · index id)) (fun _ _ => Caches.step) hcaches hafter

/-- A second client is made, and the first one sends a message to a store. -/
def firstMessages : List (TransportStep Unit) :=
  [.clone 0, .send 0 ⟨1, ()⟩, .advance 0, .advance 0]

/-- Both clients send to another store, and the second one to the first store. -/
def moreMessages : List (TransportStep Unit) :=
  [.send 0 ⟨2, ()⟩, .send 1 ⟨2, ()⟩, .advance 1, .advance 0, .advance 0, .advance 1,
    .send 1 ⟨1, ()⟩, .advance 1]

theorem clients_share_the_connections_of_two_stores :
    ∃ start middle last : Transport Unit,
      Transport.new = some start ∧
      Run.run Transport.step start firstMessages = some middle ∧
      Run.run Transport.step middle moreMessages = some last ∧
      middle.Caches 0 (1, 0) ∧ last.Caches 0 (1, 0) := by
  have hstart : Transport.new = some (Transport.new.get rfl : Transport Unit) :=
    (Option.some_get rfl).symm
  obtain ⟨middle, hmiddle⟩ : ∃ middle, middle =
      (Run.run Transport.step (Transport.new.get rfl) firstMessages).get rfl := ⟨_, rfl⟩
  have hbefore : Run.run Transport.step (Transport.new.get rfl) firstMessages = some middle := by
    rw [hmiddle]
    exact (Option.some_get rfl).symm
  have hafter : ∃ last, Run.run Transport.step middle moreMessages = some last := by
    rw [hmiddle]
    exact ⟨_, (Option.some_get rfl).symm⟩
  have hcaches : middle.Caches 0 (1, 0) := by
    rw [hmiddle]
    exact ⟨_, (Option.some_get rfl).symm, Option.isSome_iff_ne_none.mp rfl⟩
  obtain ⟨last, hlast⟩ := hafter
  refine ⟨_, middle, last, hstart, hbefore, hlast, hcaches, ?_⟩
  exact (clients_share_the_connections hstart hbefore hlast).2 0 (1, 0) hcaches

end Transport

end tiny_mq.raft_client
