import Auticuro.Gc.Collection
import Auticuro.Node.History
import Auticuro.Service.QueryEvents

open Run

namespace firm_wallet

open balance_calculator internal_servicepb rocksdb_state state_machine gc service.WalletService

namespace service.WalletService

/-- Sequence numbers as unbounded numbers. -/
def unbounded_add (lhs rhs : Nat) : Option Nat := some (lhs + rhs)

/-- A crash drops a call that has not been answered. -/
def QueryThread.dropped : QueryThread → QueryThread
  | .last_read _ => .start
  | .reading _ => .start
  | thread => thread

/-- An upper bound on the reads that a call still makes. -/
def QueryThread.reads_left (query_events_max_count : Nat) : QueryThread → Nat
  | .start => query_events_max_count + 3
  | .last_read _ => query_events_max_count + 2
  | .reading loop => loop.adjusted_last_seq_num + 2 - loop.seq_num
  | _ => 0

end service.WalletService

namespace node

/-- A node with its history and one call of `query_events`. -/
structure QueriedNode where
  recorded : RecordedNode
  query : QueryThread

inductive QueriedAction where
  | replica (action : Action)
  | query_read
  deriving DecidableEq

namespace QueriedNode

def start_up (batch_size : Nat) : QueriedNode :=
  { recorded := RecordedNode.start_up batch_size, query := .start }

/-- The interleavings of the reads of a call with everything a node does. -/
def step (B : BigDecimal) (config : Option EventLogGCConfig) (request : QueryEventsRequest)
    (query_events_max_count : Nat) (self : QueriedNode) : QueriedAction → Option QueriedNode
  | .replica action =>
    (self.recorded.step B config action).map fun next =>
      { recorded := next, query := if action = .crash then self.query.dropped else self.query }
  | .query_read =>
    some { self with
      query := query_events unbounded_add request query_events_max_count
        self.recorded.replica.db self.query }

end QueriedNode

/-- The events of the history that are numbered from the first to the last. -/
def events_between (history : List Event) (first_seq_num last_seq_num : Nat) : List Event :=
  (history.take last_seq_num).drop (first_seq_num - 1)

variable {history : List Event}

theorem events_between_succ {first_seq_num seq_num : Nat} {event : Event} (hpos : 1 ≤ first_seq_num)
    (hle : first_seq_num ≤ seq_num) (hevent : history[seq_num - 1]? = some event) :
    events_between history first_seq_num seq_num =
      events_between history first_seq_num (seq_num - 1) ++ [event] := by
  obtain ⟨n, rfl⟩ := Nat.exists_eq_add_of_le' (hpos.trans hle)
  rw [Nat.add_sub_cancel] at hevent ⊢
  have hlength := (List.getElem?_eq_some_iff.mp hevent).1
  unfold events_between
  rw [List.take_add_one, hevent, Option.toList_some, List.drop_append_of_le_length]
  rw [List.length_take]
  omega

theorem events_between_congr {before after : List Event}
    {persisted first_seq_num last_seq_num : Nat}
    (hsame : after.take persisted = before.take persisted) (hle : last_seq_num ≤ persisted) :
    events_between after first_seq_num last_seq_num =
      events_between before first_seq_num last_seq_num := by
  have htake := congrArg (List.take last_seq_num) hsame
  rw [List.take_take, List.take_take, Nat.min_eq_left hle] at htake
  unfold events_between
  rw [htake]

/-- A step of the node leaves the persisted part of the history as it is. -/
structure Extends (before after : RecordedNode) : Prop where
  last_le : before.replica.db.last_seq_num ≤ after.replica.db.last_seq_num
  history : after.history.take before.replica.db.last_seq_num =
    before.history.take before.replica.db.last_seq_num

variable {B : BigDecimal} {config : Option EventLogGCConfig}

theorem WalletStep.persisted {allowed : Command → Prop} {wallet next : Wallet}
    (hstep : WalletStep B allowed wallet next) (hlog : wallet.statemachine.EventLog)
    (hlength : history.length = wallet.statemachine.last_seq_num) :
    wallet.statemachine.rocksdb_state.last_seq_num ≤
        next.statemachine.rocksdb_state.last_seq_num ∧
      (record history next.statemachine).take wallet.statemachine.rocksdb_state.last_seq_num =
        history.take wallet.statemachine.rocksdb_state.last_seq_num := by
  have hle := hlog.last_le
  cases hstep with
  | stay => exact ⟨le_rfl, by rw [record_eq_self hlength]⟩
  | reply => exact ⟨le_rfl, by rw [record_eq_self (by exact hlength)]⟩
  | execute =>
    refine ⟨le_rfl, ?_⟩
    rw [record_executed hlength, List.take_append_of_le_length (by omega)]
  | finish => exact ⟨le_rfl, by rw [record_eq_self (by exact hlength)]⟩
  | flush hsettled hflush =>
    obtain ⟨_, rfl⟩ := Wallet.flush_eq_some_iff.mp hflush
    refine ⟨?_, by rw [record_eq_self (by exact hlength)]⟩
    change _ ≤ wallet.flushed_db.last_seq_num
    rw [hsettled]
    exact hle
  | collect from_seq_num to_seq_num =>
    refine ⟨?_, by rw [record_eq_self (by exact hlength)]⟩
    rw [EventLogGCLoop.gc_batch_last_seq_num]
  | restart =>
    refine ⟨le_rfl, ?_⟩
    rw [record_restart hlength hlog, List.take_take, Nat.min_self]

/-- What is stored under a number is the event of the history, and it carries
the number. -/
theorem RecordedNode.Complete.read {wallet : Wallet}
    (hhistory : RecordedNode.Complete history wallet) (hlog : wallet.statemachine.EventLog)
    {seq_num : Nat} {event : Event}
    (hread : wallet.statemachine.rocksdb_state.events.lookup seq_num = some event) :
    history[seq_num - 1]? = some event ∧ Numbered seq_num event := by
  refine ⟨?_, hlog.persisted.valid hread⟩
  have hbounds := hlog.persisted.bounds hread
  have huncached : wallet.statemachine.event_cache.lookup seq_num = none :=
    hlog.cached.eq_none_of_not_range (by omega)
  apply hhistory.stored seq_num event
  rw [StateMachine.get_event_eq_or, huncached, Option.none_or, hread]

section Query

variable (request : QueryEventsRequest) (query_events_max_count : Nat)

/-- The number up to which a call that read this persisted last number reads. -/
def last_queried (persisted_last_seq_num : Nat) : Nat :=
  min (min request.last_seq_num (request.first_seq_num + query_events_max_count - 1))
    persisted_last_seq_num

/-- The response holds exactly the events of the history from the first number
requested to the smallest of the three bounds, in order. -/
structure TrueSlice (history : List Event) (response : QueryEventsResponse) : Prop where
  first_pos : 1 ≤ request.first_seq_num
  first_seq_num : response.first_seq_num = request.first_seq_num
  last_seq_num : response.last_seq_num =
    last_queried request query_events_max_count response.persisted_last_seq_num
  events : response.events =
    events_between history response.first_seq_num response.last_seq_num
  numbers : response.events.map (fun event => event.header.seq_num) =
    List.range' response.first_seq_num (response.last_seq_num + 1 - response.first_seq_num)

/-- What the loop has read so far. -/
structure Reading (history : List Event) (last_seq_num : Nat) (loop : QueryLoop) : Prop where
  valid : loop.Valid
  first : loop.adjusted_first_seq_num = request.first_seq_num
  last : loop.adjusted_last_seq_num =
    last_queried request query_events_max_count loop.persisted_last_seq_num
  persisted : loop.persisted_last_seq_num ≤ last_seq_num
  count : loop.adjusted_last_seq_num + 1 - loop.adjusted_first_seq_num ≤ query_events_max_count
  events : loop.events =
    events_between history loop.adjusted_first_seq_num (loop.seq_num - 1)
  numbers : loop.events.map (fun event => event.header.seq_num) =
    List.range' loop.adjusted_first_seq_num (loop.seq_num - loop.adjusted_first_seq_num)

/-- What holds of a call at each point, given the history and the last number
that is persisted. -/
def Faithful (history : List Event) (last_seq_num : Nat) : QueryThread → Prop
  | .start => True
  | .last_read persisted_last_seq_num => persisted_last_seq_num ≤ last_seq_num
  | .reading loop => Reading request query_events_max_count history last_seq_num loop
  | .replied response => response.error = none →
    response.persisted_last_seq_num ≤ last_seq_num ∧
      TrueSlice request query_events_max_count history response
  | .overflowed => False
  | .assertion_failed => False

end Query

variable {request : QueryEventsRequest} {query_events_max_count : Nat}

theorem last_queried_le (persisted_last_seq_num : Nat) :
    last_queried request query_events_max_count persisted_last_seq_num ≤
      persisted_last_seq_num :=
  Nat.min_le_right _ _

theorem Reading.last_le {last_seq_num : Nat} {loop : QueryLoop}
    (hreading : Reading request query_events_max_count history last_seq_num loop) :
    loop.adjusted_last_seq_num ≤ last_seq_num := by
  rw [hreading.last]
  exact (last_queried_le _).trans hreading.persisted

/-- Steps of the node do not disturb a call. -/
theorem Faithful.extends {before after : RecordedNode} {thread : QueryThread}
    (hextends : Extends before after)
    (hthread : Faithful request query_events_max_count before.history
      before.replica.db.last_seq_num thread) :
    Faithful request query_events_max_count after.history after.replica.db.last_seq_num
      thread := by
  cases thread with
  | start => trivial
  | last_read persisted_last_seq_num => exact le_trans hthread hextends.last_le
  | reading loop =>
    have hreading : Reading request query_events_max_count before.history
      before.replica.db.last_seq_num loop := hthread
    refine ⟨hreading.valid, hreading.first, hreading.last,
      hreading.persisted.trans hextends.last_le, hreading.count, ?_, hreading.numbers⟩
    have hlast := hreading.last_le
    have hseq := hreading.valid.le_last
    rw [events_between_congr hextends.history (by omega)]
    exact hreading.events
  | replied response =>
    intro hok
    obtain ⟨hpersisted, hslice⟩ := hthread hok
    refine ⟨hpersisted.trans hextends.last_le, hslice.first_pos, hslice.first_seq_num,
      hslice.last_seq_num, ?_, hslice.numbers⟩
    have hlast : response.last_seq_num ≤ before.replica.db.last_seq_num := by
      rw [hslice.last_seq_num]
      exact (last_queried_le _).trans hpersisted
    rw [events_between_congr hextends.history hlast]
    exact hslice.events
  | overflowed | assertion_failed => exact hthread

theorem Faithful.dropped {last_seq_num : Nat} {thread : QueryThread}
    (hthread : Faithful request query_events_max_count history last_seq_num thread) :
    Faithful request query_events_max_count history last_seq_num thread.dropped := by
  cases thread with
  | last_read | reading | start => trivial
  | replied | overflowed | assertion_failed => exact hthread

/-- One more event of a loop that finds it. -/
theorem Reading.read {last_seq_num : Nat} {loop : QueryLoop}
    (hreading : Reading request query_events_max_count history last_seq_num loop) {event : Event}
    (hmore : loop.seq_num ≤ loop.adjusted_last_seq_num)
    (hevent : history[loop.seq_num - 1]? = some event) (hnumber : Numbered loop.seq_num event) :
    Reading request query_events_max_count history last_seq_num
      { loop with seq_num := loop.seq_num + 1, events := loop.events ++ [event] } := by
  have hfirst := hreading.valid.first_le
  refine ⟨hreading.valid.read event hmore, hreading.first, hreading.last, hreading.persisted,
    hreading.count, ?_, ?_⟩
  · simp only [Nat.add_sub_cancel]
    rw [events_between_succ hreading.valid.first_pos hfirst hevent, ← hreading.events]
  · have hcount : loop.seq_num + 1 - loop.adjusted_first_seq_num =
        loop.seq_num - loop.adjusted_first_seq_num + 1 := by omega
    simp only [List.map_append, List.map_cons, List.map_nil, hreading.numbers, hcount]
    rw [List.range'_concat, hnumber.1]
    congr 2
    omega

variable (request query_events_max_count) in
/-- The read of the persisted first number ends a call with an error or starts
its loop: unbounded numbers do not overflow. -/
theorem query_events_last_read_cases (db : RocksDBState) (persisted_last_seq_num : Nat) :
    (∃ err, query_events unbounded_add request query_events_max_count db
        (.last_read persisted_last_seq_num) =
      .replied
        { error := some err
          persisted_first_seq_num := db.first_seq_num
          persisted_last_seq_num := persisted_last_seq_num }) ∨
    (InRange request.first_seq_num request.last_seq_num db.first_seq_num
        persisted_last_seq_num ∧
      query_events unbounded_add request query_events_max_count db
          (.last_read persisted_last_seq_num) =
        .reading ⟨db.first_seq_num, persisted_last_seq_num, request.first_seq_num,
          last_queried request query_events_max_count persisted_last_seq_num,
          request.first_seq_num, []⟩) := by
  by_cases hrange : InRange request.first_seq_num request.last_seq_num db.first_seq_num
      persisted_last_seq_num
  · have hsum : 1 ≤ request.first_seq_num + query_events_max_count := by
      have hfirst := hrange.1
      omega
    have hadd : unbounded_add request.first_seq_num query_events_max_count =
        some (request.first_seq_num + query_events_max_count) := rfl
    have hadjust := maybe_adjust_query_range_in_range hrange hadd hsum
    refine .inr ⟨hrange, ?_⟩
    unfold RocksDBState.first_seq_num at hadjust
    simp only [query_events, hadjust]
    rfl
  · refine .inl ⟨.OtherError (out_of_range_reason request.first_seq_num request.last_seq_num
      db.first_seq_num persisted_last_seq_num), ?_⟩
    have hadjust : maybe_adjust_query_range request.first_seq_num request.last_seq_num
        db.first_seq_num persisted_last_seq_num unbounded_add query_events_max_count =
        some (.error (.OtherError (out_of_range_reason request.first_seq_num
          request.last_seq_num db.first_seq_num persisted_last_seq_num))) := if_neg hrange
    unfold RocksDBState.first_seq_num at hadjust
    simp only [query_events, hadjust]
    rfl

/-- The loop starts with nothing read. -/
theorem Reading.start {last_seq_num persisted_first_seq_num persisted_last_seq_num : Nat}
    (hrange : InRange request.first_seq_num request.last_seq_num persisted_first_seq_num
      persisted_last_seq_num) (hpersisted : persisted_last_seq_num ≤ last_seq_num) :
    Reading request query_events_max_count history last_seq_num
      ⟨persisted_first_seq_num, persisted_last_seq_num, request.first_seq_num,
        last_queried request query_events_max_count persisted_last_seq_num,
        request.first_seq_num, []⟩ := by
  obtain ⟨hfirst, hle, -, hlast⟩ := hrange
  have hbounds : request.first_seq_num ≤
      last_queried request query_events_max_count persisted_last_seq_num + 1 ∧
      last_queried request query_events_max_count persisted_last_seq_num + 1 -
        request.first_seq_num ≤ query_events_max_count := by
    unfold last_queried
    omega
  refine ⟨⟨Nat.pos_of_ne_zero hfirst, le_rfl, hbounds.1, (Nat.sub_self _).symm⟩, rfl, rfl,
    hpersisted, hbounds.2, ?_, ?_⟩
  · unfold events_between
    rw [List.drop_eq_nil_of_le (List.length_take_le _ _)]
  · simp

/-- A read of the call keeps it faithful, and there is one read less to come. -/
theorem Faithful.query_read {node : RecordedNode} {thread : QueryThread}
    (hlog : node.replica.wallet.statemachine.EventLog)
    (hcomplete : RecordedNode.Complete node.history node.replica.wallet)
    (hthread : Faithful request query_events_max_count node.history
      node.replica.db.last_seq_num thread) :
    Faithful request query_events_max_count node.history node.replica.db.last_seq_num
        (query_events unbounded_add request query_events_max_count node.replica.db thread) ∧
      (query_events unbounded_add request query_events_max_count node.replica.db
          thread).reads_left query_events_max_count ≤
        thread.reads_left query_events_max_count - 1 := by
  cases thread with
  | start => exact ⟨le_rfl, le_rfl⟩
  | last_read persisted_last_seq_num =>
    obtain ⟨err, hread⟩ | ⟨hrange, hread⟩ :=
      query_events_last_read_cases request query_events_max_count node.replica.db
        persisted_last_seq_num
    · rw [hread]
      refine ⟨?_, Nat.zero_le _⟩
      intro hok
      cases hok
    · have hreading : Reading request query_events_max_count node.history
          node.replica.db.last_seq_num _ := Reading.start hrange hthread
      rw [hread]
      refine ⟨hreading, ?_⟩
      have hcount := hreading.count
      simp only [QueryThread.reads_left] at hcount ⊢
      omega
  | reading loop =>
    have hreading : Reading request query_events_max_count node.history
      node.replica.db.last_seq_num loop := hthread
    have hadd : ∀ seq_num ≤ loop.adjusted_last_seq_num,
        unbounded_add seq_num 1 = some (seq_num + 1) := fun _ _ => rfl
    have hnumbered : ∀ seq_num event, node.replica.db.events.lookup seq_num = some event →
        Numbered seq_num event := fun _ _ hread => (hcomplete.read hlog hread).2
    obtain ⟨-, -, hstep⟩ | ⟨event, hmore, hread, hstep⟩ | ⟨hend, hstep⟩ :=
      hreading.valid.step_cases hadd hnumbered
    · simp only [query_events, hstep]
      refine ⟨?_, Nat.zero_le _⟩
      intro hok
      cases hok
    · obtain ⟨hevent, hnumber⟩ := hcomplete.read hlog hread
      simp only [query_events, hstep]
      refine ⟨hreading.read hmore hevent hnumber, ?_⟩
      simp only [QueryThread.reads_left]
      omega
    · simp only [query_events, hstep]
      refine ⟨?_, Nat.zero_le _⟩
      intro _
      refine ⟨hreading.persisted, ?_⟩
      have hfirst := hreading.first
      have hevents := hreading.events
      have hnumbers := hreading.numbers
      rw [hend] at hnumbers hevents
      rw [Nat.add_sub_cancel] at hevents
      exact ⟨hfirst ▸ hreading.valid.first_pos, hfirst, hreading.last, hevents, hnumbers⟩
  | replied response => exact ⟨hthread, le_rfl⟩
  | overflowed | assertion_failed => exact hthread.elim

namespace QueriedNode

variable (request query_events_max_count) in
/-- What holds in every interleaving of a call with the node. -/
structure Consistent (queried : QueriedNode) : Prop where
  replica : queried.recorded.replica.Consistent
  complete : RecordedNode.Complete queried.recorded.history queried.recorded.replica.wallet
  faithful : Faithful request query_events_max_count queried.recorded.history
    queried.recorded.replica.db.last_seq_num queried.query

theorem Consistent.start_up (batch_size : Nat) :
    Consistent request query_events_max_count (QueriedNode.start_up batch_size) where
  replica := Node.Consistent.start_up batch_size RocksDBState.HoldsLog.empty
  complete := RecordedNode.Complete.start_up batch_size
  faithful := trivial

variable {queried next : QueriedNode}

section

variable (hqueried : Consistent request query_events_max_count queried)
include hqueried

theorem Consistent.step {action : QueriedAction}
    (hstep : queried.step B config request query_events_max_count action = some next) :
    Consistent request query_events_max_count next := by
  cases action with
  | replica action =>
    obtain ⟨recorded, hrecorded, rfl⟩ := Option.map_eq_some_iff.mp hstep
    obtain ⟨node, hnode, rfl⟩ := Option.map_eq_some_iff.mp hrecorded
    have hwallet : WalletStep B (fun _ => True) queried.recorded.replica.wallet node.wallet :=
      hqueried.replica.wallet_step (fun _ _ => trivial) hnode
    obtain ⟨hlast, hhistory⟩ :=
      hwallet.persisted hqueried.replica.log hqueried.complete.length
    have hextends : Extends queried.recorded
        ⟨node, record queried.recorded.history node.wallet.statemachine⟩ := ⟨hlast, hhistory⟩
    have hfaithful := Faithful.extends hextends hqueried.faithful
    refine ⟨hqueried.replica.step hnode,
      hwallet.complete hqueried.replica.mirrored hqueried.replica.log hqueried.complete, ?_⟩
    simp only
    split
    · exact hfaithful.dropped
    · exact hfaithful
  | query_read =>
    cases hstep
    exact ⟨hqueried.replica, hqueried.complete,
      (hqueried.faithful.query_read hqueried.replica.log hqueried.complete).1⟩

/-- Without a crash each read of the call counts. -/
theorem Consistent.reads_left {actions : List QueriedAction} {last : QueriedNode}
    (hcrash : .replica .crash ∉ actions)
    (hrun : run (QueriedNode.step B config request query_events_max_count) queried actions =
      some last) :
    last.query.reads_left query_events_max_count ≤
      queried.query.reads_left query_events_max_count - actions.count .query_read := by
  induction actions generalizing queried with
  | nil =>
    cases hrun
    exact le_rfl
  | cons action actions ih =>
    obtain ⟨next, hnext, hrest⟩ := run_cons_eq_some_iff.mp hrun
    have hlater := ih (hqueried.step hnext) (List.not_mem_of_not_mem_cons hcrash) hrest
    cases action with
    | replica action =>
      obtain ⟨recorded, -, rfl⟩ := Option.map_eq_some_iff.mp hnext
      have hother : action ≠ .crash := fun hcrashed =>
        hcrash (hcrashed ▸ List.mem_cons_self)
      rw [if_neg hother] at hlater
      rw [List.count_cons_of_ne (by simp)]
      exact hlater
    | query_read =>
      cases hnext
      have hread :=
        (hqueried.faithful.query_read hqueried.replica.log hqueried.complete).2
      rw [List.count_cons_self]
      simp only at hlater
      omega

theorem Consistent.reads_left_le :
    queried.query.reads_left query_events_max_count ≤ query_events_max_count + 3 := by
  have hfaithful := hqueried.faithful
  cases hquery : queried.query with
  | reading loop =>
    rw [hquery] at hfaithful
    have hreading : Reading request query_events_max_count _ _ loop := hfaithful
    have hcount := hreading.count
    have hfirst := hreading.valid.first_le
    simp only [QueryThread.reads_left]
    omega
  | _ => simp [QueryThread.reads_left]

/-- A call with no reads left has been answered. -/
theorem Consistent.replied (hleft : queried.query.reads_left query_events_max_count = 0) :
    ∃ response, queried.query = .replied response := by
  have hfaithful := hqueried.faithful
  cases hquery : queried.query with
  | replied response => exact ⟨response, rfl⟩
  | reading loop =>
    rw [hquery] at hfaithful hleft
    have hreading : Reading request query_events_max_count _ _ loop := hfaithful
    have hle := hreading.valid.le_last
    simp only [QueryThread.reads_left] at hleft
    omega
  | start | last_read => simp [hquery, QueryThread.reads_left] at hleft
  | overflowed | assertion_failed =>
    rw [hquery] at hfaithful
    exact hfaithful.elim

end

/-- In every interleaving of the reads of a call with the steps of the node, no
assertion of the call fails, and a response without an error is a true slice of
the history. A call that is not cut off by a crash is answered. -/
theorem query_events_returns_true_slice (B : BigDecimal) (config : Option EventLogGCConfig)
    (batch_size : Nat) (request : QueryEventsRequest) (query_events_max_count : Nat)
    (actions : List QueriedAction) (last : QueriedNode)
    (hrun : run (QueriedNode.step B config request query_events_max_count)
      (QueriedNode.start_up batch_size) actions = some last) :
    last.query ≠ .assertion_failed ∧ last.query ≠ .overflowed ∧
      (∀ response, last.query = .replied response → response.error = none →
        TrueSlice request query_events_max_count last.recorded.history response) ∧
      ∀ more later, run (QueriedNode.step B config request query_events_max_count) last more =
          some later → .replica .crash ∉ more →
        query_events_max_count + 3 ≤ more.count .query_read →
        ∃ response, later.query = .replied response := by
  have hlast : Consistent request query_events_max_count last :=
    run_invariant (fun _ _ _ hqueried hstep => hqueried.step hstep)
      (Consistent.start_up batch_size) hrun
  refine ⟨?_, ?_, ?_, ?_⟩
  · intro hquery
    have hfaithful := hlast.faithful
    rw [hquery] at hfaithful
    exact hfaithful
  · intro hquery
    have hfaithful := hlast.faithful
    rw [hquery] at hfaithful
    exact hfaithful
  · intro response hquery hok
    have hfaithful := hlast.faithful
    rw [hquery] at hfaithful
    exact (hfaithful hok).2
  · intro more later hmore hcrash hreads
    have hlater : Consistent request query_events_max_count later :=
      run_invariant (fun _ _ _ hqueried hstep => hqueried.step hstep) hlast hmore
    apply hlater.replied
    have hleft := hlast.reads_left hcrash hmore
    have hbound := hlast.reads_left_le
    omega

/-- Twelve events; while a call reads three of them the collector takes the two
before them off the log. -/
def collectedWhileQueried : List QueriedAction :=
  (EventLogGCLoop.createTrace 12).map .replica ++
    [.query_read, .query_read, .replica .gc_step, .query_read, .replica .gc_step, .query_read,
      .replica .gc_step, .query_read, .query_read]

theorem query_events_returns_three_events :
    ∃ last response,
      run (QueriedNode.step plainDecimal (some EventLogGCLoop.smallBatches) ⟨3, 5⟩ 1000)
          (QueriedNode.start_up 100) collectedWhileQueried = some last ∧
        last.recorded.replica.db.first_seq_num = 3 ∧
        last.query = .replied response ∧ response.events.length = 3 ∧
        TrueSlice ⟨3, 5⟩ 1000 last.recorded.history response := by
  have hlast : ((run (QueriedNode.step plainDecimal (some EventLogGCLoop.smallBatches) ⟨3, 5⟩
      1000) (QueriedNode.start_up 100) collectedWhileQueried).any fun last =>
        match last.query with
        | .replied response => decide (response.error = none ∧ response.events.length = 3 ∧
          last.recorded.replica.db.first_seq_num = 3)
        | _ => false) = true := by
    decide +kernel
  obtain ⟨last, hrun, hquery⟩ := (Option.any_eq_true _ _).mp hlast
  split at hquery
  · rename_i response hreplied
    obtain ⟨hok, hlength, hfirst⟩ := of_decide_eq_true hquery
    exact ⟨last, response, hrun, hfirst, hreplied, hlength,
      (query_events_returns_true_slice plainDecimal (some EventLogGCLoop.smallBatches) 100 ⟨3, 5⟩
        1000 collectedWhileQueried last hrun).2.2.1 response hreplied hok⟩
  · cases hquery

end QueriedNode

end node

end firm_wallet
