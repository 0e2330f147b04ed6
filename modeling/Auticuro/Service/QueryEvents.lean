import Auticuro.StateMachine.EventLog

namespace firm_wallet

open internal_servicepb rocksdb_state

namespace errors

inductive InternalError where
  | LogTruncated
  | OtherError (reason : String)
  deriving DecidableEq

end errors

namespace internal_servicepb

structure QueryEventsRequest where
  first_seq_num : Nat
  last_seq_num : Nat

structure QueryEventsResponse where
  error : Option errors.InternalError := none
  first_seq_num : Nat := 0
  last_seq_num : Nat := 0
  events : List Event := []
  persisted_first_seq_num : Nat
  persisted_last_seq_num : Nat

end internal_servicepb

namespace service.WalletService

open errors

section Range

variable (first_seq_num last_seq_num persisted_first_seq_num persisted_last_seq_num : Nat)

/-- The request asks for events of which the server has the first one. -/
abbrev InRange : Prop :=
  first_seq_num ≠ 0 ∧ first_seq_num ≤ last_seq_num ∧
    first_seq_num ≥ persisted_first_seq_num ∧ first_seq_num ≤ persisted_last_seq_num

def out_of_range_reason : String :=
  if persisted_first_seq_num = 0 ∧ persisted_last_seq_num = 0 then
    "No available events on server."
  else
    "Request's first_seq_num " ++ toString first_seq_num ++
      " should be within server's available range of [" ++ toString persisted_first_seq_num ++
      "-" ++ toString persisted_last_seq_num ++ "], and less equal to last_seq_num " ++
      toString last_seq_num ++ "."

/-- The sequence numbers are added by `add`, whose `none` is an overflow. -/
def maybe_adjust_query_range (add : Nat → Nat → Option Nat) (query_events_max_count : Nat) :
    Option (Except InternalError (Nat × Nat)) :=
  if InRange first_seq_num last_seq_num persisted_first_seq_num persisted_last_seq_num then do
    let sum ← add first_seq_num query_events_max_count
    let last_counted_seq_num ← U64.checked_sub sum 1
    let last_available_seq_num :=
      min (min last_seq_num last_counted_seq_num) persisted_last_seq_num
    return .ok (first_seq_num, last_available_seq_num)
  else
    some (.error (.OtherError (out_of_range_reason first_seq_num last_seq_num
      persisted_first_seq_num persisted_last_seq_num)))

end Range

/-- The variables of `query_events_impl` inside its loop. -/
structure QueryLoop where
  persisted_first_seq_num : Nat
  persisted_last_seq_num : Nat
  adjusted_first_seq_num : Nat
  adjusted_last_seq_num : Nat
  seq_num : Nat
  events : List Event

/-- How far a call of `query_events` has come. Each read from the database is a
step of its own. -/
inductive QueryThread where
  | start
  | last_read (persisted_last_seq_num : Nat)
  | reading (loop : QueryLoop)
  | replied (response : QueryEventsResponse)
  | overflowed
  | assertion_failed

variable (add : Nat → Nat → Option Nat)

/-- One round of the loop, or its end. -/
def QueryLoop.step (self : QueryLoop) (db : RocksDBState) : QueryThread :=
  if self.seq_num ≤ self.adjusted_last_seq_num then
    match db.read_event_from_db self.seq_num with
    | none =>
      .replied
        { error := some .LogTruncated
          persisted_first_seq_num := self.persisted_first_seq_num
          persisted_last_seq_num := self.persisted_last_seq_num }
    | some event =>
      if self.seq_num = event.header.seq_num then
        match add self.seq_num 1 with
        | none => .overflowed
        | some seq_num =>
          .reading { self with seq_num := seq_num, events := self.events ++ [event] }
      else
        .assertion_failed
  else
    match U64.checked_sub self.seq_num 1 with
    | none => .overflowed
    | some read_seq_num =>
      if read_seq_num = self.adjusted_last_seq_num then
        .replied
          { first_seq_num := self.adjusted_first_seq_num
            last_seq_num := self.adjusted_last_seq_num
            events := self.events
            persisted_first_seq_num := self.persisted_first_seq_num
            persisted_last_seq_num := self.persisted_last_seq_num }
      else
        .assertion_failed

/-- The next read of `query_events`, from the database as it is then. -/
def query_events (request : QueryEventsRequest) (query_events_max_count : Nat)
    (db : RocksDBState) : QueryThread → QueryThread
  | .start => .last_read (db.read_hard_state_from_db .PERSISTED_LAST_SEQ_NUM)
  | .last_read persisted_last_seq_num =>
    let persisted_first_seq_num := db.read_hard_state_from_db .PERSISTED_FIRST_SEQ_NUM
    match maybe_adjust_query_range request.first_seq_num request.last_seq_num
        persisted_first_seq_num persisted_last_seq_num add query_events_max_count with
    | none => .overflowed
    | some (.error err) =>
      .replied
        { error := some err
          persisted_first_seq_num := persisted_first_seq_num
          persisted_last_seq_num := persisted_last_seq_num }
    | some (.ok (adjusted_first_seq_num, adjusted_last_seq_num)) =>
      .reading ⟨persisted_first_seq_num, persisted_last_seq_num, adjusted_first_seq_num,
        adjusted_last_seq_num, adjusted_first_seq_num, []⟩
  | .reading loop => loop.step add db
  | thread => thread

/-- The thread after a number of reads, each from the database it finds. -/
def query_events_reads (request : QueryEventsRequest) (query_events_max_count : Nat) :
    (Nat → RocksDBState) → Nat → QueryThread → QueryThread
  | _, 0, thread => thread
  | dbs, reads + 1, thread =>
    query_events_reads request query_events_max_count (fun read => dbs (read + 1)) reads
      (query_events add request query_events_max_count (dbs 0) thread)

/-- What is added is the sum where there is no overflow. -/
def ExactAdd : Prop :=
  ∀ lhs rhs sum, add lhs rhs = some sum → sum = lhs + rhs

theorem checked_add_exact : ExactAdd U64.checked_add :=
  fun _ _ _ hsum => (U64.checked_add_eq_some_iff.mp hsum).2

section Range

variable {add}
variable {first_seq_num last_seq_num persisted_first_seq_num persisted_last_seq_num : Nat}
variable {query_events_max_count adjusted_first_seq_num adjusted_last_seq_num : Nat}

theorem maybe_adjust_query_range_in_range {sum : Nat}
    (hrange : InRange first_seq_num last_seq_num persisted_first_seq_num persisted_last_seq_num)
    (hadd : add first_seq_num query_events_max_count = some sum) (hpos : 1 ≤ sum) :
    maybe_adjust_query_range first_seq_num last_seq_num persisted_first_seq_num
        persisted_last_seq_num add query_events_max_count =
      some (.ok (first_seq_num, min (min last_seq_num (sum - 1)) persisted_last_seq_num)) := by
  unfold maybe_adjust_query_range
  rw [if_pos hrange, hadd]
  change (U64.checked_sub sum 1).bind _ = _
  rw [U64.checked_sub_of_le hpos]
  rfl

/-- A range that is accepted starts where the request does and ends at the
smallest of the three bounds. -/
theorem maybe_adjust_query_range_ok (hadd : ExactAdd add)
    (hok : maybe_adjust_query_range first_seq_num last_seq_num persisted_first_seq_num
      persisted_last_seq_num add query_events_max_count =
        some (.ok (adjusted_first_seq_num, adjusted_last_seq_num))) :
    InRange first_seq_num last_seq_num persisted_first_seq_num persisted_last_seq_num ∧
      add first_seq_num query_events_max_count = some (first_seq_num + query_events_max_count) ∧
      adjusted_first_seq_num = first_seq_num ∧
      adjusted_last_seq_num = min (min last_seq_num
        (first_seq_num + query_events_max_count - 1)) persisted_last_seq_num := by
  by_cases hrange : InRange first_seq_num last_seq_num persisted_first_seq_num
      persisted_last_seq_num
  · cases hsum : add first_seq_num query_events_max_count with
    | none =>
      unfold maybe_adjust_query_range at hok
      rw [if_pos hrange, hsum] at hok
      cases hok
    | some sum =>
      obtain rfl := hadd _ _ _ hsum
      have hpos : 1 ≤ first_seq_num + query_events_max_count := by
        have hfirst := hrange.1
        omega
      rw [maybe_adjust_query_range_in_range hrange hsum hpos] at hok
      cases hok
      exact ⟨hrange, rfl, rfl, rfl⟩
  · unfold maybe_adjust_query_range at hok
    rw [if_neg hrange] at hok
    cases hok

end Range

namespace QueryLoop

variable {add}

/-- The loop stands between its bounds, with an event for every number passed. -/
structure Valid (loop : QueryLoop) : Prop where
  first_pos : 1 ≤ loop.adjusted_first_seq_num
  first_le : loop.adjusted_first_seq_num ≤ loop.seq_num
  le_last : loop.seq_num ≤ loop.adjusted_last_seq_num + 1
  length : loop.events.length = loop.seq_num - loop.adjusted_first_seq_num

def truncated (self : QueryLoop) : QueryEventsResponse :=
  { error := some .LogTruncated
    persisted_first_seq_num := self.persisted_first_seq_num
    persisted_last_seq_num := self.persisted_last_seq_num }

/-- What one step of a valid loop can do when the events carry their number. -/
theorem Valid.step_cases {self : QueryLoop} {db : RocksDBState} (hvalid : self.Valid)
    (hadd : ∀ seq_num ≤ self.adjusted_last_seq_num, add seq_num 1 = some (seq_num + 1))
    (hnumbered : ∀ seq_num event, db.events.lookup seq_num = some event →
      Numbered seq_num event) :
    (self.seq_num ≤ self.adjusted_last_seq_num ∧ db.read_event_from_db self.seq_num = none ∧
      self.step add db = .replied self.truncated) ∨
    (∃ event, self.seq_num ≤ self.adjusted_last_seq_num ∧
      db.read_event_from_db self.seq_num = some event ∧
      self.step add db = .reading
        { self with seq_num := self.seq_num + 1, events := self.events ++ [event] }) ∨
    (self.seq_num = self.adjusted_last_seq_num + 1 ∧
      self.step add db = .replied
        { first_seq_num := self.adjusted_first_seq_num
          last_seq_num := self.adjusted_last_seq_num
          events := self.events
          persisted_first_seq_num := self.persisted_first_seq_num
          persisted_last_seq_num := self.persisted_last_seq_num }) := by
  by_cases hmore : self.seq_num ≤ self.adjusted_last_seq_num
  · cases hread : db.read_event_from_db self.seq_num with
    | none =>
      refine .inl ⟨hmore, rfl, ?_⟩
      unfold step
      rw [if_pos hmore, hread]
      rfl
    | some event =>
      refine .inr (.inl ⟨event, hmore, rfl, ?_⟩)
      have hnumber : self.seq_num = event.header.seq_num := (hnumbered _ _ hread).1.symm
      unfold step
      simp only [if_pos hmore, hread, if_pos hnumber, hadd _ hmore]
  · have hend : self.seq_num = self.adjusted_last_seq_num + 1 := by
      have hle := hvalid.le_last
      omega
    refine .inr (.inr ⟨hend, ?_⟩)
    have hsub : U64.checked_sub self.seq_num 1 = some self.adjusted_last_seq_num := by
      rw [hend, U64.checked_sub_of_le (by omega), Nat.add_sub_cancel]
    unfold step
    simp only [if_neg hmore, hsub, if_true]

theorem Valid.read {self : QueryLoop} (hvalid : self.Valid) (event : Event)
    (hmore : self.seq_num ≤ self.adjusted_last_seq_num) :
    Valid { self with seq_num := self.seq_num + 1, events := self.events ++ [event] } where
  first_pos := hvalid.first_pos
  first_le := Nat.le_succ_of_le hvalid.first_le
  le_last := Nat.succ_le_succ hmore
  length := by
    have hfirst := hvalid.first_le
    have hlength := hvalid.length
    simp only [List.length_append, List.length_singleton]
    omega

end QueryLoop

/-- The call is answered with the whole range, or an event of it was missing. -/
structure Answers (adjusted_first_seq_num adjusted_last_seq_num : Nat)
    (dbs : Nat → RocksDBState) (response : QueryEventsResponse) : Prop where
  truncated_or_whole : response.error = some .LogTruncated ∨
    response.error = none ∧ response.first_seq_num = adjusted_first_seq_num ∧
      response.last_seq_num = adjusted_last_seq_num ∧
      response.events.length = adjusted_last_seq_num + 1 - adjusted_first_seq_num
  whole : (∀ read seq_num, adjusted_first_seq_num ≤ seq_num → seq_num ≤ adjusted_last_seq_num →
    (dbs read).read_event_from_db seq_num ≠ none) → response.error = none

/-- From a valid loop the call is answered, whatever databases its reads find. -/
theorem query_events_reads_answers {add : Nat → Nat → Option Nat} (request : QueryEventsRequest)
    (query_events_max_count : Nat) {loop : QueryLoop} (hvalid : loop.Valid)
    (hadd : ∀ seq_num ≤ loop.adjusted_last_seq_num, add seq_num 1 = some (seq_num + 1))
    {dbs : Nat → RocksDBState}
    (hnumbered : ∀ read seq_num event, (dbs read).events.lookup seq_num = some event →
      Numbered seq_num event) :
    ∃ reads response,
      query_events_reads add request query_events_max_count dbs reads (.reading loop) =
        .replied response ∧
      Answers loop.adjusted_first_seq_num loop.adjusted_last_seq_num dbs response := by
  -- on the numbers that are left to read
  generalize hleft : loop.adjusted_last_seq_num + 1 - loop.seq_num = left
  induction left generalizing loop dbs with
  | zero =>
    obtain ⟨hmore, -, -⟩ | ⟨event, hmore, -, -⟩ | ⟨hend, hstep⟩ :=
      hvalid.step_cases hadd (hnumbered 0)
    · omega
    · omega
    · refine ⟨1, _, hstep, .inr ⟨rfl, rfl, rfl, ?_⟩, fun _ => rfl⟩
      rw [← hend]
      exact hvalid.length
  | succ left ih =>
    obtain ⟨hmore, hread, hstep⟩ | ⟨event, hmore, -, hstep⟩ | ⟨hend, -⟩ :=
      hvalid.step_cases hadd (hnumbered 0)
    · refine ⟨1, _, hstep, .inl rfl, fun hthere => ?_⟩
      exact absurd hread (hthere 0 _ hvalid.first_le hmore)
    · obtain ⟨reads, response, hreads, hanswers⟩ := ih (hvalid.read event hmore) hadd
        (fun read => hnumbered (read + 1)) (by simp only; omega)
      refine ⟨reads + 1, response, ?_, hanswers.truncated_or_whole, fun hthere => ?_⟩
      · unfold query_events_reads
        change query_events_reads add request query_events_max_count _ reads
          (loop.step add (dbs 0)) = _
        rw [hstep]
        exact hreads
      · exact hanswers.whole fun read => hthere (read + 1)
    · omega

section Safety

variable (first_seq_num last_seq_num persisted_first_seq_num persisted_last_seq_num : Nat)
variable (query_events_max_count : Nat)

/-- The range is computed without overflow, lies within its bounds, and the loop
over it ends without a failed assertion. -/
structure RangeSafe : Prop where
  computes : maybe_adjust_query_range first_seq_num last_seq_num persisted_first_seq_num
    persisted_last_seq_num U64.checked_add query_events_max_count ≠ none
  bounds : ∀ f l, maybe_adjust_query_range first_seq_num last_seq_num persisted_first_seq_num
    persisted_last_seq_num U64.checked_add query_events_max_count = some (.ok (f, l)) →
      f = first_seq_num ∧ f ≤ l + 1 ∧ l ≤ last_seq_num ∧ l ≤ persisted_last_seq_num ∧
        l + 1 - f ≤ query_events_max_count
  answers : ∀ f l, maybe_adjust_query_range first_seq_num last_seq_num persisted_first_seq_num
    persisted_last_seq_num U64.checked_add query_events_max_count = some (.ok (f, l)) →
      ∀ dbs : Nat → RocksDBState,
        (∀ read seq_num event, (dbs read).events.lookup seq_num = some event →
          Numbered seq_num event) →
        ∃ reads response,
          query_events_reads U64.checked_add ⟨first_seq_num, last_seq_num⟩
              query_events_max_count dbs reads
              (.reading ⟨persisted_first_seq_num, persisted_last_seq_num, f, l, f, []⟩) =
            .replied response ∧
          Answers f l dbs response

/-- The arithmetic is safe if and only if the request is refused or the first
number and the maximum count have a sum in the machine's range. -/
theorem maybe_adjust_query_range_safe_iff :
    RangeSafe first_seq_num last_seq_num persisted_first_seq_num persisted_last_seq_num
        query_events_max_count ↔
      (InRange first_seq_num last_seq_num persisted_first_seq_num persisted_last_seq_num →
        first_seq_num + query_events_max_count < U64.size) := by
  constructor
  · intro hsafe hrange
    by_contra hover
    apply hsafe.computes
    unfold maybe_adjust_query_range
    rw [if_pos hrange, U64.checked_add, if_neg hover]
    rfl
  · intro hfits
    refine ⟨?_, ?_, ?_⟩
    · by_cases hrange : InRange first_seq_num last_seq_num persisted_first_seq_num
          persisted_last_seq_num
      · have hfirst := hrange.1
        rw [maybe_adjust_query_range_in_range hrange
          (U64.checked_add_eq_some_iff.mpr ⟨hfits hrange, rfl⟩) (by omega)]
        exact Option.some_ne_none _
      · unfold maybe_adjust_query_range
        rw [if_neg hrange]
        exact Option.some_ne_none _
    · intro f l hok
      obtain ⟨⟨hfirst, hle, -, hpersisted⟩, -, rfl, rfl⟩ :=
        maybe_adjust_query_range_ok checked_add_exact hok
      refine ⟨rfl, ?_, ?_, ?_, ?_⟩ <;> omega
    · intro f l hok dbs hnumbered
      obtain ⟨hrange, -, rfl, hl⟩ := maybe_adjust_query_range_ok checked_add_exact hok
      have hfits := hfits hrange
      obtain ⟨hfirst, hle, -, hpersisted⟩ := hrange
      have hvalid : QueryLoop.Valid
          ⟨persisted_first_seq_num, persisted_last_seq_num, f, l, f, []⟩ :=
        ⟨Nat.pos_of_ne_zero hfirst, le_rfl, by simp only; omega, (Nat.sub_self f).symm⟩
      refine query_events_reads_answers _ _ hvalid ?_ hnumbered
      intro seq_num hseq
      simp only at hseq
      exact U64.checked_add_eq_some_iff.mpr ⟨by omega, rfl⟩

end Safety

/-- A large maximum count overflows. Where the sum wraps around instead, the
range ends below its start and the last assertion fails. -/
theorem maybe_adjust_query_range_overflows :
    ¬RangeSafe 10 20 0 20 (2 ^ 64 - 1) ∧
      maybe_adjust_query_range 10 20 0 20 U64.checked_add (2 ^ 64 - 1) = none ∧
      maybe_adjust_query_range 10 20 0 20 (fun lhs rhs => some (U64.wrapping_add lhs rhs))
        (2 ^ 64 - 1) = some (.ok (10, 8)) ∧
      (QueryLoop.step (fun lhs rhs => some (U64.wrapping_add lhs rhs)) ⟨0, 20, 10, 8, 10, []⟩
        RocksDBState.empty) = .assertion_failed :=
  ⟨fun hsafe => hsafe.computes rfl, rfl, rfl, rfl⟩

end service.WalletService

end firm_wallet
