import Auticuro.Ledger.Refinement
import Auticuro.MessageBroker
import Auticuro.StateMachine.EventLog

open Run

namespace firm_wallet.ledger

open accountpb errors balance_calculator internal_servicepb rocksdb_state state_machine

/-- The replicated log: the commands of the entry at each index. -/
abbrev Log := Nat → List Command

/-- The ledger of an empty database. -/
def Ledger.new : Ledger where
  accounts := AccountMap.empty
  applied_index := HardStateKind.APPLIED_INDEX.default_value
  last_seq_num := HardStateKind.PERSISTED_LAST_SEQ_NUM.default_value
  seq_num_of := fun _ => none
  event_at := fun _ => none
  replies := []

/-- The entries up to an applied index. -/
def Log.upto (log : Log) (applied_index : Nat) : List Entry :=
  (List.range' (Ledger.new.applied_index + 1)
    (applied_index - Ledger.new.applied_index)).map fun log_index => (log_index, log log_index)

/-- The one copy that all replicas stand for: a ledger on its way through the
log, which has handled some commands of the entry after the last applied one. -/
structure Replay where
  reached : Ledger
  offset : Nat

namespace Replay

def position (self : Replay) : Position :=
  ⟨self.reached.applied_index + 1, self.offset⟩

def start : Replay where
  reached := Ledger.new
  offset := 0

/-- The next command is handled, or the entry is finished. -/
def tick (B : BigDecimal) (log : Log) (self : Replay) : Option Replay :=
  match (log self.position.log_index)[self.offset]? with
  | some command =>
    (self.reached.handle_command B self.position.log_index self.offset command).map fun ledger =>
      { reached := ledger, offset := self.offset + 1 }
  | none =>
    some { reached := { self.reached with applied_index := self.position.log_index }, offset := 0 }

/-- The copy after so many ticks. -/
def after (B : BigDecimal) (log : Log) : Nat → Option Replay
  | 0 => some start
  | ticks + 1 => (after B log ticks).bind (tick B log)

end Replay

variable {B : BigDecimal} {log : Log}

/-- What handling a command does to a ledger. -/
theorem Ledger.handle_command_cases {self next : Ledger} {log_index offset : Nat}
    {command : Command} (hhandle : self.handle_command B log_index offset command = some next) :
    (∃ seq_num event, self.seq_num_of command.command_id = some seq_num ∧
      self.event_at seq_num = some event ∧
      next = self.reply ⟨log_index, offset⟩ (assert_command_and_event_match command event)) ∨
    (∃ e, self.seq_num_of command.command_id = none ∧
      next = self.reply ⟨log_index, offset⟩ (.error e)) ∨
    (∃ plan, self.seq_num_of command.command_id = none ∧
      (holding self.accounts).plan B command.payload = .ok plan ∧
      next = self.execute log_index offset command plan) := by
  unfold handle_command at hhandle
  cases hseq : self.seq_num_of command.command_id with
  | some seq_num =>
    rw [hseq] at hhandle
    obtain ⟨event, hevent, rfl⟩ := Option.map_eq_some_iff.mp hhandle
    exact .inl ⟨seq_num, event, rfl, hevent, rfl⟩
  | none =>
    rw [hseq] at hhandle
    cases hplan : (holding self.accounts).plan B command.payload with
    | error e =>
      simp only [hplan, Option.some.injEq] at hhandle
      exact .inr (.inl ⟨e, rfl, hhandle.symm⟩)
    | ok plan =>
      simp only [hplan, Option.some.injEq] at hhandle
      exact .inr (.inr ⟨plan, rfl, rfl, hhandle.symm⟩)

/-- The log of events is in order and has the event of every reply. -/
structure Ledger.Ordered (ledger : Ledger) : Prop where
  events : LogSegment ledger.event_at ledger.seq_num_of 1 (ledger.last_seq_num + 1)
  replied : ∀ reply ∈ ledger.replies, ∀ event, reply.event = .ok event →
    ledger.event_at event.header.seq_num = some event

/-- What is left of a ledger in every later one. A new event is one of an entry
that was not applied. -/
structure Ledger.Extends (later earlier : Ledger) : Prop where
  applied_index : earlier.applied_index ≤ later.applied_index
  replies : earlier.replies <+: later.replies
  events : ∀ seq_num event, earlier.event_at seq_num = some event →
    later.event_at seq_num = some event
  new_events : ∀ seq_num event, later.event_at seq_num = some event →
    earlier.event_at seq_num = some event ∨ earlier.applied_index < event.header.log_index

namespace Ledger.Extends

theorem refl (ledger : Ledger) : ledger.Extends ledger :=
  ⟨le_rfl, List.prefix_rfl, fun _ _ hevent => hevent, fun _ _ hevent => .inl hevent⟩

theorem trans {first second third : Ledger} (hsecond : second.Extends first)
    (hthird : third.Extends second) : third.Extends first where
  applied_index := hsecond.applied_index.trans hthird.applied_index
  replies := hsecond.replies.trans hthird.replies
  events := fun seq_num event hevent =>
    hthird.events seq_num event (hsecond.events seq_num event hevent)
  new_events := by
    intro seq_num event hevent
    obtain hevent | hnew := hthird.new_events seq_num event hevent
    · exact hsecond.new_events seq_num event hevent
    · exact .inr (hsecond.applied_index.trans_lt hnew)

end Ledger.Extends

namespace Ledger.Ordered

theorem new : Ledger.new.Ordered where
  events := Segment.empty (fun _ => rfl) (fun _ => rfl)
  replied := by rintro reply ⟨⟩

variable {self next : Ledger}

theorem reply (hself : self.Ordered) (position : Position) {result : GeneralResult Event}
    (hresult : ∀ event, result = .ok event → self.event_at event.header.seq_num = some event) :
    (self.reply position result).Ordered where
  events := hself.events
  replied := by
    intro reply hreply
    obtain hreply | hreply := List.mem_append.mp hreply
    · exact hself.replied reply hreply
    · rw [List.mem_singleton.mp hreply]
      exact hresult

theorem extends_reply (self : Ledger) (position : Position) (result : GeneralResult Event) :
    (self.reply position result).Extends self :=
  ⟨le_rfl, List.prefix_append _ _, fun _ _ hevent => hevent, fun _ _ hevent => .inl hevent⟩

section

variable (hself : self.Ordered)
include hself

theorem execute_event_at (log_index offset : Nat) (command : Command) (plan : Plan) {seq_num : Nat}
    {event : Event} (hevent : self.event_at seq_num = some event) :
    (self.execute log_index offset command plan).event_at seq_num = some event := by
  have hnumber := (hself.events.lt_next hevent).2
  have hother : seq_num ≠ self.last_seq_num + 1 := by omega
  exact (if_neg hother).trans hevent

theorem execute (log_index offset : Nat) {command : Command} {plan : Plan}
    (hnew : self.seq_num_of command.command_id = none)
    (hplan : (holding self.accounts).plan B command.payload = .ok plan) :
    (self.execute log_index offset command plan).Ordered where
  events := by
    refine hself.events.append (by omega)
      (plan.event command log_index offset (self.last_seq_num + 1)) ?_ hnew (fun _ => rfl)
      (fun _ => rfl)
    exact ⟨rfl, by rw [Plan.event, StateMachine.plan_response_header hplan]; rfl⟩
  replied := by
    intro reply hreply event hevent
    obtain hreply | hreply := List.mem_append.mp hreply
    · exact hself.execute_event_at _ _ _ _ (hself.replied reply hreply event hevent)
    · cases List.mem_singleton.mp hreply
      cases hevent
      exact if_pos rfl

theorem handle_command {log_index offset : Nat} {command : Command}
    (hhandle : self.handle_command B log_index offset command = some next) : next.Ordered := by
  obtain ⟨seq_num, event, _, hevent, rfl⟩ | ⟨e, _, rfl⟩ | ⟨plan, hnew, hplan, rfl⟩ :=
    Ledger.handle_command_cases hhandle
  · apply hself.reply
    intro found hfound
    rw [assert_command_and_event_match_eq] at hfound
    split at hfound
    · cases hfound
      rw [(hself.events.valid seq_num event hevent).1]
      exact hevent
    · cases hfound
  · exact hself.reply _ (by rintro found ⟨⟩)
  · exact hself.execute log_index offset hnew hplan

/-- A ledger in order handles every command. -/
theorem handle_command_total (log_index offset : Nat) (command : Command) :
    ∃ next, self.handle_command B log_index offset command = some next := by
  unfold Ledger.handle_command
  cases hnumber : self.seq_num_of command.command_id with
  | some seq_num =>
    obtain ⟨event, hevent, _⟩ := (hself.events.index command.command_id seq_num).mp hnumber
    exact ⟨_, Option.map_eq_some_iff.mpr ⟨event, hevent, rfl⟩⟩
  | none =>
    cases (holding self.accounts).plan B command.payload with
    | error e | ok plan => exact ⟨_, rfl⟩

/-- A command adds one reply, at its position, and an event of the entry at most. -/
theorem extends_of_handle {log_index offset : Nat} {command : Command}
    (hlater : self.applied_index < log_index)
    (hhandle : self.handle_command B log_index offset command = some next) :
    next.Extends self ∧ next.applied_index = self.applied_index ∧
      ∃ result, next.replies = self.replies ++ [⟨⟨log_index, offset⟩, result⟩] := by
  obtain ⟨_, event, _, _, rfl⟩ | ⟨e, _, rfl⟩ | ⟨plan, _, _, rfl⟩ :=
    Ledger.handle_command_cases hhandle
  · exact ⟨extends_reply self _ _, rfl, _, rfl⟩
  · exact ⟨extends_reply self _ _, rfl, _, rfl⟩
  · refine ⟨⟨le_rfl, List.prefix_append _ _, ?_, ?_⟩, rfl, _, rfl⟩
    · intro seq_num event hevent
      exact hself.execute_event_at _ _ _ _ hevent
    · intro seq_num event hevent
      change (if seq_num = self.last_seq_num + 1 then some _ else _) = _ at hevent
      split at hevent
      · cases hevent
        exact .inr hlater
      · exact .inl hevent

end

end Ledger.Ordered

namespace Replay

/-- What a tick does. -/
inductive Ticks (B : BigDecimal) (log : Log) (self : Replay) : Replay → Prop where
  | command {command : Command} {ledger : Ledger}
      (hcommand : (log self.position.log_index)[self.offset]? = some command)
      (hhandle : self.reached.handle_command B self.position.log_index self.offset command =
        some ledger) :
      Ticks B log self { reached := ledger, offset := self.offset + 1 }
  | finish (hfinished : (log self.position.log_index)[self.offset]? = none) :
      Ticks B log self
        { reached := { self.reached with applied_index := self.position.log_index }, offset := 0 }

variable {self next : Replay}

theorem Ticks.tick_eq (hticks : Ticks B log self next) : self.tick B log = some next := by
  unfold tick
  cases hticks with
  | command hcommand hhandle =>
    rw [hcommand]
    exact Option.map_eq_some_iff.mpr ⟨_, hhandle, rfl⟩
  | finish hfinished => rw [hfinished]

theorem Ticks.after_succ {ticks : Nat} (hticks : Ticks B log self next)
    (hafter : after B log ticks = some self) : after B log (ticks + 1) = some next :=
  Option.bind_eq_some_iff.mpr ⟨self, hafter, hticks.tick_eq⟩

theorem ticks (htick : self.tick B log = some next) : Ticks B log self next := by
  unfold tick at htick
  split at htick
  · rename_i command hcommand
    obtain ⟨ledger, hhandle, rfl⟩ := Option.map_eq_some_iff.mp htick
    exact .command hcommand hhandle
  · rename_i hfinished
    cases htick
    exact .finish hfinished

/-- The replies are in the order of the log, before the next position. -/
structure InOrder (replay : Replay) : Prop where
  ordered : replay.reached.Ordered
  replies : replay.reached.replies.Pairwise fun left right => left.position < right.position
  past : ∀ reply ∈ replay.reached.replies, reply.position < replay.position

theorem InOrder.start : start.InOrder where
  ordered := .new
  replies := List.Pairwise.nil
  past := by rintro reply ⟨⟩

theorem InOrder.tick (hself : self.InOrder) (htick : self.tick B log = some next) :
    next.InOrder ∧ next.reached.Extends self.reached := by
  cases ticks htick with
  | @command command ledger hcommand hhandle =>
    obtain ⟨hextends, happlied, result, hreplies⟩ :=
      hself.ordered.extends_of_handle (Nat.lt_succ_self _) hhandle
    have hnow : self.position < ⟨ledger.applied_index + 1, self.offset + 1⟩ := by
      rw [Position.lt_iff, happlied]
      exact .inr ⟨rfl, Nat.lt_succ_self _⟩
    refine ⟨⟨hself.ordered.handle_command hhandle, ?_, ?_⟩, hextends⟩
    · rw [hreplies, List.pairwise_append]
      refine ⟨hself.replies, List.pairwise_singleton _ _, ?_⟩
      intro reply hreply last hlast
      rw [List.mem_singleton.mp hlast]
      exact hself.past reply hreply
    · intro reply hreply
      rw [hreplies] at hreply
      obtain hreply | hreply := List.mem_append.mp hreply
      · exact (hself.past reply hreply).trans hnow
      · rw [List.mem_singleton.mp hreply]
        exact hnow
  | finish =>
    have hnow : self.position < ⟨self.reached.applied_index + 1 + 1, 0⟩ := by
      rw [Position.lt_iff]
      exact .inl (Nat.lt_succ_self _)
    refine ⟨⟨⟨hself.ordered.events, hself.ordered.replied⟩, hself.replies, ?_⟩, ?_⟩
    · intro reply hreply
      exact (hself.past reply hreply).trans hnow
    · exact ⟨Nat.le_succ _, List.prefix_rfl, fun _ _ hevent => hevent,
        fun _ _ hevent => .inl hevent⟩

theorem InOrder.after {ticks : Nat} (hafter : after B log ticks = some self) : self.InOrder := by
  induction ticks generalizing self with
  | zero =>
    cases hafter
    exact .start
  | succ ticks ih =>
    obtain ⟨before, hbefore, htick⟩ := Option.bind_eq_some_iff.mp hafter
    exact ((ih hbefore).tick htick).1

theorem InOrder.eq_of_position (hself : self.InOrder) {reply other : InflightEvent}
    (hreply : reply ∈ self.reached.replies) (hother : other ∈ self.reached.replies)
    (hposition : reply.position = other.position) : reply = other := by
  have hnodup : (self.reached.replies.map InflightEvent.position).Nodup :=
    List.pairwise_map.mpr (hself.replies.imp ne_of_lt)
  exact List.inj_on_of_nodup_map hnodup hreply hother hposition

/-- Of two moments of the copy the later one extends the earlier one. -/
theorem after_extends {earlier later : Replay} {ticks more : Nat}
    (hearlier : after B log ticks = some earlier)
    (hlater : after B log (ticks + more) = some later) : later.reached.Extends earlier.reached := by
  induction more generalizing later with
  | zero =>
    cases hearlier.symm.trans hlater
    exact .refl _
  | succ more ih =>
    obtain ⟨middle, hmiddle, htick⟩ := Option.bind_eq_some_iff.mp hlater
    exact (ih hmiddle).trans ((InOrder.after hmiddle).tick htick).2

/-- Any two moments of the copy are moments of one history. -/
theorem after_total {left right : Replay} {left_ticks right_ticks : Nat}
    (hleft : after B log left_ticks = some left) (hright : after B log right_ticks = some right) :
    left.reached.Extends right.reached ∨ right.reached.Extends left.reached := by
  obtain hle | hle := Nat.le_total left_ticks right_ticks
  · obtain ⟨more, rfl⟩ := Nat.exists_eq_add_of_le hle
    exact .inr (after_extends hleft hright)
  · obtain ⟨more, rfl⟩ := Nat.exists_eq_add_of_le hle
    exact .inl (after_extends hright hleft)

theorem after_applied_index {ticks : Nat} (hafter : after B log ticks = some self) :
    Ledger.new.applied_index ≤ self.reached.applied_index :=
  (after_extends (show after B log 0 = some start from rfl)
    (by rwa [Nat.zero_add])).applied_index

end Replay

theorem Log.upto_succ (log : Log) {applied_index : Nat}
    (hle : Ledger.new.applied_index ≤ applied_index) :
    log.upto (applied_index + 1) =
      log.upto applied_index ++ [(applied_index + 1, log (applied_index + 1))] := by
  obtain ⟨more, rfl⟩ := Nat.exists_eq_add_of_le hle
  have hindex : Ledger.new.applied_index + 1 + more = Ledger.new.applied_index + more + 1 := by
    omega
  have hmore : Ledger.new.applied_index + more + 1 - Ledger.new.applied_index = more + 1 := by
    omega
  unfold Log.upto
  rw [hmore, Nat.add_sub_cancel_left, List.range'_1_concat, List.map_append, List.map_singleton,
    hindex]

namespace Replay

/-- The copy has applied the whole entries before its position, and of the entry
at its position the commands before its offset. -/
structure Applies (B : BigDecimal) (log : Log) (replay : Replay) (base : Ledger) : Prop where
  whole : Ledger.new.apply_log B (log.upto replay.reached.applied_index) = some base
  applied_index : base.applied_index = replay.reached.applied_index
  commands : run
    (fun ledger item => ledger.handle_command B replay.position.log_index item.2 item.1) base
    ((log replay.position.log_index).zipIdx.take replay.offset) = some replay.reached

variable {self next : Replay}

theorem Applies.command (hordered : self.InOrder) {base : Ledger} (hself : self.Applies B log base)
    {command : Command} {ledger : Ledger}
    (hcommand : (log self.position.log_index)[self.offset]? = some command)
    (hhandle : self.reached.handle_command B self.position.log_index self.offset command =
      some ledger) :
    Applies B log { reached := ledger, offset := self.offset + 1 } base := by
  obtain ⟨_, happlied, _⟩ := hordered.ordered.extends_of_handle (Nat.lt_succ_self _) hhandle
  have hposition : (⟨ledger, self.offset + 1⟩ : Replay).position.log_index =
      self.position.log_index := congrArg (· + 1) happlied
  have hitem : (log self.position.log_index).zipIdx[self.offset]? =
      some (command, self.offset) := by
    rw [List.getElem?_zipIdx, hcommand, Option.map_some, Nat.zero_add]
  refine ⟨?_, hself.applied_index.trans happlied.symm, ?_⟩
  · rw [happlied]
    exact hself.whole
  · rw [hposition, List.take_add_one, hitem]
    exact run_append_eq_some_iff.mpr
      ⟨_, hself.commands, run_cons_eq_some_iff.mpr ⟨_, hhandle, rfl⟩⟩

theorem Applies.finish {ticks : Nat} (hafter : after B log ticks = some self) {base : Ledger}
    (hself : self.Applies B log base)
    (hfinished : (log self.position.log_index)[self.offset]? = none) :
    let next := { self.reached with applied_index := self.position.log_index }
    Applies B log { reached := next, offset := 0 } next := by
  intro next
  have hcommands := hself.commands
  have hlength : (log self.position.log_index).zipIdx.length ≤ self.offset := by
    rw [List.length_zipIdx]
    exact List.getElem?_eq_none_iff.mp hfinished
  rw [List.take_of_length_le hlength] at hcommands
  refine ⟨?_, rfl, rfl⟩
  change Ledger.new.apply_log B (log.upto (self.reached.applied_index + 1)) = _
  rw [Log.upto_succ log (after_applied_index hafter)]
  refine run_append_eq_some_iff.mpr ⟨base, hself.whole, run_cons_eq_some_iff.mpr ⟨next, ?_, rfl⟩⟩
  unfold Ledger.apply_entry
  rw [if_pos (congrArg (· + 1) hself.applied_index)]
  exact Option.map_eq_some_iff.mpr ⟨_, hcommands, rfl⟩

theorem Applies.after {ticks : Nat} (hafter : after B log ticks = some self) :
    ∃ base, self.Applies B log base := by
  induction ticks generalizing self with
  | zero =>
    cases hafter
    exact ⟨Ledger.new, rfl, rfl, rfl⟩
  | succ ticks ih =>
    obtain ⟨before, hbefore, htick⟩ := Option.bind_eq_some_iff.mp hafter
    obtain ⟨base, hbase⟩ := ih hbefore
    cases Replay.ticks htick with
    | command hcommand hhandle =>
      exact ⟨base, hbase.command (InOrder.after hbefore) hcommand hhandle⟩
    | finish hfinished => exact ⟨_, hbase.finish hbefore hfinished⟩

/-- Between two entries the copy is the ledger of the log so far. -/
theorem apply_log_of_offset {ticks : Nat} (hafter : after B log ticks = some self)
    (hoffset : self.offset = 0) :
    Ledger.new.apply_log B (log.upto self.reached.applied_index) = some self.reached := by
  obtain ⟨base, hbase⟩ := Applies.after hafter
  have hcommands := hbase.commands
  rw [hoffset, List.take_zero] at hcommands
  cases hcommands
  exact hbase.whole

/-- The copy comes to the end of its entry. -/
theorem after_entry {ticks : Nat} (hafter : after B log ticks = some self) :
    ∃ ticks replay, after B log ticks = some replay ∧ replay.offset = 0 ∧
      replay.reached.applied_index = self.position.log_index := by
  -- The commands of the entry that the copy has not handled.
  induction hleft : (log self.position.log_index).length - self.offset
    generalizing ticks self with
  | zero =>
    have hfinished := List.getElem?_eq_none (Nat.le_of_sub_eq_zero hleft)
    exact ⟨ticks + 1, _, (Ticks.finish hfinished).after_succ hafter, rfl, rfl⟩
  | succ left ih =>
    have hoffset : self.offset < (log self.position.log_index).length := by omega
    have hordered := (InOrder.after hafter).ordered
    obtain ⟨ledger, hhandle⟩ := hordered.handle_command_total self.position.log_index self.offset
      (log self.position.log_index)[self.offset]
    obtain ⟨_, happlied, _⟩ := hordered.extends_of_handle (Nat.lt_succ_self _) hhandle
    have hticks := Ticks.command (List.getElem?_eq_getElem hoffset) hhandle
    have hposition : (⟨ledger, self.offset + 1⟩ : Replay).position.log_index =
        self.position.log_index := congrArg (· + 1) happlied
    rw [← hposition]
    apply ih (hticks.after_succ hafter)
    rw [hposition]
    change _ - (self.offset + 1) = left
    omega

/-- Every entry of the log is applied at some moment. -/
theorem exists_after (B : BigDecimal) (log : Log) (entries : Nat) :
    ∃ ticks replay, after B log ticks = some replay ∧ replay.offset = 0 ∧
      replay.reached.applied_index = Ledger.new.applied_index + entries := by
  induction entries with
  | zero => exact ⟨0, start, rfl, rfl, rfl⟩
  | succ entries ih =>
    obtain ⟨ticks, replay, hafter, _, happlied⟩ := ih
    obtain ⟨later, next, hnext, hoffset, hindex⟩ := after_entry hafter
    exact ⟨later, next, hnext, hoffset, hindex.trans (congrArg (· + 1) happlied)⟩

/-- An event is in the ledger of the log up to the entry of the event. -/
theorem event_of_log {ticks : Nat} (hafter : after B log ticks = some self) {seq_num : Nat}
    {event : Event} (hevent : self.reached.event_at seq_num = some event) :
    ∃ ledger, Ledger.new.apply_log B (log.upto event.header.log_index) = some ledger ∧
      ledger.event_at seq_num = some event := by
  have hstart : after B log 0 = some start := rfl
  have hnew : Ledger.new.applied_index < event.header.log_index :=
    ((after_extends hstart (by rwa [Nat.zero_add])).new_events seq_num event hevent).resolve_left
      nofun
  obtain ⟨entries, hentries⟩ := Nat.exists_eq_add_of_le hnew.le
  obtain ⟨then_ticks, replay, hthen, hoffset, happlied⟩ := exists_after B log entries
  have hledger := apply_log_of_offset hthen hoffset
  rw [happlied, ← hentries] at hledger
  refine ⟨replay.reached, hledger, ?_⟩
  obtain hextends | hextends := after_total hafter hthen
  · obtain hfound | hlater := hextends.new_events seq_num event hevent
    · exact hfound
    · omega
  · exact hextends.events seq_num event hevent

end Replay

end firm_wallet.ledger
