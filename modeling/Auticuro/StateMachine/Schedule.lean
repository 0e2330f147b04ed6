import Auticuro.StateMachine.Steps

open Run

namespace firm_wallet.state_machine

open balance_calculator internal_servicepb rocksdb_state

/-- A log entry, and whether the wallet is flushed right after it. A flush with
nothing applied since the previous one fails its assertion, so these are all
the points at which a flush can happen. -/
abbrev ScheduledEntry := Entry × Bool

variable (B : BigDecimal)

def Wallet.apply_scheduled (self : Wallet) (item : ScheduledEntry) : Option Wallet := do
  let wallet ← self.apply_entry B item.1
  if item.2 then wallet.flush else some wallet

def Wallet.apply_schedule (self : Wallet) (schedule : List ScheduledEntry) : Option Wallet :=
  run (Wallet.apply_scheduled B) self schedule

/-- Every command of the entry is handled in a state where the guard allows it. -/
def Wallet.EntryAlong (guard : Wallet → Command → Prop) (self : Wallet) (entry : Entry) : Prop :=
  Along (fun wallet item => wallet.handle_command B entry.1 item.2 item.1)
    (fun wallet item => guard wallet item.1) self entry.2.zipIdx

/-- Every command of the schedule is handled in a state where the guard allows
it. -/
def Wallet.ScheduleAlong (guard : Wallet → Command → Prop) (self : Wallet)
    (schedule : List ScheduledEntry) : Prop :=
  Along (Wallet.apply_scheduled B) (fun wallet item => wallet.EntryAlong B guard item.1)
    self schedule

instance (guard : Wallet → Command → Prop) [∀ wallet command, Decidable (guard wallet command)]
    (wallet : Wallet) (entry : Entry) : Decidable (wallet.EntryAlong B guard entry) :=
  inferInstanceAs (Decidable (Along _ _ _ _))

instance (guard : Wallet → Command → Prop) [∀ wallet command, Decidable (guard wallet command)]
    (wallet : Wallet) (schedule : List ScheduledEntry) :
    Decidable (wallet.ScheduleAlong B guard schedule) :=
  inferInstanceAs (Decidable (Along _ _ _ _))

variable {B}

theorem Wallet.apply_entry_eq (self : Wallet) (entry : Entry) :
    self.apply_entry B entry =
      if self.statemachine.applied_index + 1 = entry.1 then
        (self.handle_commands B entry.1 entry.2.zipIdx).map (Wallet.finish_entry · entry.1)
      else none := by
  unfold apply_entry
  rw [Option.map_eq_bind]
  rfl

variable {self next : Wallet}

theorem Wallet.apply_entry_eq_some_iff {entry : Entry} :
    self.apply_entry B entry = some next ↔
      self.statemachine.applied_index + 1 = entry.1 ∧
        ∃ middle, self.handle_commands B entry.1 entry.2.zipIdx = some middle ∧
          next = middle.finish_entry entry.1 := by
  rw [apply_entry_eq]
  by_cases hindex : self.statemachine.applied_index + 1 = entry.1
  · simp [hindex, eq_comm]
  · simp [hindex]

theorem Wallet.apply_scheduled_without_flush (self : Wallet) (entry : Entry) :
    self.apply_scheduled B (entry, false) = self.apply_entry B entry := by
  unfold apply_scheduled
  cases self.apply_entry B entry <;> rfl

theorem Wallet.apply_scheduled_eq_some_iff {item : ScheduledEntry} :
    self.apply_scheduled B item = some next ↔
      ∃ middle, self.apply_entry B item.1 = some middle ∧
        (if item.2 then middle.flush else some middle) = some next := by
  unfold apply_scheduled
  cases self.apply_entry B item.1 with
  | none | some middle => simp

/-- What guarded commands preserve inside an entry holds after its last one. -/
theorem Wallet.handle_commands_invariant {guard : Wallet → Command → Prop}
    {Inv : Wallet → Prop} {log_index : Nat}
    (hcommand : ∀ wallet offset command next, Inv wallet → guard wallet command →
      wallet.handle_command B log_index offset command = some next → Inv next)
    {start last : Wallet} {commands : List (Command × Nat)} (hstart : Inv start)
    (halong : Along (fun wallet item => wallet.handle_command B log_index item.2 item.1)
      (fun wallet item => guard wallet item.1) start commands)
    (hrun : start.handle_commands B log_index commands = some last) : Inv last :=
  run_invariant_along
    (fun wallet item next hinv hguard hnext =>
      hcommand wallet item.2 item.1 next hinv hguard hnext)
    hstart halong hrun

theorem Wallet.handle_command_indices {log_index offset : Nat} {command : Command}
    (hhandle : self.handle_command B log_index offset command = some next) :
    next.statemachine.applied_index = self.statemachine.applied_index ∧
      next.context.flushed_applied_index = self.context.flushed_applied_index := by
  obtain ⟨_, _, _, _, rfl⟩ | ⟨_, _, _, rfl⟩ | ⟨_, _, _, rfl⟩ := handle_command_cases B hhandle
  · exact ⟨rfl, rfl⟩
  · exact ⟨rfl, rfl⟩
  · exact ⟨rfl, rfl⟩

theorem Wallet.apply_entry_indices {entry : Entry} (hentry : self.apply_entry B entry = some next) :
    next.statemachine.applied_index = self.statemachine.applied_index + 1 ∧
      next.context.flushed_applied_index = self.context.flushed_applied_index := by
  obtain ⟨hindex, middle, hcommands, rfl⟩ := apply_entry_eq_some_iff.mp hentry
  refine ⟨hindex.symm, ?_⟩
  change middle.context.flushed_applied_index = _
  have hstep : ∀ (wallet : Wallet) (item : Command × Nat) (next : Wallet),
      wallet.context.flushed_applied_index = self.context.flushed_applied_index →
      wallet.handle_command B entry.1 item.2 item.1 = some next →
      next.context.flushed_applied_index = self.context.flushed_applied_index := by
    intro wallet item next hflushed hnext
    rw [(handle_command_indices hnext).2, hflushed]
  exact run_invariant hstep rfl hcommands

/-- The invariant rule for schedules: an invariant `Inv` of the states between
entries follows from an invariant `Mid` of the states inside an entry that the
commands preserve, that finishing the entry turns back into `Inv`, and from
`Inv` surviving the flush. -/
theorem Wallet.apply_scheduled_invariant {guard : Wallet → Command → Prop} (Inv : Wallet → Prop)
    (Mid : Nat → Wallet → Prop)
    (henter : ∀ wallet, Inv wallet → Mid (wallet.statemachine.applied_index + 1) wallet)
    (hcommand : ∀ wallet log_index offset command next, Mid log_index wallet →
      guard wallet command → wallet.handle_command B log_index offset command = some next →
      Mid log_index next)
    (hfinish : ∀ wallet log_index, Mid log_index wallet → Inv (wallet.finish_entry log_index))
    (hflush : ∀ wallet next, Inv wallet → wallet.flush = some next → Inv next)
    {wallet next : Wallet} {item : ScheduledEntry} (hinv : Inv wallet)
    (halong : wallet.EntryAlong B guard item.1)
    (hnext : wallet.apply_scheduled B item = some next) : Inv next := by
  obtain ⟨middle, hentry, hrest⟩ := apply_scheduled_eq_some_iff.mp hnext
  obtain ⟨hindex, handled, hhandled, rfl⟩ := apply_entry_eq_some_iff.mp hentry
  have hstart : Mid item.1.1 wallet := hindex ▸ henter wallet hinv
  have hmid : Mid item.1.1 handled :=
    handle_commands_invariant (fun wallet => hcommand wallet item.1.1) hstart halong hhandled
  have hfinished := hfinish handled item.1.1 hmid
  split at hrest
  · exact hflush _ next hfinished hrest
  · cases hrest
    exact hfinished

end firm_wallet.state_machine
