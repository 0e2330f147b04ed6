import Auticuro.TinyMq.ApplyState
import Auticuro.TinyMq.Proposals

namespace hologram_kv

variable {Closure : Type}

/-- The panics about callbacks that are lost, doubled or out of order. -/
def Panic.IsCallbackPanic : Panic → Prop
  | .UnexpectedCallback _ _ _ => True
  | .ProposalOrder => True
  | .CallbackLeak _ _ => True
  | _ => False

namespace PendingCmdQueue

theorem find_pending_above (current_term : Nat) {index term : Nat}
    {normals : List (PendingCmd Closure)} (habove : ∀ cmd ∈ normals, log_key term index < cmd.key) :
    find_pending current_term index term normals = .ok (none, normals, []) := by
  cases normals with
  | nil => rfl
  | cons head normals =>
    unfold find_pending
    rw [if_pos (habove head List.mem_cons_self)]

theorem find_pending_found (current_term : Nat) {index term : Nat} {head : PendingCmd Closure}
    {cb : Callback Closure} (hkey : head.key = log_key term index) (hcb : head.cb = some cb)
    (normals : List (PendingCmd Closure)) :
    find_pending current_term index term (head :: normals) = .ok (some cb, normals, []) := by
  obtain ⟨hterm, hindex⟩ := log_key_inj.mp hkey
  unfold find_pending
  rw [if_neg (not_lt.mpr hkey.le), if_pos hterm, if_pos hindex, PendingCmd.take, hcb]
  rfl

theorem clear_stale_above (resp : RaftCmdResponse) {index term : Nat}
    {normals : List (PendingCmd Closure)} (habove : ∀ cmd ∈ normals, log_key term index < cmd.key) :
    clear_stale index term resp normals = .ok ([], normals) := by
  cases normals with
  | nil => rfl
  | cons head normals =>
    unfold clear_stale
    rw [if_pos (habove head List.mem_cons_self)]

end PendingCmdQueue

theorem exec_write_cmd_avoids (index : Nat) (req : RaftCmdRequest) :
    Exec.Avoids Panic.IsCallbackPanic (exec_write_cmd index req) := by
  refine Exec.Avoids.bind (Exec.Avoids.mapM ?_) fun responses _ => Exec.Avoids.ok _
  rintro ⟨request, offset⟩ -
  cases request with
  | MessageQueue payload => exact Exec.Avoids.ok _
  | Invalid => exact Exec.Avoids.error not_false

theorem exec_raft_cmd_avoids (state : RaftApplyState) (index : Nat) (req : RaftCmdRequest) :
    Exec.Avoids Panic.IsCallbackPanic (exec_raft_cmd state index req) := by
  unfold exec_raft_cmd
  split
  · exact Exec.Avoids.ok _
  · exact (exec_write_cmd_avoids index req).bind fun resp _ => Exec.Avoids.ok _

/-- A command that does not panic is applied at its index, also when it fails. -/
theorem apply_raft_cmd_ensures (state : RaftApplyState) (index : Nat) (req : RaftCmdRequest) :
    Exec.Ensures Panic.IsCallbackPanic
      (fun result => apply_raft_cmd state index req = .ok result ∧
        result.2.1.applied_index = index)
      (apply_raft_cmd state index req) := by
  have havoids : Exec.Avoids Panic.IsCallbackPanic (apply_raft_cmd state index req) := by
    refine (exec_raft_cmd_avoids state index req).bind fun result _ => ?_
    cases result <;> exact Exec.Avoids.ok _
  refine havoids.ensures fun result hresult => ⟨hresult, ?_⟩
  obtain ⟨_, _, ⟨_, _, _, hnext, _⟩ | ⟨_, _, hnext⟩⟩ | ⟨_, hnext, _⟩ := apply_raft_cmd_cases hresult
  · rw [hnext]
  · rw [hnext]
  · rw [hnext]

/-- The response of executing the command of an entry, in some apply state. -/
def Entry.Executed (entry : Entry) (resp : RaftCmdResponse) : Prop :=
  ∃ cmd state result term, entry.data = some cmd ∧
    apply_raft_cmd state entry.index cmd = .ok result ∧ resp = cmd_resp.bind_term result.1 term

variable {index : Nat}

/-- Requests that are executed are messages, and their responses enumerate them. -/
theorem exec_requests_eq_ok {requests : List Request} {responses : List MessageQueueResponse}
    {offset : Nat}
    (hresponses : (requests.zipIdx offset).mapM (exec_request index) = .ok responses) :
    (∃ payloads : List Bytes, requests = payloads.map .MessageQueue) ∧
      responses = (List.range' offset requests.length).map (handle_message_queue index) := by
  rw [Exec.mapM_eq_ok_iff] at hresponses
  induction requests generalizing responses offset with
  | nil =>
    cases hresponses
    exact ⟨⟨[], rfl⟩, rfl⟩
  | cons request requests ih =>
    rw [List.zipIdx_cons] at hresponses
    obtain ⟨response, rest, hresponse, hrest, rfl⟩ := List.forall₂_cons_left_iff.mp hresponses
    obtain ⟨⟨payloads, hpayloads⟩, heq⟩ := ih hrest
    cases request with
    | Invalid => cases hresponse
    | MessageQueue payload =>
      cases hresponse
      refine ⟨⟨payload :: payloads, by rw [hpayloads, List.map_cons]⟩, ?_⟩
      rw [heq, List.length_cons, List.range'_succ, List.map_cons]

/-- What a response without an error says of the command at an index. -/
structure Responds (cmd : RaftCmdRequest) (index : Nat) (resp : RaftCmdResponse) : Prop where
  error : resp.header.error = none
  messages : ∃ payloads : List Bytes, cmd.get_requests = payloads.map .MessageQueue
  responses : resp.responses =
    (List.range cmd.get_requests.length).map (handle_message_queue index)

theorem response_to_error (header : RaftRequestHeader) (resp : RaftCmdResponse) :
    (response_to header resp).header.error = resp.header.error := by
  unfold response_to
  split <;> rfl

theorem response_to_responses (header : RaftRequestHeader) (resp : RaftCmdResponse) :
    (response_to header resp).responses = resp.responses := by
  unfold response_to
  split <;> rfl

variable {resp : RaftCmdResponse}

theorem exec_write_cmd_responds {req : RaftCmdRequest}
    (hresp : exec_write_cmd index req = .ok resp) : Responds req index resp := by
  obtain ⟨responses, hresponses, hresp⟩ := Exec.bind_eq_ok_iff.mp hresp
  obtain ⟨hpayloads, heq⟩ := exec_requests_eq_ok hresponses
  cases hresp
  refine ⟨response_to_error _ _, hpayloads, ?_⟩
  rw [response_to_responses, List.range_eq_range']
  exact heq

variable {cmd : RaftCmdRequest}

theorem exec_admin_cmd_responds {state executed : RaftApplyState} {request : AdminRequest}
    {res : Option ExecResult} (hbody : cmd.body = .admin_request request)
    (hresult : exec_admin_cmd state cmd.header request = .ok (resp, executed, res)) :
    Responds cmd index resp := by
  have hempty : cmd.get_requests = [] := by
    unfold RaftCmdRequest.get_requests
    rw [hbody]
  cases request with
  | InvalidAdmin => cases hresult
  | CompactLog compact_index compact_term =>
    obtain ⟨compacted, -, hresult⟩ := Exec.bind_eq_ok_iff.mp hresult
    cases hresult
    refine ⟨response_to_error _ _, ⟨[], hempty⟩, ?_⟩
    rw [response_to_responses, hempty]
    rfl

theorem exec_admin_cmd_error {state : RaftApplyState} {header : RaftRequestHeader}
    {request : AdminRequest} {err : Error}
    (hadmin : exec_admin_cmd state header request = .error err) :
    ∃ message, err = .Other message := by
  cases request with
  | CompactLog compact_index compact_term =>
    simp only [exec_admin_cmd] at hadmin
    obtain ⟨message, hcompact⟩ | hcompact | ⟨-, hcompact⟩ :=
      exec_compact_log_cases state compact_index compact_term
    · rw [hcompact] at hadmin
      cases hadmin
      exact ⟨message, rfl⟩
    · rw [hcompact] at hadmin
      cases hadmin
    · rw [hcompact] at hadmin
      cases hadmin
  | InvalidAdmin =>
    cases hadmin
    exact ⟨_, rfl⟩

/-- A command responds to all of its requests, or it is an administrator
command that fails. -/
theorem apply_raft_cmd_responds {state : RaftApplyState}
    {result : RaftCmdResponse × RaftApplyState × Option ExecResult}
    (hresult : apply_raft_cmd state index cmd = .ok result) :
    Responds cmd index result.1 ∨
      (∃ request, cmd.body = .admin_request request) ∧
        ∃ message, result.1.header.error = some (.Other message) := by
  obtain ⟨request, hbody, ⟨err, hadmin, hresp, -⟩ | ⟨executed, hadmin, -⟩⟩ | ⟨hwritten, -⟩ :=
    apply_raft_cmd_cases hresult
  · obtain ⟨message, rfl⟩ := exec_admin_cmd_error hadmin
    refine .inr ⟨⟨request, hbody⟩, message, ?_⟩
    rw [hresp]
    rfl
  · exact .inl (exec_admin_cmd_responds hbody hadmin)
  · exact .inl (exec_write_cmd_responds hwritten)

theorem Responds.bind_term (hresponds : Responds cmd index resp) (term : Nat) :
    Responds cmd index (cmd_resp.bind_term resp term) := by
  refine ⟨?_, hresponds.messages, ?_⟩
  · rw [cmd_resp.bind_term_error, hresponds.error]
  · rw [cmd_resp.bind_term_responses, hresponds.responses]

theorem Entry.Executed.responds {entry : Entry} (hexecuted : entry.Executed resp)
    (hdata : entry.data = some cmd) :
    Responds cmd entry.index resp ∨
      (∃ request, cmd.body = .admin_request request) ∧
        ∃ message, resp.header.error = some (.Other message) := by
  obtain ⟨executed, state, result, term, hexecutedData, hresult, rfl⟩ := hexecuted
  rw [hdata] at hexecutedData
  cases hexecutedData
  rcases apply_raft_cmd_responds hresult with hresponds | ⟨hadmin, herror⟩
  · exact .inl (hresponds.bind_term term)
  · refine .inr ⟨hadmin, ?_⟩
    rw [cmd_resp.bind_term_error]
    exact herror

namespace ApplyFsm

/-- One entry has been handled: the calls wait for the next write, nothing else
that callbacks depend on has changed. -/
structure Handled (entry : Entry) (pending_cmds : List (PendingCmd Closure))
    (batch : List (Call Closure)) (before after : ApplyFsm Closure) : Prop where
  pending : after.delegate.pending_cmds = pending_cmds
  applied : after.delegate.apply_state.applied_index = entry.index
  flushed : after.delegate.last_flush_applied_index = before.delegate.last_flush_applied_index
  batch : after.ctx.applied_batch = before.ctx.applied_batch ++ batch
  invoked : after.ctx.invoked = before.ctx.invoked
  timer : after.ctx.timer = before.ctx.timer

variable {fsm : ApplyFsm Closure} {entry : Entry}

theorem process_raft_cmd_ensures {cb : Option (Callback Closure)}
    {normals : List (PendingCmd Closure)} (hdata : entry.data = some cmd)
    (hfind : PendingCmdQueue.find_pending fsm.delegate.term entry.index entry.term
      fsm.delegate.pending_cmds = .ok (cb, normals, [])) :
    Exec.Ensures Panic.IsCallbackPanic
      (fun result => ∃ resp, entry.Executed resp ∧
        Handled entry normals (cb.toList.map (fun cb => (cb, resp))) fsm result.1)
      (fsm.process_raft_cmd entry.index entry.term cmd) := by
  unfold process_raft_cmd
  by_cases hindex : entry.index = 0
  · rw [if_pos hindex]
    exact not_false
  · rw [if_neg hindex]
    refine (apply_raft_cmd_ensures fsm.delegate.apply_state entry.index cmd).bind ?_
    rintro ⟨resp, state, exec_result⟩ ⟨happly, happlied⟩
    simp only [hfind, Exec.ok_bind]
    refine ⟨cmd_resp.bind_term resp fsm.delegate.term,
      ⟨cmd, fsm.delegate.apply_state, _, fsm.delegate.term, hdata, happly, rfl⟩, ?_⟩
    exact ⟨rfl, happlied, rfl, rfl, List.append_nil _, rfl⟩

/-- An entry below every waiting command leaves the queue alone. -/
theorem handle_skipped (hlater : ∀ cmd ∈ fsm.delegate.pending_cmds, entry.key < cmd.key) :
    Exec.Ensures Panic.IsCallbackPanic
      (fun result => Handled entry fsm.delegate.pending_cmds [] fsm result.1)
      (fsm.handle_raft_entry_normal entry) := by
  unfold handle_raft_entry_normal
  cases hdata : entry.data with
  | some cmd =>
    have hprocess := process_raft_cmd_ensures hdata
      (PendingCmdQueue.find_pending_above fsm.delegate.term hlater)
    refine hprocess.mono ?_
    rintro result ⟨resp, -, hhandled⟩
    exact hhandled
  | none =>
    by_cases hterm : entry.term = 0
    · rw [if_pos hterm]
      exact not_false
    · have habove : ∀ cmd ∈ fsm.delegate.pending_cmds,
          log_key (entry.term - 1) u64_MAX < cmd.key := by
        intro cmd hcmd
        have hlt := log_key_lt_iff.mp (hlater cmd hcmd)
        refine log_key_lt_iff.mpr (.inl ?_)
        omega
      rw [if_neg hterm]
      simp only [PendingCmdQueue.clear_stale_above _ habove, Exec.ok_bind]
      exact ⟨rfl, rfl, rfl, rfl, rfl, rfl⟩

/-- The entry of the first waiting command takes its callback. -/
theorem handle_found {p : Proposal Closure} {normals : List (PendingCmd Closure)}
    (hpending : fsm.delegate.pending_cmds = PendingCmd.new p.index p.term p.cb :: normals)
    (hkey : p.key = entry.key) (hdata : entry.data.isSome) :
    Exec.Ensures Panic.IsCallbackPanic
      (fun result =>
        ∃ resp, entry.Executed resp ∧ Handled entry normals [(p.cb, resp)] fsm result.1)
      (fsm.handle_raft_entry_normal entry) := by
  obtain ⟨cmd, hcmd⟩ := Option.isSome_iff_exists.mp hdata
  have hfind : PendingCmdQueue.find_pending fsm.delegate.term entry.index entry.term
      fsm.delegate.pending_cmds = .ok (some p.cb, normals, []) := by
    rw [hpending]
    have hhead : (PendingCmd.new p.index p.term p.cb).key = log_key entry.term entry.index := hkey
    exact PendingCmdQueue.find_pending_found fsm.delegate.term hhead rfl normals
  unfold handle_raft_entry_normal
  rw [hcmd]
  exact process_raft_cmd_ensures hcmd hfind

/-- A task has been applied: its callbacks wait for the next write, each with
the response of its own entry. -/
structure Applied (entries : List Entry) (cbs : List (Proposal Closure))
    (before after : ApplyFsm Closure) : Prop where
  pending : after.delegate.pending_cmds = []
  applied : ∀ entry ∈ entries, entry.index ≤ after.delegate.apply_state.applied_index
  reached : ∀ bound, before.delegate.apply_state.applied_index < bound →
    (∀ entry ∈ entries, entry.index < bound) → after.delegate.apply_state.applied_index < bound
  advanced : before.delegate.apply_state.applied_index ≤ after.delegate.apply_state.applied_index
  flushed : after.delegate.last_flush_applied_index = before.delegate.last_flush_applied_index
  batch : ∃ batch, after.ctx.applied_batch = before.ctx.applied_batch ++ batch ∧
    List.Forall₂ (fun p call => call.1 = p.cb ∧
      ∃ entry ∈ entries, entry.key = p.key ∧ entry.Executed call.2) cbs batch
  invoked : after.ctx.invoked = before.ctx.invoked
  timer : after.ctx.timer = before.ctx.timer

theorem Applied.cons {entries : List Entry} {cbs now later : List (Proposal Closure)}
    {batch : List (Call Closure)} {pending_cmds : List (PendingCmd Closure)}
    {before middle after : ApplyFsm Closure} (hcbs : cbs = now ++ later)
    (hexpect : entry.index = before.delegate.apply_state.applied_index + 1)
    (hbatch : List.Forall₂ (fun p call => call.1 = p.cb ∧
      entry.key = p.key ∧ entry.Executed call.2) now batch)
    (hhandled : Handled entry pending_cmds batch before middle)
    (happlied : Applied entries later middle after) :
    Applied (entry :: entries) cbs before after := by
  have hmiddle := hhandled.applied
  have hadvanced := happlied.advanced
  refine ⟨happlied.pending, ?_, ?_, by omega, happlied.flushed.trans hhandled.flushed, ?_,
    happlied.invoked.trans hhandled.invoked, happlied.timer.trans hhandled.timer⟩
  · intro other hother
    obtain rfl | hother := List.mem_cons.mp hother
    · omega
    · exact happlied.applied other hother
  · intro bound _ hbound
    refine happlied.reached bound ?_ fun other hother =>
      hbound other (List.mem_cons_of_mem _ hother)
    rw [hmiddle]
    exact hbound entry List.mem_cons_self
  · obtain ⟨rest, hrest, hresponses⟩ := happlied.batch
    refine ⟨batch ++ rest, by rw [hrest, hhandled.batch, List.append_assoc], ?_⟩
    rw [hcbs]
    refine List.rel_append (hbatch.imp ?_) (hresponses.imp ?_)
    · rintro p call ⟨hcb, hkey, hexecuted⟩
      exact ⟨hcb, entry, List.mem_cons_self, hkey, hexecuted⟩
    · rintro p call ⟨hcb, other, hother, hkey, hexecuted⟩
      exact ⟨hcb, other, List.mem_cons_of_mem _ hother, hkey, hexecuted⟩

theorem apply_entries_ensures {entries : List Entry} {cbs : List (Proposal Closure)}
    (hmatched : Matched cbs entries) {fsm : ApplyFsm Closure}
    (hpending : fsm.delegate.pending_cmds =
      cbs.map (fun p => PendingCmd.new p.index p.term p.cb)) :
    Exec.Ensures Panic.IsCallbackPanic (fun result => Applied entries cbs fsm result.1)
      (fsm.apply_entries entries) := by
  induction hmatched generalizing fsm with
  | nil =>
    exact ⟨hpending, by simp, fun _ hlt _ => hlt, le_rfl, rfl,
      ⟨[], (List.append_nil _).symm, .nil⟩, rfl, rfl⟩
  | @skip cbs entry entries hlater hrest ih =>
    unfold apply_entries
    by_cases hexpect : entry.index = fsm.delegate.apply_state.applied_index + 1
    · rw [if_neg (not_not.mpr hexpect)]
      have hskipped : ∀ cmd ∈ fsm.delegate.pending_cmds, entry.key < cmd.key := by
        intro cmd hcmd
        rw [hpending] at hcmd
        obtain ⟨p, hp, rfl⟩ := List.mem_map.mp hcmd
        exact hlater p hp
      refine (handle_skipped hskipped).bind ?_
      rintro ⟨middle, res⟩ hhandled
      refine (ih (hhandled.pending.trans hpending)).bind ?_
      rintro ⟨after, results⟩ happlied
      exact Applied.cons (List.nil_append cbs).symm hexpect .nil hhandled happlied
    · rw [if_pos hexpect]
      exact not_false
  | @found p cbs entry entries hkey hdata hrest ih =>
    unfold apply_entries
    by_cases hexpect : entry.index = fsm.delegate.apply_state.applied_index + 1
    · rw [if_neg (not_not.mpr hexpect)]
      refine (handle_found hpending hkey hdata).bind ?_
      rintro ⟨middle, res⟩ ⟨resp, hexecuted, hhandled⟩
      refine (ih hhandled.pending).bind ?_
      rintro ⟨after, results⟩ happlied
      exact Applied.cons (List.singleton_append (x := p) (l := cbs)).symm hexpect
        (.cons ⟨rfl, hkey.symm, hexecuted⟩ .nil) hhandled happlied
    · rw [if_pos hexpect]
      exact not_false

/-- A task whose callbacks match its entries is applied without a panic about
callbacks, when no command is left over from the task before. -/
theorem handle_apply_ensures {apply : Apply Closure} (hmatched : Matched apply.cbs apply.entries)
    (hpending : fsm.delegate.pending_cmds = []) :
    Exec.Ensures Panic.IsCallbackPanic
      (fun after => ∃ before : ApplyFsm Closure,
        before = { fsm with ctx := { fsm.ctx with timer := true } } ∧
          Applied apply.entries apply.cbs before after)
      (fsm.handle_apply apply) := by
  unfold handle_apply
  cases hlast : apply.entries.getLast? with
  | none => exact not_false
  | some entry =>
    simp only [set_commit_state]
    split
    · exact not_false
    · simp only [Exec.ok_bind, handle_raft_committed_entries]
      refine (apply_entries_ensures hmatched ?_).bind ?_
      · simp only [append_proposal, hpending, List.nil_append]
      · rintro ⟨after, results⟩ happlied
        exact ⟨_, rfl, happlied.pending, happlied.applied, happlied.reached, happlied.advanced,
          happlied.flushed, happlied.batch, happlied.invoked, happlied.timer⟩

end ApplyFsm

end hologram_kv
