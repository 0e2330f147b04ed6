import Auticuro.TinyMq.Cluster
import Auticuro.TinyMq.Positions

namespace hologram_kv

namespace PeerFsm

variable {Client : Type}

/-- A peer has sent a command to its leader and told the clients `NotLeader`. -/
structure Forwarded (fsm : PeerFsm Client) (data : CommandData Client) : Prop where
  proposal : (data.commands, none) ∈ fsm.proposals
  nonempty : data.commands ≠ []
  answered : ∃ cb resp, Built data.commands data.request cb ∧ resp.is_not_leader ∧
    ∀ call ∈ cb.invoke_with_response resp, call ∈ fsm.rejected

/-- What a peer has done stays done. -/
structure Extends (before after : PeerFsm Client) : Prop where
  proposals : before.proposals ⊆ after.proposals
  rejected : before.rejected ⊆ after.rejected

theorem Extends.of_eq {before after : PeerFsm Client}
    (hproposals : after.proposals = before.proposals)
    (hrejected : after.rejected = before.rejected) : Extends before after := by
  refine ⟨?_, ?_⟩
  · rw [hproposals]
    exact List.Subset.refl _
  · rw [hrejected]
    exact List.Subset.refl _

theorem Forwarded.extends {before after : PeerFsm Client} {data : CommandData Client}
    (hforwarded : before.Forwarded data) (hextends : Extends before after) :
    after.Forwarded data := by
  obtain ⟨cb, resp, hbuilt, herror, hcalls⟩ := hforwarded.answered
  exact ⟨hextends.proposals hforwarded.proposal, hforwarded.nonempty, cb, resp, hbuilt, herror,
    fun call hcall => hextends.rejected (hcalls call hcall)⟩

/-- What proposing does to the log and to the messages of a peer. -/
structure Proposes (before after : PeerFsm Client) : Prop where
  ext : Extends before after
  received : after.received = before.received
  log : ∀ entry ∈ after.raft_group.log, entry ∈ before.raft_group.log ∨
    ∃ key, (entry.2.commands, some key) ∈ after.proposals
  msgs : ∀ msg ∈ after.raft_group.msgs, msg ∈ before.raft_group.msgs ∨ after.Forwarded msg.data

/-- A step that proposes nothing. -/
theorem Proposes.of_eq {before after : PeerFsm Client} (hextends : Extends before after)
    (hreceived : after.received = before.received)
    (hraft_group : after.raft_group = before.raft_group) : Proposes before after := by
  refine ⟨hextends, hreceived, ?_, ?_⟩
  · rw [hraft_group]
    exact fun _ hentry => .inl hentry
  · rw [hraft_group]
    exact fun _ hmsg => .inl hmsg

theorem Proposes.trans {before middle after : PeerFsm Client} (hfirst : Proposes before middle)
    (hsecond : Proposes middle after) : Proposes before after := by
  refine ⟨⟨List.Subset.trans hfirst.ext.proposals hsecond.ext.proposals,
    List.Subset.trans hfirst.ext.rejected hsecond.ext.rejected⟩,
    hsecond.received.trans hfirst.received, ?_, ?_⟩
  · intro entry hentry
    obtain hentry | hnew := hsecond.log entry hentry
    · obtain hentry | ⟨key, hkey⟩ := hfirst.log entry hentry
      · exact .inl hentry
      · exact .inr ⟨key, hsecond.ext.proposals hkey⟩
    · exact .inr hnew
  · intro msg hmsg
    obtain hmsg | hnew := hsecond.msgs msg hmsg
    · obtain hmsg | hforwarded := hfirst.msgs msg hmsg
      · exact .inl hmsg
      · exact .inr (hforwarded.extends hsecond.ext)
    · exact .inr hnew

variable {fsm : PeerFsm Client}

theorem mem_refused {cb : Callback Client} : cb ∈ fsm.refused ↔
    ∃ call ∈ fsm.invoked, ∃ answers, client_calls call = .ok answers ∧
      ∃ answer ∈ answers, answer.2.is_not_leader ∧ answer.1 = cb := by
  unfold PeerFsm.refused
  rw [List.mem_flatMap]
  refine exists_congr fun call => and_congr_right fun _ => ?_
  cases hanswers : client_calls call with
  | error panic => simp
  | ok answers => simp [and_assoc]

theorem is_not_leader_congr {resp other : RaftCmdResponse} (hheader : resp.header = other.header) :
    resp.is_not_leader = other.is_not_leader := by
  unfold RaftCmdResponse.is_not_leader
  rw [hheader]

/-- The apply thread does not answer `NotLeader`. -/
theorem Inv.not_leader_rejected {commands later : List (RaftCommand Client)}
    (hinv : Inv commands later fsm) {call : Call (Closure Client)} (hcall : call ∈ fsm.invoked)
    (herror : call.2.is_not_leader) : call ∈ fsm.rejected := by
  obtain hcall | hcall := List.mem_append.mp hcall
  · exact hcall
  · exfalso
    unfold RaftCmdResponse.is_not_leader at herror
    obtain ⟨p, hp, -, hanswered⟩ := hinv.replica.answered call hcall
    rcases hanswered with ⟨entry, hentry, hkey, hexecuted⟩ | ⟨hstale, -, -⟩
    · have hdata := hinv.replica.same entry hentry p hp hkey.symm
      rcases hexecuted.responds hdata with hresponds | ⟨-, message, hother⟩
      · simp [hresponds.error] at herror
      · simp [hother] at herror
    · simp [hstale] at herror

/-- A refused client has its command in a call that was not accepted. -/
theorem Inv.refused_proposal (hinv : Inv [] [] fsm) {cb : Callback Client}
    (hcb : cb ∈ fsm.refused) :
    ∃ commands, (commands, none) ∈ fsm.proposals ∧ ∃ cmd ∈ commands, cmd.callback = cb := by
  obtain ⟨call, hcall, answers, hanswers, answer, hanswer, herror, rfl⟩ := mem_refused.mp hcb
  have hbuilt : ∃ commands req, Built commands req call.1 := by
    obtain hcall | hcall := List.mem_append.mp hcall
    · obtain ⟨commands, req, -, hbuilt, -⟩ := hinv.rejected call hcall
      exact ⟨commands, req, hbuilt⟩
    · obtain ⟨p, hp, hcb, -⟩ := hinv.replica.answered call hcall
      obtain ⟨source, -, -, hbuilt⟩ := hinv.exists_accepted hp
      rw [hcb] at hbuilt
      exact ⟨source, p.2, hbuilt⟩
  obtain ⟨_, _, hbuilt⟩ := hbuilt
  have hheader := (client_calls_mem hbuilt hanswers answer hanswer).1
  rw [is_not_leader_congr hheader] at herror
  obtain ⟨commands, req, hproposal, hsource, -⟩ :=
    hinv.rejected call (hinv.not_leader_rejected hcall herror)
  exact ⟨commands, hproposal, (client_calls_mem hsource hanswers answer hanswer).2⟩

/-- The clients of a forwarded command are refused. -/
theorem Forwarded.refused {data : CommandData Client} (hforwarded : fsm.Forwarded data)
    (hwrite : ∀ cmd ∈ data.commands, cmd.callback.is_none = false) {cmd : RaftCommand Client}
    (hcmd : cmd ∈ data.commands) : cmd.callback ∈ fsm.refused := by
  obtain ⟨cb, resp, hbuilt, hleader, hcalls⟩ := hforwarded.answered
  have herror : resp.header.error.isSome := by
    unfold RaftCmdResponse.is_not_leader at hleader
    split at hleader
    · next heq => rw [heq]; rfl
    · cases hleader
  have hnone : cb.is_none = false := by
    have hnonempty := hforwarded.nonempty
    generalize data.commands = commands at hbuilt hwrite hnonempty
    cases hbuilt with
    | @alone single req hreq =>
      rw [of_client_is_none]
      exact hwrite single List.mem_cons_self
    | combined address hreq => rfl
    | compact hreq => exact absurd rfl hnonempty
  have hcall : (cb, resp) ∈ fsm.invoked := by
    refine List.mem_append_left _ (hcalls _ ?_)
    simp [Callback.invoke_with_response, hnone]
  obtain ⟨answers, hanswers, hmem⟩ := client_calls_error hbuilt herror
  obtain ⟨answer, hanswer, hcallback⟩ := List.mem_map.mp (hmem cmd hcmd (hwrite cmd hcmd))
  refine mem_refused.mpr ⟨_, hcall, answers, hanswers, answer, hanswer, ?_, hcallback⟩
  rw [is_not_leader_congr (client_calls_mem hbuilt hanswers answer hanswer).1]
  exact hleader

/-- Two calls of `propose_raft_command` have no client in common. -/
theorem Inv.proposal_unique (hinv : Inv [] [] fsm)
    {call other : List (RaftCommand Client) × Option (ℕ ×ₗ ℕ)} (hcall : call ∈ fsm.proposals)
    (hother : other ∈ fsm.proposals) {cmd cmd' : RaftCommand Client} (hcmd : cmd ∈ call.1)
    (hcmd' : cmd' ∈ other.1) (heq : cmd.callback = cmd'.callback)
    (hnone : cmd.callback.is_none = false) : call = other := by
  by_contra hne
  have hfresh := hinv.fresh
  rw [← hinv.arrival, client_callbacks_append, List.nodup_append, client_callbacks,
    List.map_flatMap, List.filter_flatMap, List.nodup_flatMap] at hfresh
  have hsymm : Std.Symm (Function.onFun List.Disjoint
      fun call : List (RaftCommand Client) × Option (ℕ ×ₗ ℕ) =>
        (call.1.map RaftCommand.callback).filter fun cb => !cb.is_none) :=
    ⟨fun _ _ hdisjoint _ hfirst hsecond => hdisjoint hsecond hfirst⟩
  have hdisjoint := hfresh.1.2.forall hcall hother hne
  refine hdisjoint (mem_client_callbacks hcmd hnone) ?_
  rw [heq]
  rw [heq] at hnone
  exact mem_client_callbacks hcmd' hnone

section Propose

variable {compute_size : RaftCmdRequest → Nat} {self : PeerMeta} {next : PeerFsm Client}
variable {commands : List (RaftCommand Client)} {req : RaftCmdRequest}
variable {cb : Callback (Closure Client)}

theorem answer_proposes {raft_group : RawNode (CommandData Client)} {resp : RaftCmdResponse}
    (hbuilt : Built commands req cb)
    (hnonempty : commands = [] → fsm.raft_group.role = .Leader)
    (hkept : Kept fsm.raft_group { request := req, commands := commands } raft_group
      resp.header.error) :
    Proposes fsm ({ fsm with raft_group := raft_group }.answer commands cb resp) := by
  have hmem : (commands, none) ∈
      ({ fsm with raft_group := raft_group }.answer commands cb resp).proposals :=
    List.mem_append_right _ (List.mem_singleton_self _)
  generalize herror : resp.header.error = error at hkept
  refine ⟨⟨List.subset_append_left _ _, List.subset_append_left _ _⟩, rfl, ?_, ?_⟩
  · intro entry hentry
    cases hkept <;> exact .inl hentry
  · intro msg hmsg
    cases hkept with
    | same error => exact .inl hmsg
    | @forwarded leader_id hrole region_id =>
      obtain hmsg | hmsg := List.mem_append.mp hmsg
      · exact .inl hmsg
      · rw [List.mem_singleton.mp hmsg]
        refine .inr ⟨hmem, ?_, cb, resp, hbuilt, ?_, List.subset_append_right _ _⟩
        · intro hempty
          have hleader := hnonempty hempty
          rw [hrole] at hleader
          cases hleader
        · unfold RaftCmdResponse.is_not_leader
          rw [herror]

theorem propose_raft_command_proposes (hbuilt : Built commands req cb)
    (hnonempty : commands = [] → fsm.raft_group.role = .Leader)
    (hpropose : fsm.propose_raft_command compute_size self commands req cb = .ok next) :
    Proposes fsm next := by
  obtain ⟨⟨raft_group, outcome⟩, hcommand, hrest⟩ := Exec.bind_eq_ok_iff.mp hpropose
  cases outcome with
  | Answered resp =>
    cases hrest
    exact answer_proposes hbuilt hnonempty (propose_command_answered hcommand).1
  | Proposed index =>
    obtain ⟨-, rfl, rfl⟩ := propose_command_proposed hcommand
    obtain ⟨replica, -, hnext⟩ := Exec.bind_eq_ok_iff.mp hrest
    cases hnext
    refine ⟨⟨List.subset_append_left _ _, List.Subset.refl _⟩, rfl, ?_, fun msg hmsg => .inl hmsg⟩
    intro entry hentry
    obtain hentry | hentry := List.mem_append.mp hentry
    · exact .inl hentry
    · rw [List.mem_singleton.mp hentry]
      exact .inr ⟨_, List.mem_append_right _ (List.mem_singleton_self _)⟩

theorem propose_batch_proposes (hholding : fsm.batch_req_builder.Holding)
    (hpropose : fsm.propose_batch_raft_command compute_size self = .ok next) :
    Proposes fsm next := by
  unfold PeerFsm.propose_batch_raft_command at hpropose
  split at hpropose
  · cases hpropose
    exact .of_eq (.of_eq rfl rfl) rfl rfl
  · next built cb builder hbuild =>
    have hheld : fsm.batch_req_builder.held ≠ [] := by
      intro hempty
      rw [BatchRaftCmdRequestBuilder.build, hholding.empty.mpr hempty] at hbuild
      cases hbuild
    have hstep := propose_raft_command_proposes (hholding.build hbuild).1
      (fun hempty => absurd hempty hheld) hpropose
    exact ⟨⟨hstep.ext.proposals, hstep.ext.rejected⟩, hstep.received, hstep.log, hstep.msgs⟩

theorem handle_command_proposes {cmd : RaftCommand Client}
    (hholding : fsm.batch_req_builder.Holding)
    (hhandle : fsm.handle_msg compute_size self (.RaftCommand cmd) = .ok next) :
    Proposes { fsm with received := fsm.received ++ [cmd] } next := by
  simp only [PeerFsm.handle_msg] at hhandle
  split at hhandle
  · split at hhandle
    · have hstep := propose_batch_proposes (hholding.add cmd _) hhandle
      exact ⟨⟨hstep.ext.proposals, hstep.ext.rejected⟩, hstep.received, hstep.log, hstep.msgs⟩
    · cases hhandle
      exact .of_eq (.of_eq rfl rfl) rfl rfl
  · obtain ⟨middle, hbatch, halone⟩ := Exec.bind_eq_ok_iff.mp hhandle
    have hfirst : Proposes { fsm with received := fsm.received ++ [cmd] } middle :=
      propose_batch_proposes hholding hbatch
    exact hfirst.trans
      (propose_raft_command_proposes (.alone rfl) (fun hempty => by cases hempty) halone)

end Propose

end PeerFsm

end hologram_kv
