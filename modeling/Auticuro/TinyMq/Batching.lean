import Auticuro.TinyMq.Callbacks
import Auticuro.TinyMq.ClientCalls

namespace hologram_kv

variable {Client : Type}

namespace BatchRaftCmdRequestBuilder

/-- The builder holds the requests and the callbacks of its commands. -/
structure Holding (builder : BatchRaftCmdRequestBuilder Client) : Prop where
  callbacks : builder.callbacks = callback_parts builder.held
  empty : builder.request = none ↔ builder.held = []
  requests : ∀ req ∈ builder.request, req.get_requests = all_requests builder.held

variable {builder : BatchRaftCmdRequestBuilder Client}

theorem Holding.new (allocated : Nat) :
    ({ allocated := allocated } : BatchRaftCmdRequestBuilder Client).Holding :=
  ⟨rfl, ⟨fun _ => rfl, fun _ => rfl⟩, fun _ hreq => by cases hreq⟩

theorem Holding.add (hholding : builder.Holding) (cmd : RaftCommand Client) (req_size : Nat) :
    (builder.add cmd req_size).Holding := by
  refine ⟨?_, ?_, ?_⟩
  · simp only [BatchRaftCmdRequestBuilder.add, hholding.callbacks, callback_parts, List.map_append,
      List.map_cons, List.map_nil]
  · simp only [BatchRaftCmdRequestBuilder.add]
    split <;> simp
  · intro req hreq
    simp only [BatchRaftCmdRequestBuilder.add, Option.mem_def] at hreq
    have hheld : all_requests (builder.held ++ [cmd]) =
        all_requests builder.held ++ cmd.request.get_requests := by
      rw [all_requests, all_requests, List.flatMap_append, List.flatMap_singleton]
    change req.get_requests = all_requests (builder.held ++ [cmd])
    rw [hheld]
    split at hreq
    · next batch_req hbatch =>
      cases hreq
      rw [← hholding.requests batch_req hbatch]
      rfl
    · next hnone =>
      cases hreq
      rw [hholding.empty.mp hnone]
      rfl

/-- The callback of a built command is the callback of its only command, or a
new closure. -/
theorem Holding.build (hholding : builder.Holding) {req : RaftCmdRequest}
    {cb : Callback (Closure Client)} {next : BatchRaftCmdRequestBuilder Client}
    (hbuild : builder.build = (some (req, cb), next)) :
    Built builder.held req cb ∧ next.Holding ∧ next.held = [] ∧
      ((∃ cmd, builder.held = [cmd] ∧ cb = cmd.callback.of_client ∧
          next.allocated = builder.allocated) ∨
        ∃ cbs, cb = .Write (.combined builder.allocated cbs) ∧
          next.allocated = builder.allocated + 1) := by
  unfold BatchRaftCmdRequestBuilder.build at hbuild
  split at hbuild
  · cases hbuild
  · next built hrequest =>
    have hreq := hholding.requests built hrequest
    have hcallbacks := hholding.callbacks
    split at hbuild
    · next client req_num hsingle =>
      cases hbuild
      rw [hsingle] at hcallbacks
      obtain ⟨cmd, hheld, hcmd⟩ := List.map_eq_singleton_iff.mp hcallbacks.symm
      cases hcmd
      rw [hheld] at hreq ⊢
      rw [all_requests, List.flatMap_singleton] at hreq
      exact ⟨.alone hreq, .new _, rfl, .inl ⟨cmd, rfl, rfl, rfl⟩⟩
    · cases hbuild
      refine ⟨?_, .new _, rfl, .inr ⟨builder.callbacks, rfl, rfl⟩⟩
      rw [hcallbacks]
      exact .combined builder.allocated hreq

theorem build_none {next : BatchRaftCmdRequestBuilder Client} (hholding : builder.Holding)
    (hbuild : builder.build = (none, next)) : builder.held = [] := by
  unfold BatchRaftCmdRequestBuilder.build at hbuild
  split at hbuild
  · next hnone => exact hholding.empty.mp hnone
  · split at hbuild <;> cases hbuild

end BatchRaftCmdRequestBuilder

namespace PeerFsm

/-- The calls of `propose_raft_command` that raft has accepted. -/
def accepted (fsm : PeerFsm Client) : List (List (RaftCommand Client) × (ℕ ×ₗ ℕ)) :=
  fsm.proposals.filterMap (fun call => call.2.map (fun key => (call.1, key)))

/-- The callbacks of commands that are not `None`. -/
def client_callbacks (commands : List (RaftCommand Client)) : List (Callback Client) :=
  (commands.map RaftCommand.callback).filter (fun cb => !cb.is_none)

/-- The proposals of a peer and the commands they come from. The first commands
have left the builder and are not proposed yet; the last ones have not been
handled yet. -/
structure Inv (commands later : List (RaftCommand Client)) (fsm : PeerFsm Client) : Prop where
  replica : fsm.replica.Inv
  leads : Leads fsm.replica fsm.raft_group
  holding : fsm.batch_req_builder.Holding
  arrival : fsm.proposals.flatMap Prod.fst ++
    (commands ++ (fsm.batch_req_builder.held ++ later)) = fsm.received
  fresh : (client_callbacks fsm.received).Nodup
  accepted : List.Forall₂ (fun call p => p.1.key = call.2 ∧ Built call.1 p.2 p.1.cb)
    fsm.accepted fsm.replica.proposed
  addresses : ∀ p ∈ fsm.replica.proposed, ∀ address cbs, p.1.cb = .Write (.combined address cbs) →
    address < fsm.batch_req_builder.allocated
  rejected : ∀ call ∈ fsm.rejected, ∃ commands req, (commands, none) ∈ fsm.proposals ∧
    Built commands req call.1 ∧
    (call.2.header.error = none → call.2.responses = [] ∧ req.get_requests = [])

/-- A command that may be passed to `propose_raft_command`: it is built from the
given commands, and no other proposal has its callback. -/
structure Callable (fsm : PeerFsm Client) (commands : List (RaftCommand Client))
    (req : RaftCmdRequest) (cb : Callback (Closure Client)) : Prop where
  built : Built commands req cb
  moved : cb.is_none = false → ∀ p ∈ fsm.replica.proposed, p.1.cb ≠ cb
  address : ∀ address cbs, cb = .Write (.combined address cbs) →
    address < fsm.batch_req_builder.allocated

theorem Callable.compact (fsm : PeerFsm Client) {req : RaftCmdRequest}
    (hreq : req.get_requests = []) : Callable fsm [] req .None := by
  refine ⟨.compact hreq, ?_, ?_⟩
  · intro hnone
    cases hnone
  · intro address cbs hcb
    cases hcb

section Propose

variable {fsm : PeerFsm Client} {commands later : List (RaftCommand Client)} {req : RaftCmdRequest}
variable {cb : Callback (Closure Client)}

section

variable (hinv : Inv commands later fsm)
include hinv

theorem Inv.set_raft_group {raft_group : RawNode (CommandData Client)}
    (hleads : Leads fsm.replica raft_group) :
    Inv commands later { fsm with raft_group := raft_group } :=
  ⟨hinv.replica, hleads, hinv.holding, hinv.arrival, hinv.fresh, hinv.accepted, hinv.addresses,
    hinv.rejected⟩

theorem Inv.answer {resp : RaftCmdResponse} (hbuilt : Built commands req cb)
    (hresp : resp.header.error = none → resp.responses = [] ∧ req.get_requests = []) :
    Inv [] later (fsm.answer commands cb resp) := by
  refine ⟨hinv.replica, hinv.leads, hinv.holding, ?_, hinv.fresh, ?_, hinv.addresses, ?_⟩
  · simp only [PeerFsm.answer, List.flatMap_append, List.flatMap_singleton, List.nil_append,
      List.append_assoc]
    exact hinv.arrival
  · have hsame : (fsm.answer commands cb resp).accepted = fsm.accepted := by
      simp [PeerFsm.accepted, PeerFsm.answer]
    rw [hsame]
    exact hinv.accepted
  · intro call hcall
    obtain hcall | hcall := List.mem_append.mp hcall
    · obtain ⟨source, built, hproposal, hrest⟩ := hinv.rejected call hcall
      exact ⟨source, built, List.mem_append_left _ hproposal, hrest⟩
    · rw [mem_invoke_with_response hcall]
      exact ⟨commands, req, List.mem_append_right _ (List.mem_singleton_self _), hbuilt, hresp⟩

/-- A leader proposes past everything it has proposed and committed. -/
theorem Inv.propose_guard (hcall : Callable fsm commands req cb)
    (hrole : fsm.raft_group.role = .Leader) :
    fsm.replica.ProposeGuard
      { index := fsm.raft_group.last_index + 1, term := fsm.raft_group.term, cb := cb } :=
  ⟨(hinv.leads hrole).1, (hinv.leads hrole).2, hcall.moved⟩

theorem Inv.accept (hcall : Callable fsm commands req cb) (hrole : fsm.raft_group.role = .Leader)
    {p : Proposal (Closure Client)}
    (hp : p = { index := fsm.raft_group.last_index + 1, term := fsm.raft_group.term, cb := cb }) :
    Inv [] later { fsm with
      replica := { fsm.replica with
        proposals := fsm.replica.proposals ++ [p]
        proposed := fsm.replica.proposed ++ [(p, req)] }
      raft_group := { fsm.raft_group with
        log := fsm.raft_group.log ++
          [(fsm.raft_group.term, { request := req, commands := commands })] }
      proposals := fsm.proposals ++ [(commands, some p.key)] } := by
  subst hp
  have hguard := hinv.propose_guard hcall hrole
  have hnext : log_key fsm.raft_group.term (fsm.raft_group.last_index + 1) <
      log_key fsm.raft_group.term (fsm.raft_group.last_index + 1 + 1) :=
    log_key_lt_iff.mpr (.inr ⟨rfl, Nat.lt_succ_self _⟩)
  have hlast : ({ fsm.raft_group with
      log := fsm.raft_group.log ++
        [(fsm.raft_group.term, { request := req, commands := commands })] } :
        RawNode (CommandData Client)).last_index = fsm.raft_group.last_index + 1 := by
    simp [RawNode.last_index, Nat.add_assoc]
  refine ⟨hinv.replica.post_propose req hguard, ?_, hinv.holding, ?_, hinv.fresh, ?_, ?_, ?_⟩
  · intro _
    rw [hlast]
    refine ⟨?_, fun entry hentry => (hguard.uncommitted entry hentry).trans hnext⟩
    intro other hother
    obtain hother | hother := List.mem_append.mp hother
    · exact (hguard.increasing other hother).trans hnext
    · rw [List.mem_singleton.mp hother]
      exact hnext
  · simp only [List.flatMap_append, List.flatMap_singleton, List.nil_append, List.append_assoc]
    exact hinv.arrival
  · have happend : ∀ key, (fsm.proposals ++ [(commands, some key)]).filterMap
          (fun call => call.2.map (fun key => (call.1, key))) =
        fsm.accepted ++ [(commands, key)] := by
      intro key
      simp [PeerFsm.accepted]
    unfold PeerFsm.accepted
    rw [happend]
    exact List.rel_append hinv.accepted (.cons ⟨rfl, hcall.built⟩ .nil)
  · intro other hother address cbs hcb
    obtain hother | hother := List.mem_append.mp hother
    · exact hinv.addresses other hother address cbs hcb
    · rw [List.mem_singleton.mp hother] at hcb
      exact hcall.address address cbs hcb
  · intro call hrejected
    obtain ⟨source, built, hproposal, hrest⟩ := hinv.rejected call hrejected
    exact ⟨source, built, List.mem_append_left _ hproposal, hrest⟩

end

variable (compute_size : RaftCmdRequest → Nat) (self : PeerMeta)

theorem inspect_avoids (req : RaftCmdRequest) :
    Exec.Avoids Panic.IsCallbackPanic (inspect req) := by
  unfold inspect
  split
  · exact Exec.Avoids.ok _
  · split
    · exact Exec.Avoids.error not_false
    · exact Exec.Avoids.ok _

theorem propose_command_avoids {Data : Type} (raft_group : RawNode Data) (size : Nat)
    (msg : RaftCmdRequest) (data : Data) :
    Exec.Avoids Panic.IsCallbackPanic (propose_command self raft_group size msg data) := by
  unfold propose_command
  split
  · exact Exec.Avoids.ok _
  · exact Exec.Avoids.ok _
  · refine (inspect_avoids msg).bind fun _ _ => ?_
    split <;> exact Exec.Avoids.ok _

theorem Inv.propose_raft_command (hinv : Inv commands later fsm)
    (hcall : Callable fsm commands req cb) :
    Exec.Ensures Panic.IsCallbackPanic
      (fun next => Inv [] later next ∧ next.batch_req_builder = fsm.batch_req_builder)
      (fsm.propose_raft_command compute_size self commands req cb) := by
  refine (propose_command_avoids self fsm.raft_group _ req _).bind_ensures ?_
  rintro ⟨raft_group, outcome⟩ hresult
  cases outcome with
  | Answered resp =>
    obtain ⟨hkept, hok⟩ := propose_command_answered hresult
    obtain ⟨hrole, hterm, hlast⟩ := hkept.same_log
    have hleads : Leads fsm.replica raft_group := by
      unfold Leads
      rw [hrole, hterm, hlast]
      exact hinv.leads
    exact ⟨(hinv.set_raft_group hleads).answer hcall.built hok, rfl⟩
  | Proposed index =>
    obtain ⟨hrole, rfl, rfl⟩ := propose_command_proposed hresult
    have hguard := hinv.propose_guard hcall hrole
    simp only [hinv.replica.post_propose_eq req hguard, Exec.ok_bind]
    exact ⟨hinv.accept hcall hrole rfl, rfl⟩

theorem client_callbacks_append (first second : List (RaftCommand Client)) :
    client_callbacks (first ++ second) = client_callbacks first ++ client_callbacks second := by
  simp [client_callbacks]

variable {cmd : RaftCommand Client}

theorem mem_client_callbacks (hcmd : cmd ∈ commands) (hnone : cmd.callback.is_none = false) :
    cmd.callback ∈ client_callbacks commands := by
  unfold client_callbacks
  rw [List.mem_filter]
  exact ⟨List.mem_map_of_mem hcmd, by rw [hnone]; rfl⟩

theorem Inv.mem_received (hinv : Inv commands later fsm)
    {call : List (RaftCommand Client) × Option (ℕ ×ₗ ℕ)} (hcall : call ∈ fsm.proposals)
    (hcmd : cmd ∈ call.1) : cmd ∈ fsm.received := by
  rw [← hinv.arrival]
  exact List.mem_append_left _ (List.mem_flatMap.mpr ⟨call, hcall, hcmd⟩)

/-- A proposal comes from a call that was accepted. -/
theorem Inv.exists_accepted (hinv : Inv commands later fsm)
    {p : Proposal (Closure Client) × RaftCmdRequest} (hp : p ∈ fsm.replica.proposed) :
    ∃ source, (∀ cmd ∈ source, cmd ∈ fsm.proposals.flatMap Prod.fst) ∧
      (source, some p.1.key) ∈ fsm.proposals ∧ Built source p.2 p.1.cb := by
  obtain ⟨call, hcall, hkey, hbuilt⟩ := Exec.exists_input_of_mem hinv.accepted hp
  obtain ⟨⟨source, key⟩, hsource, hmap⟩ := List.mem_filterMap.mp hcall
  obtain ⟨key, rfl, rfl⟩ := Option.map_eq_some_iff.mp hmap
  have hproposal : (source, some p.1.key) ∈ fsm.proposals := by
    rw [hkey]
    exact hsource
  exact ⟨source, fun cmd hcmd => List.mem_flatMap.mpr ⟨_, hsource, hcmd⟩, hproposal, hbuilt⟩

/-- The callback of a command that is not proposed yet is in no proposal. -/
theorem Inv.client_moved (hinv : Inv commands later fsm)
    (hcmd : cmd ∈ commands ++ (fsm.batch_req_builder.held ++ later))
    (hnone : cmd.callback.of_client.is_none = false) :
    ∀ p ∈ fsm.replica.proposed, p.1.cb ≠ cmd.callback.of_client := by
  intro p hp hcb
  obtain ⟨source, hsource, -, hbuilt⟩ := hinv.exists_accepted hp
  rw [hcb] at hbuilt
  rw [of_client_is_none] at hnone
  have hfresh := hinv.fresh
  rw [← hinv.arrival, client_callbacks_append, List.nodup_append] at hfresh
  generalize hclosure : cmd.callback.of_client = closure at hbuilt
  cases hbuilt with
  | @alone other req hreq =>
    have hsame := of_client_inj hclosure
    refine hfresh.2.2 _ (mem_client_callbacks (hsource other List.mem_cons_self) ?_) _
      (mem_client_callbacks hcmd hnone) hsame.symm
    rw [← hsame]
    exact hnone
  | combined address hreq => exact of_client_ne_combined _ _ _ hclosure
  | compact hreq =>
    rw [← of_client_is_none, hclosure] at hnone
    cases hnone

theorem Inv.callable_alone (hinv : Inv [cmd] later fsm) :
    Callable fsm [cmd] cmd.request cmd.callback.of_client := by
  refine ⟨.alone rfl, hinv.client_moved List.mem_cons_self, ?_⟩
  intro address cbs hcb
  exact absurd hcb (of_client_ne_combined _ _ _)

theorem Inv.propose_batch_raft_command (hinv : Inv [] later fsm) :
    Exec.Ensures Panic.IsCallbackPanic
      (fun next => Inv [] later next ∧ next.batch_req_builder.held = [])
      (fsm.propose_batch_raft_command compute_size self) := by
  unfold PeerFsm.propose_batch_raft_command
  split
  · next builder hbuild => exact ⟨hinv, BatchRaftCmdRequestBuilder.build_none hinv.holding hbuild⟩
  · next req cb builder hbuild =>
    obtain ⟨hbuilt, hholding, hheld, hcb⟩ := hinv.holding.build hbuild
    have hallocated : fsm.batch_req_builder.allocated ≤ builder.allocated := by
      obtain ⟨-, -, -, heq⟩ | ⟨-, -, heq⟩ := hcb <;> omega
    have htaken : Inv fsm.batch_req_builder.held later
        { fsm with batch_req_builder := builder } := by
      refine ⟨hinv.replica, hinv.leads, hholding, ?_, hinv.fresh, hinv.accepted, ?_,
        hinv.rejected⟩
      · rw [hheld]
        exact hinv.arrival
      · intro p hp address cbs hcombined
        exact (hinv.addresses p hp address cbs hcombined).trans_le hallocated
    have hcall : Callable { fsm with batch_req_builder := builder } fsm.batch_req_builder.held req
        cb := by
      refine ⟨hbuilt, ?_, ?_⟩
      · obtain ⟨cmd, hsingle, rfl, -⟩ | ⟨cbs, rfl, -⟩ := hcb
        · refine hinv.client_moved ?_
          rw [hsingle]
          exact List.mem_cons_self
        · intro _ p hp heq
          exact lt_irrefl _ (hinv.addresses p hp _ _ heq)
      · intro address cbs heq
        obtain ⟨cmd, -, rfl, -⟩ | ⟨parts, rfl, hnext⟩ := hcb
        · exact absurd heq (of_client_ne_combined _ _ _)
        · cases heq
          change fsm.batch_req_builder.allocated < builder.allocated
          omega
    refine (htaken.propose_raft_command compute_size self hcall).mono ?_
    rintro next ⟨hafter, hbuilder⟩
    refine ⟨hafter, ?_⟩
    rw [hbuilder]
    exact hheld

theorem Inv.handle_command (hinv : Inv [] [] fsm)
    (hfresh : cmd.callback.is_none = false →
      ∀ other ∈ fsm.received, other.callback ≠ cmd.callback) :
    Exec.Ensures Panic.IsCallbackPanic (Inv [] [])
      (fsm.handle_msg compute_size self (.RaftCommand cmd)) := by
  have hnodup : (client_callbacks (fsm.received ++ [cmd])).Nodup := by
    rw [client_callbacks_append, List.nodup_append]
    refine ⟨hinv.fresh, ?_, ?_⟩
    · cases hnone : cmd.callback.is_none <;> simp [client_callbacks, hnone]
    · intro earlier hearlier last hlast heq
      simp only [client_callbacks, List.map_cons, List.map_nil, List.mem_filter,
        List.mem_singleton] at hlast
      obtain ⟨rfl, hnone⟩ := hlast
      obtain ⟨other, hother, rfl⟩ := List.mem_map.mp (List.mem_filter.mp hearlier).1
      exact hfresh (by simpa using hnone) other hother heq
  have harrival : fsm.proposals.flatMap Prod.fst ++
      ([] ++ (fsm.batch_req_builder.held ++ [cmd])) = fsm.received ++ [cmd] := by
    have harrival := hinv.arrival
    rw [List.append_nil, List.nil_append] at harrival
    rw [← harrival, List.nil_append, List.append_assoc]
  unfold PeerFsm.handle_msg
  simp only
  split
  · have hadded : Inv [] [] { fsm with
        received := fsm.received ++ [cmd]
        batch_req_builder := fsm.batch_req_builder.add cmd (compute_size cmd.request) } := by
      refine ⟨hinv.replica, hinv.leads, hinv.holding.add _ _, ?_, hnodup, hinv.accepted,
        hinv.addresses, hinv.rejected⟩
      rw [← harrival, List.append_nil]
      rfl
    split
    · exact (hadded.propose_batch_raft_command compute_size self).mono fun _ hnext => hnext.1
    · exact hadded
  · have hreceived : Inv [] [cmd] { fsm with received := fsm.received ++ [cmd] } :=
      ⟨hinv.replica, hinv.leads, hinv.holding, harrival, hnodup, hinv.accepted, hinv.addresses,
        hinv.rejected⟩
    refine (hreceived.propose_batch_raft_command compute_size self).bind ?_
    rintro next ⟨hnext, hempty⟩
    have halone : Inv [cmd] [] next := by
      refine ⟨hnext.replica, hnext.leads, hnext.holding, ?_, hnext.fresh, hnext.accepted,
        hnext.addresses, hnext.rejected⟩
      have harrival := hnext.arrival
      rw [hempty] at harrival ⊢
      exact harrival
    exact (halone.propose_raft_command compute_size self halone.callable_alone).mono
      fun _ hlast => hlast.1

end Propose

section Run

variable (compute_size : RaftCmdRequest → Nat) (self : PeerMeta)

/-- `handle_msgs` is a run of its messages. -/
theorem handle_msgs_eq_run (fsm : PeerFsm Client) (msgs : List (PeerMsg Client)) :
    (fsm.handle_msgs compute_size self msgs).toOption =
      Run.run (PeerFsm.try_step compute_size self) fsm (msgs.map .msg ++ [.end_msgs]) := by
  induction msgs generalizing fsm with
  | nil =>
    change (fsm.propose_batch_raft_command compute_size self).toOption =
      (fsm.propose_batch_raft_command compute_size self).toOption.bind some
    rw [Option.bind_fun_some]
  | cons msg msgs ih =>
    have hcons : fsm.handle_msgs compute_size self (msg :: msgs) =
        fsm.handle_msg compute_size self msg >>=
          fun next => next.handle_msgs compute_size self msgs := by
      simp only [PeerFsm.handle_msgs, List.foldlM_cons, bind_assoc]
    rw [hcons, List.map_cons, List.cons_append, Run.run_cons]
    change _ = (fsm.handle_msg compute_size self msg).toOption.bind _
    cases fsm.handle_msg compute_size self msg with
    | error panic => rfl
    | ok next => exact ih next

theorem Inv.start (raft_group : RawNode (CommandData Client)) (applied_index_term : Nat)
    (apply_state : RaftApplyState) :
    Inv [] [] (PeerFsm.start raft_group applied_index_term apply_state : PeerFsm Client) where
  replica := Replica.Inv.start _ _ _
  leads := fun _ => ⟨by simp [PeerFsm.start, Replica.start], by simp [PeerFsm.start, Replica.start]⟩
  holding := .new 0
  arrival := rfl
  fresh := .nil
  accepted := .nil
  addresses := by simp [PeerFsm.start, Replica.start]
  rejected := by simp [PeerFsm.start]

variable {compute_size self} {fsm : PeerFsm Client}

theorem Inv.replica_step {action : Replica.Action (Closure Client)} (hinv : Inv [] [] fsm)
    (hguard : fsm.replica.Guard action)
    (hproposes : ∀ p request, action ≠ .propose p request)
    (hleads : fsm.raft_group.role = .Leader → ∀ term entries, action = .commit term entries →
      ∀ entry ∈ entries,
        entry.key < log_key fsm.raft_group.term (fsm.raft_group.last_index + 1)) :
    Exec.Ensures Panic.IsCallbackPanic (Inv [] []) (fsm.replica_step action) := by
  have hstep := hinv.replica.step hguard
  refine hstep.avoids.bind_ensures ?_
  intro next hnext
  obtain ⟨hproposed, hcommitted⟩ := Replica.step_eq_ok hnext
  have hsame : next.proposed = fsm.replica.proposed := by
    cases action with
    | propose p request => exact absurd rfl (hproposes p request)
    | commit term entries | apply_task | end_poll => rw [hproposed, List.append_nil]
  refine ⟨hstep.of_ok hnext, ?_, hinv.holding, hinv.arrival, hinv.fresh, ?_, ?_, hinv.rejected⟩
  · intro hrole
    refine ⟨by rw [hsame]; exact (hinv.leads hrole).1, ?_⟩
    intro entry hentry
    rw [hcommitted] at hentry
    obtain hentry | hentry := List.mem_append.mp hentry
    · exact (hinv.leads hrole).2 entry hentry
    · cases action with
      | commit term entries => exact hleads hrole term entries rfl entry hentry
      | propose p request | apply_task | end_poll => cases hentry
  · rw [hsame]
    exact hinv.accepted
  · rw [hsame]
    exact hinv.addresses

theorem Inv.step {action : Action Client} (hinv : Inv [] [] fsm) (hguard : fsm.Guard action) :
    Exec.Ensures Panic.IsCallbackPanic (Inv [] []) (fsm.step compute_size self action) := by
  cases action with
  | msg msg =>
    cases msg with
    | RaftCommand cmd => exact hinv.handle_command compute_size self hguard
    | Raft raft_group => exact hinv.set_raft_group hguard
    | CompactLog compact_index compact_term =>
      have hcall : Callable fsm [] (new_compact_log_request self compact_index compact_term)
          .None :=
        .compact fsm rfl
      exact (hinv.propose_raft_command compute_size self hcall).mono fun _ hnext => hnext.1
  | end_msgs =>
    exact (hinv.propose_batch_raft_command compute_size self).mono fun _ hnext => hnext.1
  | commit term entries =>
    refine hinv.replica_step hguard.1 (fun _ _ heq => by cases heq) ?_
    intro hrole _ _ heq
    cases heq
    exact hguard.2 hrole
  | apply_task | end_poll =>
    exact hinv.replica_step trivial (fun _ _ heq => by cases heq) (fun _ _ _ heq => by cases heq)

theorem Inv.run {start reached : PeerFsm Client} {actions : List (Action Client)}
    (hinv : Inv [] [] start)
    (hguard : Run.Along (PeerFsm.try_step compute_size self) PeerFsm.Guard start actions)
    (hrun : Run.run (PeerFsm.try_step compute_size self) start actions = some reached) :
    Inv [] [] reached := by
  refine Run.run_invariant_along ?_ hinv hguard hrun
  intro state action next hinv hguard hstep
  exact (hinv.step hguard).of_ok (Exec.toOption_eq_some_iff.mp hstep)

end Run

end PeerFsm

end hologram_kv
