import Auticuro.TinyMq.Refusals

namespace hologram_kv

namespace Cluster

/-- Clients are told apart by their numbers, a log holds commands that their
own peer has appended, and what is forwarded was refused. -/
structure Inv (cluster : Cluster) : Prop where
  peers : ∀ node, PeerFsm.Inv [] [] (cluster.peers node)
  numbered : ∀ node, ∀ cmd ∈ (cluster.peers node).received,
    ∃ number < cluster.submitted, cmd.callback = .Write number
  apart : ∀ node other, ∀ cmd ∈ (cluster.peers node).received,
    ∀ cmd' ∈ (cluster.peers other).received, cmd.callback = cmd'.callback → node = other
  logs : ∀ node, ∀ entry ∈ (cluster.peers node).raft_group.log,
    entry.2.commands = [] ∨ entry.2 ∈ cluster.appended
  appended : ∀ data ∈ cluster.appended, data.commands = [] ∨
    ∃ node key, (data.commands, some key) ∈ (cluster.peers node).proposals
  network : ∀ msg ∈ cluster.network, ∃ node, (cluster.peers node).Forwarded msg.data
  msgs : ∀ source, ∀ msg ∈ (cluster.peers source).raft_group.msgs,
    ∃ node, (cluster.peers node).Forwarded msg.data

variable {cluster next : Cluster} {node : Nat}

theorem Inv.is_none (hinv : cluster.Inv) {cmd : RaftCommand Nat}
    (hcmd : cmd ∈ (cluster.peers node).received) : cmd.callback.is_none = false := by
  obtain ⟨number, -, hcallback⟩ := hinv.numbered node cmd hcmd
  rw [hcallback]
  rfl

/-- A client whose command is in a log is not refused. -/
theorem Inv.refused_not_logged (hinv : cluster.Inv) :
    cluster.NotLeaderMeansNotLogged := by
  intro node cb hcb data hdata cmd hcmd hcallback
  obtain ⟨commands, hrefused, other, hother, rfl⟩ := (hinv.peers node).refused_proposal hcb
  have happended : data ∈ cluster.appended := by
    obtain happended | ⟨source, entry, hentry, rfl⟩ := hdata
    · exact happended
    · obtain hempty | happended := hinv.logs source entry hentry
      · rw [hempty] at hcmd
        cases hcmd
      · exact happended
  obtain hempty | ⟨source, key, haccepted⟩ := hinv.appended data happended
  · rw [hempty] at hcmd
    cases hcmd
  · have hreceived := (hinv.peers source).mem_received haccepted hcmd
    have hrefusedReceived := (hinv.peers node).mem_received hrefused hother
    obtain rfl := hinv.apart source node cmd hreceived other hrefusedReceived hcallback
    have hsame := (hinv.peers source).proposal_unique haccepted hrefused hcmd hother hcallback
      (hinv.is_none hreceived)
    cases congrArg Prod.snd hsame

theorem Inv.start (raft_groups : Nat → RawNode (CommandData Nat)) (applied_index_term : Nat → Nat)
    (apply_state : Nat → RaftApplyState)
    (hfresh : ∀ node, (raft_groups node).msgs = [] ∧
      ∀ entry ∈ (raft_groups node).log, entry.2.commands = []) :
    (Cluster.start raft_groups applied_index_term apply_state).Inv where
  peers := fun _ => PeerFsm.Inv.start _ _ _
  numbered := by simp [Cluster.start, PeerFsm.start]
  apart := by simp [Cluster.start, PeerFsm.start]
  logs := fun node entry hentry => .inl ((hfresh node).2 entry hentry)
  appended := by simp [Cluster.start]
  network := by simp [Cluster.start]
  msgs := by
    intro source msg hmsg
    change msg ∈ (raft_groups source).msgs at hmsg
    rw [(hfresh source).1] at hmsg
    cases hmsg

variable {fsm : PeerFsm Nat}

/-- A peer goes to another state. Its new clients have new numbers, and what it
appends it has accepted. -/
theorem Inv.update (hinv : cluster.Inv)
    (hpeers : next.peers = Function.update cluster.peers node fsm)
    (happended : next.appended = cluster.appended ++ fsm.raft_group.log.map Prod.snd)
    (hsubmitted : cluster.submitted ≤ next.submitted) (hfsm : PeerFsm.Inv [] [] fsm)
    (hextends : PeerFsm.Extends (cluster.peers node) fsm)
    (hreceived : ∀ cmd ∈ fsm.received, cmd ∈ (cluster.peers node).received ∨
      ∃ number < next.submitted, cmd.callback = .Write number ∧ cluster.submitted ≤ number)
    (hlog : ∀ entry ∈ fsm.raft_group.log, (entry.2.commands = [] ∨ entry.2 ∈ cluster.appended) ∨
      ∃ key, (entry.2.commands, some key) ∈ fsm.proposals)
    (hmsgs : ∀ msg, msg ∈ next.network ∨ msg ∈ fsm.raft_group.msgs →
      (∃ source, (cluster.peers source).Forwarded msg.data) ∨ fsm.Forwarded msg.data) :
    next.Inv := by
  have hself : next.peers node = fsm := by rw [hpeers, Function.update_self]
  have hlift : ∀ source, PeerFsm.Extends (cluster.peers source) (next.peers source) := by
    rw [hpeers, Function.forall_update_iff cluster.peers
      (fun source after => PeerFsm.Extends (cluster.peers source) after)]
    exact ⟨hextends, fun source _ => .of_eq rfl rfl⟩
  have hforwarded : ∀ data, (∃ source, (cluster.peers source).Forwarded data) ∨ fsm.Forwarded data →
      ∃ source, (next.peers source).Forwarded data := by
    rintro data (⟨source, hsource⟩ | hnew)
    · exact ⟨source, hsource.extends (hlift source)⟩
    · exact ⟨node, by rw [hself]; exact hnew⟩
  have haccepted : ∀ data ∈ cluster.appended, data.commands = [] ∨
      ∃ source key, (data.commands, some key) ∈ (next.peers source).proposals := by
    intro data hdata
    obtain hempty | ⟨source, key, haccepted⟩ := hinv.appended data hdata
    · exact .inl hempty
    · exact .inr ⟨source, key, (hlift source).proposals haccepted⟩
  have hnumbered : ∀ source, ∀ cmd ∈ (cluster.peers source).received,
      ∃ number < next.submitted, cmd.callback = .Write number := by
    intro source cmd hcmd
    obtain ⟨number, hlt, hcallback⟩ := hinv.numbered source cmd hcmd
    exact ⟨number, hlt.trans_le hsubmitted, hcallback⟩
  -- the client of another peer is neither an old nor a new client of this one
  have hother : ∀ other, other ≠ node → ∀ cmd ∈ (cluster.peers other).received,
      ∀ cmd' ∈ fsm.received, cmd.callback ≠ cmd'.callback := by
    intro other hne cmd hcmd cmd' hcmd' heq
    obtain hold | ⟨number, -, hcallback, hle⟩ := hreceived cmd' hcmd'
    · exact hne (hinv.apart other node cmd hcmd cmd' hold heq)
    · obtain ⟨old, hlt, hold⟩ := hinv.numbered other cmd hcmd
      rw [hcallback, hold] at heq
      cases heq
      omega
  refine ⟨?_, ?_, ?_, ?_, ?_, ?_, ?_⟩
  · rw [hpeers, Function.forall_update_iff cluster.peers (fun _ after => PeerFsm.Inv [] [] after)]
    exact ⟨hfsm, fun source _ => hinv.peers source⟩
  · rw [hpeers, Function.forall_update_iff cluster.peers (fun _ after => ∀ cmd ∈ after.received,
      ∃ number < next.submitted, cmd.callback = .Write number)]
    refine ⟨?_, fun source _ => hnumbered source⟩
    intro cmd hcmd
    obtain hold | ⟨number, hlt, hcallback, -⟩ := hreceived cmd hcmd
    · exact hnumbered node cmd hold
    · exact ⟨number, hlt, hcallback⟩
  · intro first second cmd hcmd cmd' hcmd' heq
    rw [hpeers] at hcmd hcmd'
    by_cases hfirst : first = node <;> by_cases hsecond : second = node
    · rw [hfirst, hsecond]
    · rw [hfirst, Function.update_self] at hcmd
      rw [Function.update_of_ne hsecond] at hcmd'
      exact absurd heq.symm (hother second hsecond cmd' hcmd' cmd hcmd)
    · rw [Function.update_of_ne hfirst] at hcmd
      rw [hsecond, Function.update_self] at hcmd'
      exact absurd heq (hother first hfirst cmd hcmd cmd' hcmd')
    · rw [Function.update_of_ne hfirst] at hcmd
      rw [Function.update_of_ne hsecond] at hcmd'
      exact hinv.apart first second cmd hcmd cmd' hcmd' heq
  · rw [hpeers, Function.forall_update_iff cluster.peers (fun _ after =>
      ∀ entry ∈ after.raft_group.log, entry.2.commands = [] ∨ entry.2 ∈ next.appended), happended]
    refine ⟨?_, ?_⟩
    · intro entry hentry
      exact .inr (List.mem_append_right _ (List.mem_map_of_mem hentry))
    · intro source _ entry hentry
      exact (hinv.logs source entry hentry).imp_right (List.mem_append_left _)
  · rw [happended]
    intro data hdata
    obtain hdata | hdata := List.mem_append.mp hdata
    · exact haccepted data hdata
    · obtain ⟨entry, hentry, rfl⟩ := List.mem_map.mp hdata
      obtain (hempty | hdata) | ⟨key, hkey⟩ := hlog entry hentry
      · exact .inl hempty
      · exact haccepted _ hdata
      · exact .inr ⟨node, key, by rw [hself]; exact hkey⟩
  · intro msg hmsg
    exact hforwarded _ (hmsgs msg (.inl hmsg))
  · intro source msg hmsg
    rw [hpeers] at hmsg
    by_cases hsource : source = node
    · rw [hsource, Function.update_self] at hmsg
      exact hforwarded _ (hmsgs msg (.inr hmsg))
    · rw [Function.update_of_ne hsource] at hmsg
      exact hforwarded _ (.inl (hinv.msgs source msg hmsg))

/-- Raft changes its state at a peer, without a new proposal. -/
theorem Inv.set_raft_group (hinv : cluster.Inv) {raft_group : RawNode (CommandData Nat)}
    {network : List (MsgPropose (CommandData Nat))}
    (hfsm : PeerFsm.Inv [] [] { cluster.peers node with raft_group := raft_group })
    (hlog : ∀ entry ∈ raft_group.log, entry.2.commands = [] ∨ entry.2 ∈ cluster.appended)
    (hmsgs : ∀ msg, msg ∈ network ∨ msg ∈ raft_group.msgs →
      ∃ source, (cluster.peers source).Forwarded msg.data) :
    ({ cluster with network := network }.update node
      { cluster.peers node with raft_group := raft_group }).Inv :=
  hinv.update rfl rfl le_rfl hfsm (.of_eq rfl rfl) (fun _ hcmd => .inl hcmd)
    (fun entry hentry => .inl (hlog entry hentry)) (fun msg hmsg => .inl (hmsgs msg hmsg))

theorem Inv.propose (hinv : cluster.Inv) {node submitted : Nat} {received : List (RaftCommand Nat)}
    (hsubmitted : cluster.submitted ≤ submitted)
    (hreceived : ∀ cmd ∈ received, cmd ∈ (cluster.peers node).received ∨
      ∃ number < submitted, cmd.callback = .Write number ∧ cluster.submitted ≤ number)
    (hfsm : PeerFsm.Inv [] [] fsm)
    (hproposes : PeerFsm.Proposes { cluster.peers node with received := received } fsm) :
    ({ cluster with submitted := submitted }.update node fsm).Inv := by
  refine hinv.update rfl rfl hsubmitted hfsm ⟨hproposes.ext.proposals, hproposes.ext.rejected⟩
    ?_ ?_ ?_
  · rw [hproposes.received]
    exact hreceived
  · intro entry hentry
    obtain hold | hnew := hproposes.log entry hentry
    · exact .inl (hinv.logs node entry hold)
    · exact .inr hnew
  · rintro msg (hmsg | hmsg)
    · exact .inl (hinv.network msg hmsg)
    · obtain hold | hnew := hproposes.msgs msg hmsg
      · exact .inl (hinv.msgs node msg hold)
      · exact .inr hnew

variable {compute_size : RaftCmdRequest → Nat} {self : Nat → PeerMeta}

theorem Inv.send_payload (hinv : cluster.Inv) {payload : Bytes}
    (hstep : cluster.step compute_size self (.send_payload node payload) = some next) :
    next.Inv := by
  obtain ⟨_, hpeer, hnext⟩ := Option.bind_eq_some_iff.mp hstep
  obtain ⟨fsm, htry, hupdate⟩ := Option.bind_eq_some_iff.mp hpeer
  cases hupdate
  cases hnext
  have hhandle := Exec.toOption_eq_some_iff.mp htry
  have hguard : (cluster.peers node).Guard
      (.msg (.RaftCommand (MessageQueueAdapter.send_payload (self node) payload
        cluster.submitted))) := by
    intro _ other hother heq
    obtain ⟨number, hlt, hcallback⟩ := hinv.numbered node other hother
    rw [hcallback] at heq
    cases heq
    omega
  refine hinv.propose (Nat.le_succ _) ?_ (((hinv.peers node).step hguard).of_ok hhandle)
    (PeerFsm.handle_command_proposes (hinv.peers node).holding hhandle)
  intro cmd hcmd
  obtain hold | hnew := List.mem_append.mp hcmd
  · exact .inl hold
  · rw [List.mem_singleton.mp hnew]
    exact .inr ⟨cluster.submitted, Nat.lt_succ_self _, rfl, le_rfl⟩

theorem Inv.peer (hinv : cluster.Inv) {action : PeerFsm.Action Nat}
    (hstep : cluster.step compute_size self (.peer node action) = some next) : next.Inv := by
  simp only [Cluster.step] at hstep
  split at hstep
  swap
  · cases hstep
  · next hallowed =>
    obtain ⟨hallowed, hguard⟩ := hallowed
    obtain ⟨fsm, htry, hupdate⟩ := Option.bind_eq_some_iff.mp hstep
    cases hupdate
    have hresult := Exec.toOption_eq_some_iff.mp htry
    have hfsm := ((hinv.peers node).step hguard).of_ok hresult
    have hpropose : PeerFsm.Proposes (cluster.peers node) fsm → (cluster.update node fsm).Inv :=
      hinv.propose le_rfl (fun _ hcmd => .inl hcmd) hfsm
    have hreplica : ∀ replica_action,
        (cluster.peers node).replica_step replica_action = .ok fsm →
          PeerFsm.Proposes (cluster.peers node) fsm := by
      intro replica_action hreplica
      obtain ⟨replica, -, hok⟩ := Exec.bind_eq_ok_iff.mp hreplica
      cases hok
      exact .of_eq (.of_eq rfl rfl) rfl rfl
    cases action with
    | msg msg =>
      cases msg with
      | RaftCommand cmd => exact absurd hallowed not_false
      | Raft raft_group =>
        cases hresult
        refine hinv.set_raft_group hfsm hallowed.2 ?_
        rintro msg (hmsg | hmsg)
        · exact hinv.network msg hmsg
        · rw [hallowed.1] at hmsg
          exact hinv.msgs node msg hmsg
      | CompactLog compact_index compact_term =>
        exact hpropose
          (PeerFsm.propose_raft_command_proposes (.compact rfl) (fun _ => hallowed) hresult)
    | end_msgs => exact hpropose (PeerFsm.propose_batch_proposes (hinv.peers node).holding hresult)
    | commit term entries | apply_task | end_poll => exact hpropose (hreplica _ hresult)

theorem Inv.send (hinv : cluster.Inv) (node : Nat) : (cluster.send node).Inv := by
  refine hinv.set_raft_group ((hinv.peers node).set_raft_group (hinv.peers node).leads)
    (hinv.logs node) ?_
  rintro msg (hmsg | hmsg)
  · obtain hmsg | hmsg := List.mem_append.mp hmsg
    · exact hinv.network msg hmsg
    · exact hinv.msgs node msg hmsg
  · cases hmsg

theorem step_propose_unled (hrole : fsm.raft_group.role ≠ .Leader) (data : CommandData Nat) :
    ∃ msgs, fsm.step_propose data =
        { fsm with raft_group := { fsm.raft_group with msgs := msgs } } ∧
      ∀ msg ∈ msgs, msg ∈ fsm.raft_group.msgs ∨ msg.data = data := by
  unfold PeerFsm.step_propose RawNode.propose
  cases hcase : fsm.raft_group.role with
  | Leader => exact absurd hcase hrole
  | Follower leader_id =>
    cases leader_id with
    | none => exact ⟨fsm.raft_group.msgs, rfl, fun _ hmsg => .inl hmsg⟩
    | some leader_id =>
      refine ⟨fsm.raft_group.msgs ++ [⟨leader_id, data⟩], by simp [hcase], ?_⟩
      intro msg hmsg
      obtain hmsg | hmsg := List.mem_append.mp hmsg
      · exact .inl hmsg
      · rw [List.mem_singleton.mp hmsg]
        exact .inr rfl

theorem Inv.deliver (hinv : cluster.Inv) {position : Nat}
    (hunled : cluster.Unled (.deliver position))
    (hstep : cluster.step compute_size self (.deliver position) = some next) : next.Inv := by
  obtain ⟨msg, hmsg, hnext⟩ := Option.bind_eq_some_iff.mp hstep
  cases hnext
  obtain ⟨msgs, heq, hmsgs⟩ := step_propose_unled (hunled msg hmsg) msg.data
  rw [heq]
  refine hinv.set_raft_group ((hinv.peers msg.to_id).set_raft_group (hinv.peers msg.to_id).leads)
    (hinv.logs msg.to_id) ?_
  rintro sent (hsent | hsent)
  · exact hinv.network sent (List.mem_of_mem_eraseIdx hsent)
  · obtain hold | hdata := hmsgs sent hsent
    · exact hinv.msgs msg.to_id sent hold
    · rw [hdata]
      exact hinv.network msg (List.mem_of_getElem? hmsg)

theorem Inv.step (hinv : cluster.Inv) {action : Action} (hunled : cluster.Unled action)
    (hstep : cluster.step compute_size self action = some next) : next.Inv := by
  cases action with
  | send_payload node payload => exact hinv.send_payload hstep
  | peer node action => exact hinv.peer hstep
  | send node =>
    cases hstep
    exact hinv.send node
  | deliver position => exact hinv.deliver hunled hstep

theorem step_propose_invoked (fsm : PeerFsm Nat) (data : CommandData Nat) :
    (fsm.step_propose data).invoked = fsm.invoked := by
  unfold PeerFsm.step_propose
  split <;> rfl

theorem step_propose_leader {data : CommandData Nat} (hrole : fsm.raft_group.role = .Leader) :
    (fsm.raft_group.term, data) ∈ (fsm.step_propose data).raft_group.log := by
  unfold PeerFsm.step_propose RawNode.propose
  rw [hrole]
  exact List.mem_append_right _ (List.mem_singleton_self _)

/-- A forwarded command that arrives at a leader is in a log, while its clients
were told `NotLeader`. -/
theorem Inv.unled_of_not_logged (hinv : cluster.Inv) {action : Action}
    (hstep : cluster.step compute_size self action = some next)
    (hnext : next.NotLeaderMeansNotLogged) : cluster.Unled action := by
  cases action with
  | send_payload node payload | peer node action | send node => exact trivial
  | deliver position =>
    intro msg hmsg hrole
    obtain ⟨found, hfound, hdeliver⟩ := Option.bind_eq_some_iff.mp hstep
    cases hmsg.symm.trans hfound
    cases hdeliver
    obtain ⟨node, hforwarded⟩ := hinv.network msg (List.mem_of_getElem? hmsg)
    obtain ⟨cmd, hcmd⟩ := List.exists_mem_of_ne_nil _ hforwarded.nonempty
    have hrefused : cmd.callback ∈ (cluster.peers node).refused := by
      refine hforwarded.refused ?_ hcmd
      intro other hother
      exact hinv.is_none ((hinv.peers node).mem_received hforwarded.proposal hother)
    have hinvoked : ∀ node, (Function.update cluster.peers msg.to_id
        ((cluster.peers msg.to_id).step_propose msg.data) node).invoked =
          (cluster.peers node).invoked := by
      rw [Function.forall_update_iff cluster.peers
        (fun node after => after.invoked = (cluster.peers node).invoked)]
      exact ⟨step_propose_invoked _ _, fun _ _ => rfl⟩
    refine hnext node cmd.callback ?_ msg.data (.inl ?_) cmd hcmd rfl
    · unfold PeerFsm.refused at hrefused ⊢
      change cmd.callback ∈ (Function.update cluster.peers msg.to_id
        ((cluster.peers msg.to_id).step_propose msg.data) node).invoked.flatMap _
      rw [hinvoked node]
      exact hrefused
    · exact List.mem_append_right _ (List.mem_map_of_mem (step_propose_leader hrole))

/-- A client that is told `NotLeader` never has its command in a log, in every
run, exactly when no forwarded proposal arrives at a leader. -/
theorem not_leader_means_not_logged (compute_size : RaftCmdRequest → Nat) (self : Nat → PeerMeta)
    (raft_groups : Nat → RawNode (CommandData Nat)) (applied_index_term : Nat → Nat)
    (apply_state : Nat → RaftApplyState)
    (hfresh : ∀ node, (raft_groups node).msgs = [] ∧
      ∀ entry ∈ (raft_groups node).log, entry.2.commands = [])
    {actions : List Action} {last : Cluster}
    (hrun : Run.run (Cluster.step compute_size self)
      (Cluster.start raft_groups applied_index_term apply_state) actions = some last) :
    Run.Throughout (Cluster.step compute_size self) NotLeaderMeansNotLogged
        (Cluster.start raft_groups applied_index_term apply_state) actions ↔
      Run.Along (Cluster.step compute_size self) Unled
        (Cluster.start raft_groups applied_index_term apply_state) actions := by
  have hinit := Inv.start raft_groups applied_index_term apply_state hfresh
  refine Run.throughout_iff_along (fun _ => Inv.refused_not_logged) ?_ ?_ hinit hrun
  · intro state action next hinv hunled hstep
    exact hinv.step hunled hstep
  · intro state action next hinv hstep hnext
    exact hinv.unled_of_not_logged hstep hnext

/-- The first peer leads in term 6, the others follow it. -/
def firstLeads (node : Nat) : RawNode (CommandData Nat) :=
  if node = 1 then { id := 1, term := 6, role := .Leader, offset := 5 }
  else { id := node, term := 6, role := .Follower (some 1), offset := 5 }

def storeMeta (node : Nat) : PeerMeta := { region_id := 1, peer_id := node, store_id := node }

def firstCluster : Cluster :=
  Cluster.start firstLeads (fun _ => 5) (fun _ => write_initial_apply_state)

/-- A payload that is sent through a follower: the client is told `NotLeader`,
then the leader appends the payload. -/
def forwardedPayload : List Action :=
  [.send_payload 2 [7], .peer 2 .end_msgs, .send 2, .deliver 0]

theorem not_leader_but_logged :
    ((Run.run (Cluster.step (fun _ => 10) storeMeta) firstCluster forwardedPayload).any
      fun reached => (reached.peers 2).refused = [.Write 0] ∧
        (reached.peers 1).raft_group.log =
          [(6, { request := (MessageQueueAdapter.send_payload (storeMeta 2) [7] 0).request,
                 commands := [MessageQueueAdapter.send_payload (storeMeta 2) [7] 0] })]) =
      true := by
  decide +kernel

/-- The leader has lost its office when the message arrives. -/
def latePayload : List Action :=
  [.send_payload 2 [7], .peer 2 .end_msgs, .send 2,
    .peer 1 (.msg (.Raft { id := 1, term := 7, role := .Follower none, offset := 5 })), .deliver 0]

theorem not_leader_means_not_logged_late :
    ∃ reached, Run.run (Cluster.step (fun _ => 10) storeMeta) firstCluster latePayload =
        some reached ∧
      (reached.peers 2).refused = [.Write 0] ∧ reached.NotLeaderMeansNotLogged := by
  have hfresh : ∀ node, (firstLeads node).msgs = [] ∧
      ∀ entry ∈ (firstLeads node).log, entry.2.commands = [] := by
    intro node
    unfold firstLeads
    split <;> simp
  have hunled : Run.Along (Cluster.step (fun _ => 10) storeMeta) Unled firstCluster
      latePayload := by
    decide +kernel
  obtain ⟨reached, hrun, hrefused⟩ :
      ∃ reached ∈ Run.run (Cluster.step (fun _ => 10) storeMeta) firstCluster latePayload,
        (reached.peers 2).refused = [.Write 0] := by
    decide +kernel
  have hthroughout := (not_leader_means_not_logged (fun _ => 10) storeMeta firstLeads
    (fun _ => 5) (fun _ => write_initial_apply_state) hfresh hrun).mpr hunled
  exact ⟨reached, hrun, hrefused, hthroughout latePayload reached List.prefix_rfl hrun⟩

end Cluster

end hologram_kv
