import Auticuro.TinyMq.Batching
import Auticuro.TinyMq.MessageQueueAdapter

namespace hologram_kv

variable {Client : Type}

/-- The positions that an answer without an error gives to its client. -/
def answer_positions (answer : Call Client) : List (Nat × Nat) :=
  if answer.2.header.error = none then
    answer.2.responses.map (fun response => (response.index, response.offset))
  else
    []

theorem invoke_positions (cb : Callback Client) (resp : RaftCmdResponse) :
    ((cb.invoke_with_response resp).flatMap answer_positions).Sublist
      (answer_positions (cb, resp)) := by
  unfold Callback.invoke_with_response
  split
  · exact List.nil_sublist _
  · rw [List.flatMap_singleton]

theorem answer_positions_range {cb : Callback Client} {resp : RaftCmdResponse}
    {index first count : Nat} (herror : resp.header.error = none)
    (hresponses : resp.responses =
      (List.range' first count).map (handle_message_queue index)) :
    answer_positions (cb, resp) = (List.range' first count).map (Prod.mk index) := by
  unfold answer_positions
  rw [if_pos herror, hresponses, List.map_map]
  rfl

theorem handed_out_positions {header : RaftResponseHeader} (herror : header.error = none)
    (index last_index : Nat) (commands : List (RaftCommand Client)) :
    ((handed_out header index last_index commands).flatMap answer_positions).Sublist
      ((List.range' last_index (all_requests commands).length).map (Prod.mk index)) := by
  induction commands generalizing last_index with
  | nil => exact List.Sublist.refl _
  | cons cmd commands ih =>
    rw [length_all_requests_cons, ← List.range'_append_1, List.map_append, handed_out,
      List.flatMap_append]
    refine List.Sublist.append ?_ (ih _)
    have hfirst := invoke_positions cmd.callback
      { header := header
        responses := (List.range' last_index cmd.request.get_requests.length).map
          (handle_message_queue index) }
    rw [answer_positions_range herror rfl] at hfirst
    exact hfirst

namespace PeerFsm

/-- An answer without an error: it goes to the callback of a command, it has one
response for each request, and the response to a request carries the position
of its payload in the committed log. -/
def Truthful (fsm : PeerFsm Client) (answer : Call Client) : Prop :=
  ∃ cmd ∈ fsm.received, cmd.callback = answer.1 ∧
    answer.2.responses.length = cmd.request.get_requests.length ∧
    ∀ (j : Nat) (response : MessageQueueResponse), answer.2.responses[j]? = some response →
      ∃ payload, ∃ entry ∈ fsm.replica.committed,
        cmd.request.get_requests[j]? = some (.MessageQueue payload) ∧
        entry.index = response.index ∧ entry.PayloadAt response.offset payload

/-- What the clients get from one call of the callback of a proposal. -/
structure Delivered (fsm : PeerFsm Client) (call : Call (Closure Client))
    (answers : List (Call Client)) : Prop where
  run : client_calls call = .ok answers
  truthful : ∀ answer ∈ answers, answer.2.header.error = none → fsm.Truthful answer
  positions : answers.flatMap answer_positions = [] ∨
    ∃ p ∈ fsm.replica.proposed, ∃ entry ∈ fsm.replica.committed, p.1.cb = call.1 ∧
      entry.key = p.1.key ∧ ∃ count, (answers.flatMap answer_positions).Sublist
        ((List.range' 0 count).map (Prod.mk entry.index))

variable {fsm : PeerFsm Client}

/-- The requests of a command in the middle of a combined command. -/
theorem truthful_of_executed {entry : Entry} {req : RaftCmdRequest} {answer : Call Client}
    {before after : List (RaftCommand Client)} {cmd : RaftCommand Client}
    (hentry : entry ∈ fsm.replica.committed) (hdata : entry.data = some req)
    (hmessages : ∃ payloads : List Bytes, req.get_requests = payloads.map .MessageQueue)
    (hreq : req.get_requests = all_requests (before ++ cmd :: after))
    (hcmd : cmd ∈ fsm.received) (hcallback : cmd.callback = answer.1)
    (hresponses : answer.2.responses = (List.range' (all_requests before).length
      cmd.request.get_requests.length).map (handle_message_queue entry.index)) :
    fsm.Truthful answer := by
  obtain ⟨payloads, hpayloads⟩ := hmessages
  refine ⟨cmd, hcmd, hcallback, by rw [hresponses, List.length_map, List.length_range'], ?_⟩
  intro j response hresponse
  rw [hresponses, List.getElem?_map, Option.map_eq_some_iff] at hresponse
  obtain ⟨offset, hoffset, rfl⟩ := hresponse
  obtain ⟨hj, hoffset⟩ := List.getElem?_eq_some_iff.mp hoffset
  rw [List.length_range'] at hj
  rw [List.getElem_range'] at hoffset
  have hplace : req.get_requests[offset]? = cmd.request.get_requests[j]? := by
    have hsplit : all_requests (before ++ cmd :: after) =
        all_requests before ++ (cmd.request.get_requests ++ all_requests after) := by
      simp [all_requests]
    rw [hreq, hsplit, List.getElem?_append_right (by omega), List.getElem?_append_left (by omega)]
    congr 1
    omega
  have hsome : (cmd.request.get_requests)[j]? = some cmd.request.get_requests[j] :=
    List.getElem?_eq_getElem hj
  have hpayload : ∃ payload, cmd.request.get_requests[j] = .MessageQueue payload := by
    have hmem : cmd.request.get_requests[j] ∈ req.get_requests := by
      refine List.mem_of_getElem? (i := offset) ?_
      rw [hplace, hsome]
    rw [hpayloads] at hmem
    obtain ⟨payload, -, heq⟩ := List.mem_map.mp hmem
    exact ⟨payload, heq.symm⟩
  obtain ⟨payload, hpayload⟩ := hpayload
  rw [hpayload] at hsome
  refine ⟨payload, entry, hentry, hsome, rfl, ?_⟩
  exact Entry.payloadAt_of_getElem? hdata hpayloads (hplace.trans hsome)

theorem positions_of_error {answers : List (Call Client)}
    (herror : ∀ answer ∈ answers, answer.2.header.error ≠ none) :
    answers.flatMap answer_positions = [] := by
  rw [List.flatMap_eq_nil_iff]
  intro answer hanswer
  exact if_neg (herror answer hanswer)

variable {call : Call (Closure Client)}

/-- What the clients get when a proposal is answered without an error. -/
theorem client_calls_responds {commands : List (RaftCommand Client)} {req : RaftCmdRequest}
    {index : Nat} (hbuilt : Built commands req call.1) (hresponds : Responds req index call.2) :
    ∃ answers, client_calls call = .ok answers ∧
      (∀ answer ∈ answers, ∃ before cmd after, commands = before ++ cmd :: after ∧
        cmd.callback = answer.1 ∧
        answer.2.responses = (List.range' (all_requests before).length
          cmd.request.get_requests.length).map (handle_message_queue index)) ∧
      (answers.flatMap answer_positions).Sublist
        ((List.range' 0 req.get_requests.length).map (Prod.mk index)) := by
  obtain ⟨cb, resp⟩ := call
  have hresponses := hresponds.responses
  cases hbuilt with
  | @alone cmd req hreq =>
    cases hnone : cmd.callback.of_client.is_none with
    | true =>
      cases hcallback : cmd.callback with
      | None => exact ⟨[], rfl, by simp, List.nil_sublist _⟩
      | Read read | Write cb =>
        rw [hcallback] at hnone
        cases hnone
    | false =>
      rw [List.range_eq_range'] at hresponses
      refine ⟨[(cmd.callback, resp)], client_calls_client hnone, ?_, ?_⟩
      · intro answer hanswer
        rw [List.mem_singleton.mp hanswer]
        refine ⟨[], cmd, [], rfl, rfl, ?_⟩
        rw [← hreq]
        exact hresponses
      · rw [List.flatMap_singleton, answer_positions_range hresponds.error hresponses]
  | combined address hreq =>
    have htotal : 0 + (all_requests commands).length ≤ req.get_requests.length := by
      rw [hreq, Nat.zero_add]
    have hhandOut := hand_out_eq hresponds.error hresponses commands htotal
    refine ⟨_, hhandOut, ?_, ?_⟩
    · intro answer hanswer
      obtain ⟨before, cmd, after, hcommands, hcallback, -, hanswer⟩ := mem_handed_out hanswer
      rw [Nat.zero_add] at hanswer
      exact ⟨before, cmd, after, hcommands, hcallback.symm, hanswer⟩
    · rw [hreq]
      exact handed_out_positions hresponds.error index 0 commands
  | compact hreq => exact ⟨[], rfl, by simp, List.nil_sublist _⟩

/-- An error gives no position to anyone. -/
theorem delivered_of_error {commands : List (RaftCommand Client)} {req : RaftCmdRequest}
    (hbuilt : Built commands req call.1) (herror : call.2.header.error ≠ none) :
    ∃ answers, fsm.Delivered call answers ∧ answers.flatMap answer_positions = [] := by
  obtain ⟨answers, hrun, -⟩ := client_calls_error hbuilt (Option.ne_none_iff_isSome.mp herror)
  have hfail : ∀ answer ∈ answers, answer.2.header.error ≠ none := by
    intro answer hanswer
    rw [(client_calls_mem hbuilt hrun answer hanswer).1]
    exact herror
  have hpositions := positions_of_error hfail
  refine ⟨answers, ⟨hrun, ?_, .inl hpositions⟩, hpositions⟩
  intro answer hanswer hnone
  exact absurd hnone (hfail answer hanswer)

/-- A command that is answered without being proposed gets an error or has no
requests. -/
theorem Inv.rejected_delivered (hinv : Inv [] [] fsm) (hcall : call ∈ fsm.rejected) :
    ∃ answers, fsm.Delivered call answers ∧ answers.flatMap answer_positions = [] := by
  obtain ⟨commands, req, hproposal, hbuilt, hok⟩ := hinv.rejected call hcall
  cases herror : call.2.header.error with
  | some err =>
    refine delivered_of_error hbuilt ?_
    rw [herror]
    exact Option.some_ne_none err
  | none =>
    obtain ⟨hresponses, hempty⟩ := hok herror
    have hresponds : Responds req 0 call.2 := by
      refine ⟨herror, ⟨[], hempty⟩, ?_⟩
      rw [hresponses, hempty]
      rfl
    obtain ⟨answers, hrun, hanswers, hpositions⟩ := client_calls_responds hbuilt hresponds
    rw [hempty] at hpositions
    have hpositions := List.sublist_nil.mp hpositions
    refine ⟨answers, ⟨hrun, ?_, .inl hpositions⟩, hpositions⟩
    intro answer hanswer _
    obtain ⟨before, cmd, after, rfl, hcallback, hrange⟩ := hanswers answer hanswer
    have hrequests := hbuilt.requests
    have hnone : cmd.request.get_requests = [] := by
      rw [hempty] at hrequests
      have hall := List.flatMap_eq_nil_iff.mp hrequests.symm
      exact hall cmd (by simp)
    rw [hnone] at hrange
    refine ⟨cmd, hinv.mem_received hproposal (by simp), hcallback, by rw [hrange, hnone]; rfl, ?_⟩
    intro j response hresponse
    rw [hrange] at hresponse
    cases hresponse

theorem Inv.replica_delivered (hinv : Inv [] [] fsm) (hcall : call ∈ fsm.replica.invoked) :
    ∃ answers, fsm.Delivered call answers := by
  obtain ⟨p, hp, hcb, hanswered⟩ := hinv.replica.answered call hcall
  obtain ⟨source, hsource, -, hbuilt⟩ := hinv.exists_accepted hp
  rw [hcb] at hbuilt
  have hfail : call.2.header.error ≠ none → ∃ answers, fsm.Delivered call answers := by
    intro herror
    obtain ⟨answers, hdelivered, -⟩ := delivered_of_error hbuilt herror
    exact ⟨answers, hdelivered⟩
  rcases hanswered with ⟨entry, hentry, hkey, hexecuted⟩ | ⟨hstale, -, -⟩
  · have hdata := hinv.replica.same entry hentry p hp hkey.symm
    rcases hexecuted.responds hdata with hresponds | ⟨-, message, herror⟩
    · obtain ⟨answers, hrun, hanswers, hpositions⟩ := client_calls_responds hbuilt hresponds
      refine ⟨answers, hrun, ?_, .inr ⟨p, hp, entry, hentry, hcb, hkey, _, hpositions⟩⟩
      intro answer hanswer _
      obtain ⟨before, cmd, after, rfl, hcallback, hresponses⟩ := hanswers answer hanswer
      have hreceived : cmd ∈ fsm.received := by
        rw [← hinv.arrival]
        exact List.mem_append_left _ (hsource cmd (by simp))
      exact truthful_of_executed hentry hdata hresponds.messages hbuilt.requests hreceived hcallback
        hresponses
    · refine hfail ?_
      rw [herror]
      exact Option.some_ne_none _
  · refine hfail ?_
    rw [hstale]
    exact Option.some_ne_none _

/-- Answers that come from different proposals have different positions. -/
theorem Inv.positions_disjoint (hinv : Inv [] [] fsm) {call other : Call (Closure Client)}
    {answers others : List (Call Client)} (hne : call.1 ≠ other.1)
    (hcall : fsm.Delivered call answers) (hother : fsm.Delivered other others) :
    (answers.flatMap answer_positions).Disjoint (others.flatMap answer_positions) := by
  rcases hcall.positions with hempty | ⟨p, hp, entry, hentry, hcb, hkey, count, hsub⟩
  · rw [hempty]
    exact List.disjoint_nil_left _
  rcases hother.positions with
    hempty | ⟨q, hq, later, hlater, hlaterCb, hlaterKey, bound, hlaterSub⟩
  · rw [hempty]
    exact List.disjoint_nil_right _
  have hindex : entry.index ≠ later.index := by
    intro hindex
    have hsame := hinv.replica.order.eq_of_index_eq hentry hlater hindex
    have hkeys : (fsm.replica.proposed.map (fun p => p.1.key)).Nodup := by
      refine (List.pairwise_map.mpr ?_)
      exact hinv.replica.increasing.imp fun hlt => hlt.ne
    have hpq : p = q := by
      refine List.inj_on_of_nodup_map hkeys hp hq ?_
      rw [← hkey, ← hlaterKey, hsame]
    rw [hpq, hlaterCb] at hcb
    exact hne hcb.symm
  intro position hfirst hsecond
  obtain ⟨offset, -, rfl⟩ := List.mem_map.mp (hsub.subset hfirst)
  obtain ⟨place, -, heq⟩ := List.mem_map.mp (hlaterSub.subset hsecond)
  rw [Prod.mk.injEq] at heq
  exact hindex heq.1.symm

/-- What the clients have been called with, unless a slice of a response is out
of range. -/
def answers (fsm : PeerFsm Client) : Except Panic (List (Call Client)) := do
  let answers ← fsm.invoked.mapM client_calls
  return answers.flatten

/-- Positions in the queue identify payloads. -/
structure PositionsIdentifyPayloads (fsm : PeerFsm Client) (answers : List (Call Client)) :
    Prop where
  /-- An answer without an error has one response for each request of the
  command, with the position of the payload of the request. -/
  answered : ∀ answer ∈ answers, answer.2.header.error = none → fsm.Truthful answer
  /-- No two requests get the same position. -/
  distinct : (answers.flatMap answer_positions).Nodup
  /-- The commands are proposed in the order of their arrival. -/
  arrival : fsm.proposals.flatMap Prod.fst ++ fsm.batch_req_builder.held = fsm.received
  /-- Raft has put what it accepted at increasing terms and indices. -/
  increasing : fsm.proposals.Pairwise (fun call later => ∀ key ∈ call.2, ∀ later_key ∈ later.2,
    key < later_key)
  /-- What is committed there stands in the log in that order. -/
  in_order : fsm.proposals.Pairwise (fun call later => ∀ entry ∈ fsm.replica.committed,
    ∀ later_entry ∈ fsm.replica.committed, call.2 = some entry.key →
      later.2 = some later_entry.key → entry.index < later_entry.index)
  /-- An entry holds the requests of its commands in their order. -/
  stored : ∀ call ∈ fsm.proposals, ∀ entry ∈ fsm.replica.committed, call.2 = some entry.key →
    ∃ req, entry.data = some req ∧ req.get_requests = all_requests call.1
  /-- When a combined command fails, every callback in it gets the error. -/
  failed : ∀ call ∈ fsm.invoked, ∀ err ∈ call.2.header.error, ∀ address cbs,
    call.1 = .Write (.combined address cbs) → ∀ part ∈ cbs, part.1.is_none = false →
      ∃ answer ∈ answers, answer.1 = part.1 ∧ answer.2.header.error = some err

/-- Every call of a proposal's callback is delivered. -/
theorem Inv.delivered (hinv : Inv [] [] fsm) :
    ∃ lists, List.Forall₂ fsm.Delivered fsm.invoked lists := by
  refine Exec.exists_forall₂ ?_
  intro call hcall
  obtain hcall | hcall := List.mem_append.mp hcall
  · obtain ⟨answers, hanswers, -⟩ := hinv.rejected_delivered hcall
    exact ⟨answers, hanswers⟩
  · exact hinv.replica_delivered hcall

theorem Inv.distinct (hinv : Inv [] [] fsm) {lists : List (List (Call Client))}
    (hlists : List.Forall₂ fsm.Delivered fsm.invoked lists) :
    (lists.flatten.flatMap answer_positions).Nodup := by
  have hflat : lists.flatten.flatMap answer_positions =
      (lists.map (fun answers => answers.flatMap answer_positions)).flatten := by
    rw [List.flatMap_def, List.map_flatten, List.flatten_flatten, List.map_map]
    rfl
  rw [hflat, List.nodup_flatten]
  constructor
  · intro positions hpositions
    obtain ⟨answers, hanswers, rfl⟩ := List.mem_map.mp hpositions
    obtain ⟨call, -, hdelivered⟩ := Exec.exists_input_of_mem hlists hanswers
    rcases hdelivered.positions with hempty | ⟨-, -, entry, -, -, -, count, hsub⟩
    · rw [hempty]
      exact List.nodup_nil
    · refine List.Nodup.sublist hsub (List.Nodup.map ?_ (List.nodup_range' ..))
      exact Prod.mk_right_injective entry.index
  · have hquiet : ∀ call ∈ fsm.rejected, ∀ answers, fsm.Delivered call answers →
        answers.flatMap answer_positions = [] := by
      intro call hcall answers hanswers
      obtain ⟨found, hfound, hempty⟩ := hinv.rejected_delivered hcall
      have hrun := hfound.run
      rw [hanswers.run] at hrun
      cases hrun
      exact hempty
    have hpairs : fsm.invoked.Pairwise (fun call other =>
        call ∈ fsm.rejected ∨ call.1 ≠ other.1) := by
      refine List.pairwise_append.mpr ⟨?_, ?_, fun call hcall _ _ => .inl hcall⟩
      · exact List.pairwise_of_forall_mem_list fun call hcall _ _ => .inl hcall
      · have honce := hinv.replica.callbacks_fire_once.once
        exact (List.pairwise_map.mp honce).imp .inr
    rw [List.pairwise_map]
    refine Exec.pairwise_of_forall₂ ?_ hlists hpairs
    intro call other answers others hpair hanswers hothers
    rcases hpair with hrejected | hne
    · rw [hquiet call hrejected answers hanswers]
      exact List.disjoint_nil_left _
    · exact hinv.positions_disjoint hne hanswers hothers

/-- Raft puts what it accepts at increasing terms and indices. -/
theorem Inv.increasing (hinv : Inv [] [] fsm) :
    fsm.proposals.Pairwise (fun call later => ∀ key ∈ call.2, ∀ later_key ∈ later.2,
      key < later_key) := by
  have haccepted : fsm.accepted.Pairwise (fun call later => call.2 < later.2) := by
    refine Exec.pairwise_of_forall₂ ?_ hinv.accepted.flip hinv.replica.increasing
    intro p q call later hlt hcall hlater
    rw [← hcall.1, ← hlater.1]
    exact hlt
  unfold PeerFsm.accepted at haccepted
  rw [List.pairwise_filterMap] at haccepted
  refine haccepted.imp ?_
  intro call later hpair key hkey later_key hlater
  refine hpair (call.1, key) ?_ (later.1, later_key) ?_
  · rw [hkey]
    rfl
  · rw [hlater]
    rfl

theorem Inv.stored (hinv : Inv [] [] fsm) {call : List (RaftCommand Client) × Option (ℕ ×ₗ ℕ)}
    {entry : Entry} (hcall : call ∈ fsm.proposals) (hentry : entry ∈ fsm.replica.committed)
    (hkey : call.2 = some entry.key) :
    ∃ req, entry.data = some req ∧ req.get_requests = all_requests call.1 := by
  have haccepted : (call.1, entry.key) ∈ fsm.accepted := by
    refine List.mem_filterMap.mpr ⟨call, hcall, ?_⟩
    rw [hkey]
    rfl
  obtain ⟨p, hp, hpkey, hbuilt⟩ := Exec.exists_input_of_mem hinv.accepted.flip haccepted
  exact ⟨p.2, hinv.replica.same entry hentry p hp hpkey, hbuilt.requests⟩

theorem Inv.positions_identify_payloads (hinv : Inv [] [] fsm) :
    ∃ answers, fsm.answers = .ok answers ∧ fsm.PositionsIdentifyPayloads answers := by
  obtain ⟨lists, hlists⟩ := hinv.delivered
  have hrun : fsm.invoked.mapM client_calls = .ok lists :=
    Exec.mapM_eq_ok_iff.mpr (hlists.imp fun _ _ hdelivered => hdelivered.run)
  refine ⟨lists.flatten, by rw [PeerFsm.answers, hrun]; rfl, ?_, hinv.distinct hlists, ?_,
    hinv.increasing, ?_, fun call hcall entry => hinv.stored hcall, ?_⟩
  · intro answer hanswer
    obtain ⟨answers, hanswers, hanswer⟩ := List.mem_flatten.mp hanswer
    obtain ⟨call, -, hdelivered⟩ := Exec.exists_input_of_mem hlists hanswers
    exact hdelivered.truthful answer hanswer
  · have harrival := hinv.arrival
    rw [List.append_nil, List.nil_append] at harrival
    exact harrival
  · refine hinv.increasing.imp ?_
    intro call later hpair entry hentry later_entry hlater hkey hlaterKey
    have hlt := hpair entry.key hkey later_entry.key hlaterKey
    by_contra hindex
    obtain hback | hsame := (not_lt.mp hindex).lt_or_eq
    · exact lt_asymm hlt (hinv.replica.order.key_lt hlater hentry hback)
    · rw [hinv.replica.order.eq_of_index_eq hlater hentry hsame] at hlt
      exact lt_irrefl _ hlt
  · intro call hcall err herr address cbs hcb part hpart hnone
    obtain ⟨answers, hanswers, hdelivered⟩ := Exec.exists_input_of_mem hlists.flip hcall
    have herror : call.2.header.error.isSome := Option.isSome_iff_exists.mpr ⟨err, herr⟩
    have hcalls := hdelivered.run
    obtain ⟨cb, resp⟩ := call
    cases hcb
    simp only [client_calls, hand_out_error herror cbs 0, Except.ok.injEq] at hcalls
    refine ⟨(part.1, { header := resp.header }), ?_, rfl, herr⟩
    refine List.mem_flatten.mpr ⟨answers, hanswers, ?_⟩
    rw [← hcalls]
    refine List.mem_flatMap.mpr ⟨part, hpart, ?_⟩
    simp [Callback.invoke_with_response, hnone]

/-- In every state of every run of a peer that receives any commands. -/
theorem queue_positions_identify_payloads (compute_size : RaftCmdRequest → Nat) (self : PeerMeta)
    (raft_group : RawNode (CommandData Client)) (applied_index_term : Nat)
    (apply_state : RaftApplyState)
    {actions : List (Action Client)} {reached : PeerFsm Client}
    (hguard : Run.Along (PeerFsm.try_step compute_size self) PeerFsm.Guard
      (PeerFsm.start raft_group applied_index_term apply_state) actions)
    (hrun : Run.run (PeerFsm.try_step compute_size self)
      (PeerFsm.start raft_group applied_index_term apply_state) actions = some reached) :
    ∃ answers, reached.answers = .ok answers ∧ reached.PositionsIdentifyPayloads answers :=
  ((Inv.start raft_group applied_index_term apply_state).run hguard
    hrun).positions_identify_payloads

def firstPeer : PeerMeta := { region_id := 1, peer_id := 1, store_id := 1 }

def messagesOf (payloads : List Bytes) : RaftCmdRequest where
  header := { region_id := 1, peer_id := 1, store_id := 1 }
  body := .requests (payloads.map .MessageQueue)

/-- A leader combines a command with two messages and a command with one. -/
def combinedTrace : List (Action Nat) :=
  [.msg (.RaftCommand ⟨messagesOf [[1], [2]], .Write 0⟩),
    .msg (.RaftCommand ⟨messagesOf [[3]], .Write 1⟩), .end_msgs,
    .commit 6 [⟨6, 6, some (messagesOf [[1], [2], [3]])⟩], .apply_task, .end_poll]

def firstLeader : RawNode (CommandData Nat) :=
  { id := 1, term := 6, role := .Leader, offset := 5 }

theorem queue_positions_identify_payloads_combined :
    ∃ reached answers, Run.run (PeerFsm.try_step (fun _ => 10) firstPeer)
        (PeerFsm.start firstLeader 5 write_initial_apply_state) combinedTrace = some reached ∧
      reached.answers = .ok answers ∧
      answers.map (fun answer => (answer.1, answer_positions answer)) =
        [(.Write 0, [(6, 0), (6, 1)]), (.Write 1, [(6, 2)])] ∧
      reached.PositionsIdentifyPayloads answers := by
  have hguard : Run.Along (PeerFsm.try_step (fun _ => 10) firstPeer) PeerFsm.Guard
      (PeerFsm.start firstLeader 5 write_initial_apply_state) combinedTrace := by
    decide +kernel
  obtain ⟨reached, hrun, hpositions⟩ :
      ∃ reached ∈ Run.run (PeerFsm.try_step (fun _ => 10) firstPeer)
        (PeerFsm.start firstLeader 5 write_initial_apply_state) combinedTrace,
      ∃ answers ∈ reached.answers.toOption,
        answers.map (fun answer => (answer.1, answer_positions answer)) =
          [(.Write 0, [(6, 0), (6, 1)]), (.Write 1, [(6, 2)])] := by
    decide +kernel
  obtain ⟨answers, hanswers, hidentify⟩ := queue_positions_identify_payloads (fun _ => 10)
    firstPeer firstLeader 5 write_initial_apply_state hguard hrun
  rw [hanswers] at hpositions
  obtain ⟨_, ⟨⟩, hpositions⟩ := hpositions
  exact ⟨reached, answers, hrun, hanswers, hpositions, hidentify⟩

end PeerFsm

end hologram_kv
