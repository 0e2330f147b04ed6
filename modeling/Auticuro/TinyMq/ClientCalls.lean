import Auticuro.TinyMq.Batch
import Auticuro.TinyMq.Proposals

namespace hologram_kv

variable {Client : Type}

def all_requests (commands : List (RaftCommand Client)) : List Request :=
  commands.flatMap (fun cmd => cmd.request.get_requests)

theorem length_all_requests_cons (cmd : RaftCommand Client) (commands : List (RaftCommand Client)) :
    (all_requests (cmd :: commands)).length =
      cmd.request.get_requests.length + (all_requests commands).length := by
  rw [all_requests, List.flatMap_cons, List.length_append, all_requests]

/-- The callbacks of commands, each with the number of requests it waits for. -/
def callback_parts (commands : List (RaftCommand Client)) : List (Callback Client × Nat) :=
  commands.map (fun cmd => (cmd.callback, cmd.request.get_requests.length))

/-- The commands that a proposed command stands for. -/
inductive Built :
    List (RaftCommand Client) → RaftCmdRequest → Callback (Closure Client) → Prop where
  | alone {cmd : RaftCommand Client} {req : RaftCmdRequest}
      (hreq : req.get_requests = cmd.request.get_requests) :
      Built [cmd] req cmd.callback.of_client
  | combined {commands : List (RaftCommand Client)} {req : RaftCmdRequest} (address : Nat)
      (hreq : req.get_requests = all_requests commands) :
      Built commands req (.Write (.combined address (callback_parts commands)))
  | compact {req : RaftCmdRequest} (hreq : req.get_requests = []) : Built [] req .None

variable {commands : List (RaftCommand Client)}

theorem Built.requests {req : RaftCmdRequest} {cb : Callback (Closure Client)}
    (hbuilt : Built commands req cb) : req.get_requests = all_requests commands := by
  cases hbuilt with
  | alone hreq => rw [hreq, all_requests, List.flatMap_singleton]
  | combined _ hreq | compact hreq => exact hreq

theorem of_client_inj {cb other : Callback Client} (heq : cb.of_client = other.of_client) :
    cb = other := by
  cases cb <;> cases other <;> cases heq <;> rfl

theorem of_client_ne_combined (cb : Callback Client) (address : Nat)
    (cbs : List (Callback Client × Nat)) : cb.of_client ≠ .Write (.combined address cbs) := by
  cases cb <;> intro heq <;> cases heq

theorem of_client_is_none (cb : Callback Client) : cb.of_client.is_none = cb.is_none := by
  cases cb <;> rfl

theorem slice_range {total first count : Nat} (hle : first + count ≤ total) :
    ((List.range total).drop first).take count = List.range' first count := by
  have hsplit : total - first = count + (total - first - count) := by omega
  rw [List.range_eq_range', List.drop_range', hsplit, ← List.range'_append_1]
  simp

section HandOut

variable (header : RaftResponseHeader) (index : Nat)

/-- What a combined closure hands out when the responses enumerate the requests
of its commands. -/
def handed_out : Nat → List (RaftCommand Client) → List (Call Client)
  | _, [] => []
  | last_index, cmd :: commands =>
    let req_num := cmd.request.get_requests.length
    cmd.callback.invoke_with_response
        { header := header
          responses := (List.range' last_index req_num).map (handle_message_queue index) } ++
      handed_out (last_index + req_num) commands

variable {header index}

theorem hand_out_eq {resp : RaftCmdResponse} {total : Nat} (herror : resp.header.error = none)
    (hresponses : resp.responses = (List.range total).map (handle_message_queue index))
    (commands : List (RaftCommand Client)) {last_index : Nat}
    (htotal : last_index + (all_requests commands).length ≤ total) :
    hand_out resp last_index (callback_parts commands) =
      .ok (handed_out resp.header index last_index commands) := by
  induction commands generalizing last_index with
  | nil => rfl
  | cons cmd commands ih =>
    rw [length_all_requests_cons] at htotal
    have hslice : (resp.responses.drop last_index).take cmd.request.get_requests.length =
        (List.range' last_index cmd.request.get_requests.length).map
          (handle_message_queue index) := by
      rw [hresponses, ← List.map_drop, ← List.map_take, slice_range (by omega)]
    have hbound : ¬resp.responses.length < last_index + cmd.request.get_requests.length := by
      rw [hresponses, List.length_map, List.length_range]
      omega
    simp only [callback_parts, List.map_cons, hand_out, herror, Option.isSome_none,
      Bool.false_eq_true, if_false]
    rw [if_neg hbound, hslice]
    have hrest : hand_out resp (last_index + cmd.request.get_requests.length)
        (callback_parts commands) = .ok (handed_out resp.header index
          (last_index + cmd.request.get_requests.length) commands) := ih (by omega)
    simp only [callback_parts] at hrest
    rw [hrest]
    rfl

/-- A combined closure passes an error on to every callback. -/
theorem hand_out_error {resp : RaftCmdResponse} (herror : resp.header.error.isSome)
    (cbs : List (Callback Client × Nat)) (last_index : Nat) :
    hand_out resp last_index cbs =
      .ok (cbs.flatMap (fun part => part.1.invoke_with_response { header := resp.header })) := by
  induction cbs generalizing last_index with
  | nil => rfl
  | cons part cbs ih =>
    obtain ⟨cb, req_num⟩ := part
    simp only [hand_out, herror, if_true, ih, Exec.ok_bind, List.flatMap_cons]
    rfl

/-- A call that is handed out goes to one of the commands, with the positions
of its requests. -/
theorem mem_handed_out {last_index : Nat} {call : Call Client}
    (hcall : call ∈ handed_out header index last_index commands) :
    ∃ before cmd after, commands = before ++ cmd :: after ∧ call.1 = cmd.callback ∧
      call.2.header = header ∧
      call.2.responses = (List.range' (last_index + (all_requests before).length)
        cmd.request.get_requests.length).map (handle_message_queue index) := by
  induction commands generalizing last_index with
  | nil => cases hcall
  | cons cmd commands ih =>
    obtain hcall | hcall := List.mem_append.mp hcall
    · rw [mem_invoke_with_response hcall]
      exact ⟨[], cmd, commands, rfl, rfl, rfl, rfl⟩
    · obtain ⟨before, found, after, rfl, hcallback, hheader, hresponses⟩ := ih hcall
      refine ⟨cmd :: before, found, after, rfl, hcallback, hheader, ?_⟩
      rw [hresponses, length_all_requests_cons, Nat.add_assoc]

end HandOut

variable {resp : RaftCmdResponse}

theorem client_calls_client {cb : Callback Client} (hnone : cb.of_client.is_none = false) :
    client_calls (cb.of_client, resp) = .ok [(cb, resp)] := by
  cases cb with
  | None => cases hnone
  | Read read | Write cb => rfl

theorem hand_out_mem {last_index : Nat} {cbs : List (Callback Client × Nat)}
    {answers : List (Call Client)} (hanswers : hand_out resp last_index cbs = .ok answers) :
    ∀ answer ∈ answers, answer.2.header = resp.header ∧ answer.1 ∈ cbs.map Prod.fst := by
  induction cbs generalizing last_index answers with
  | nil =>
    cases hanswers
    simp
  | cons part cbs ih =>
    obtain ⟨cb, req_num⟩ := part
    simp only [hand_out] at hanswers
    have hcons : ∀ {later : List (Call Client)} {first : RaftCmdResponse},
        hand_out resp (last_index + req_num) cbs = .ok later → first.header = resp.header →
        ∀ answer ∈ cb.invoke_with_response first ++ later,
          answer.2.header = resp.header ∧ answer.1 ∈ ((cb, req_num) :: cbs).map Prod.fst := by
      intro later first hlater hfirst answer hanswer
      obtain hanswer | hanswer := List.mem_append.mp hanswer
      · rw [mem_invoke_with_response hanswer]
        exact ⟨hfirst, List.mem_cons_self⟩
      · obtain ⟨hheader, hcallback⟩ := ih hlater answer hanswer
        exact ⟨hheader, List.mem_cons_of_mem _ hcallback⟩
    split at hanswers
    · obtain ⟨later, hlater, hok⟩ := Exec.bind_eq_ok_iff.mp hanswers
      cases hok
      exact hcons hlater rfl
    · split at hanswers
      · cases hanswers
      · obtain ⟨later, hlater, hok⟩ := Exec.bind_eq_ok_iff.mp hanswers
        cases hok
        exact hcons hlater rfl

/-- The header of a response goes to clients of the proposal only. -/
theorem client_calls_mem {req : RaftCmdRequest} {call : Call (Closure Client)}
    {answers : List (Call Client)} (hbuilt : Built commands req call.1)
    (hanswers : client_calls call = .ok answers) :
    ∀ answer ∈ answers, answer.2.header = call.2.header ∧
      ∃ cmd ∈ commands, cmd.callback = answer.1 := by
  obtain ⟨cb, resp⟩ := call
  intro answer hanswer
  cases hbuilt with
  | @alone cmd req hreq =>
    cases hcallback : cmd.callback with
    | None =>
      rw [hcallback] at hanswers
      cases hanswers
      cases hanswer
    | Read read | Write cb =>
      rw [hcallback] at hanswers
      cases hanswers
      rw [List.mem_singleton.mp hanswer]
      exact ⟨rfl, cmd, List.mem_cons_self, hcallback⟩
  | combined address hreq =>
    obtain ⟨hheader, hcallback⟩ := hand_out_mem hanswers answer hanswer
    rw [callback_parts, List.map_map] at hcallback
    obtain ⟨cmd, hcmd, heq⟩ := List.mem_map.mp hcallback
    exact ⟨hheader, cmd, hcmd, heq⟩
  | compact hreq =>
    cases hanswers
    cases hanswer

/-- An error goes to every client of the proposal. -/
theorem client_calls_error {req : RaftCmdRequest} {cb : Callback (Closure Client)}
    (hbuilt : Built commands req cb) (herror : resp.header.error.isSome) :
    ∃ answers, client_calls (cb, resp) = .ok answers ∧
      ∀ cmd ∈ commands, cmd.callback.is_none = false → cmd.callback ∈ answers.map Prod.fst := by
  cases hbuilt with
  | @alone cmd req hreq =>
    cases hcallback : cmd.callback with
    | None =>
      refine ⟨[], rfl, ?_⟩
      intro other hother hnone
      rw [List.mem_singleton.mp hother, hcallback] at hnone
      cases hnone
    | Read read => exact ⟨[(.Read read, resp)], rfl, by simp [hcallback]⟩
    | Write cb => exact ⟨[(.Write cb, resp)], rfl, by simp [hcallback]⟩
  | combined address hreq =>
    refine ⟨_, hand_out_error herror (callback_parts commands) 0, ?_⟩
    intro cmd hcmd hnone
    refine List.mem_map.mpr ⟨(cmd.callback, { header := resp.header }), ?_, rfl⟩
    refine List.mem_flatMap.mpr ⟨_, List.mem_map_of_mem hcmd, ?_⟩
    simp [Callback.invoke_with_response, hnone]
  | compact hreq => exact ⟨[], rfl, by simp⟩

end hologram_kv
