import Auticuro.Library.Exec
import Auticuro.TinyMq.Apply

namespace hologram_kv

variable {T : Type}

/-- The message of one request, with the decoder of the message type. -/
def parse_request (decode : Bytes → Option T) : Request → Except Panic T
  | .MessageQueue payload => unwrap (decode payload)
  | .Invalid => .error .UnexpectedCmdType

def parse_log_entry_to_proto (decode : Bytes → Option T) (entry : Entry) :
    Except Panic (Nat × List T) :=
  match entry.data with
  | none => .ok (entry.index, [])
  | some cmd => do
    let messages ← cmd.get_requests.mapM (parse_request decode)
    return (entry.index, messages)

/-- Every message in the entry decodes. -/
def Entry.Decodes (entry : Entry) (decode : Bytes → Option T) : Prop :=
  ∀ cmd ∈ entry.data, ∀ payload, .MessageQueue payload ∈ cmd.get_requests → (decode payload).isSome

/-- The element of the parsed entry at an offset is the message of a payload,
for every message type. -/
def Entry.PayloadAt (entry : Entry) (offset : Nat) (payload : Bytes) : Prop :=
  ∀ {T : Type} (decode : Bytes → Option T), entry.Decodes decode →
    ∃ messages, parse_log_entry_to_proto decode entry = .ok (entry.index, messages) ∧
      messages[offset]? = decode payload

/-- When every request is a message that decodes, the entry is parsed into the
messages in the order of the requests. -/
theorem parse_log_entry_to_proto_eq {decode : Bytes → Option T} {entry : Entry}
    {cmd : RaftCmdRequest} {payloads : List Bytes} (hdata : entry.data = some cmd)
    (hpayloads : cmd.get_requests = payloads.map .MessageQueue)
    (hdecode : ∀ payload ∈ payloads, (decode payload).isSome) :
    ∃ messages, parse_log_entry_to_proto decode entry = .ok (entry.index, messages) ∧
      ∀ (offset : Nat) (payload : Bytes), payloads[offset]? = some payload →
        messages[offset]? = decode payload := by
  have hparsed : ∃ messages, List.Forall₂ (fun payload message => decode payload = some message)
      payloads messages :=
    Exec.exists_forall₂ fun payload hpayload =>
      Option.isSome_iff_exists.mp (hdecode payload hpayload)
  obtain ⟨messages, hmessages⟩ := hparsed
  refine ⟨messages, ?_, ?_⟩
  · have hmapM : cmd.get_requests.mapM (parse_request decode) = .ok messages := by
      rw [Exec.mapM_eq_ok_iff, hpayloads, List.forall₂_map_left_iff]
      refine hmessages.imp ?_
      intro payload message hmessage
      simp only [parse_request, hmessage, unwrap]
    simp only [parse_log_entry_to_proto, hdata, hmapM, Exec.ok_bind]
    rfl
  · intro offset payload hoffset
    obtain ⟨hlength, hget⟩ := List.getElem?_eq_some_iff.mp hoffset
    have hpair := hmessages.get hlength (hmessages.length_eq ▸ hlength)
    rw [List.get_eq_getElem, List.get_eq_getElem] at hpair
    simp only [hget] at hpair
    rw [hpair, List.getElem?_eq_getElem (hmessages.length_eq ▸ hlength)]

theorem Entry.payloadAt_of_getElem? {entry : Entry} {cmd : RaftCmdRequest} {payloads : List Bytes}
    {offset : Nat} {payload : Bytes} (hdata : entry.data = some cmd)
    (hpayloads : cmd.get_requests = payloads.map .MessageQueue)
    (hoffset : cmd.get_requests[offset]? = some (.MessageQueue payload)) :
    entry.PayloadAt offset payload := by
  intro T decode hdecodes
  have hdecode : ∀ other ∈ payloads, (decode other).isSome := by
    intro other hother
    refine hdecodes cmd hdata other ?_
    rw [hpayloads]
    exact List.mem_map_of_mem hother
  obtain ⟨messages, hparse, hmessages⟩ := parse_log_entry_to_proto_eq hdata hpayloads hdecode
  refine ⟨messages, hparse, hmessages offset payload ?_⟩
  rw [hpayloads, List.getElem?_map, Option.map_eq_some_iff] at hoffset
  obtain ⟨found, hfound, heq⟩ := hoffset
  cases heq
  exact hfound

end hologram_kv
