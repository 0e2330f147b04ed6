import Mathlib.Data.Prod.Lex
import Mathlib.Tactic.Common

namespace hologram_kv

abbrev Bytes := List UInt8

/-- The pair `(term, index)` in the order of Rust's tuples: the term first. -/
def log_key (term index : Nat) : ℕ ×ₗ ℕ := toLex (term, index)

theorem log_key_lt_iff {term index other_term other_index : Nat} :
    log_key term index < log_key other_term other_index ↔
      term < other_term ∨ term = other_term ∧ index < other_index :=
  Prod.Lex.toLex_lt_toLex

theorem log_key_le_iff {term index other_term other_index : Nat} :
    log_key term index ≤ log_key other_term other_index ↔
      term < other_term ∨ term = other_term ∧ index ≤ other_index :=
  Prod.Lex.toLex_le_toLex

theorem log_key_inj {term index other_term other_index : Nat} :
    log_key term index = log_key other_term other_index ↔
      term = other_term ∧ index = other_index := by
  unfold log_key
  rw [toLex.apply_eq_iff_eq, Prod.mk.injEq]

/-- What stops a thread of the store. -/
inductive Panic where
  | UnexpectedCallback (term found expected : Nat)
  | ProposalOrder
  | CallbackLeak (index term : Nat)
  | CommitStateJumpBackward
  | ExpectIndex (expected found : Nat)
  | ZeroTerm
  | ZeroIndex
  | Unwrap
  | SliceOutOfRange
  | UnexpectedCmdType
  | FailedToFetch (index : Nat)
  | Unreachable
  deriving DecidableEq

structure RaftRequestHeader where
  region_id : Nat := 0
  peer_id : Nat := 0
  store_id : Nat := 0
  uuid : Bytes := []
  term : Nat := 0
  deriving DecidableEq

inductive Request where
  | MessageQueue (payload : Bytes)
  | Invalid
  deriving DecidableEq

inductive AdminRequest where
  | CompactLog (compact_index compact_term : Nat)
  | InvalidAdmin
  deriving DecidableEq

inductive AdminCmdType where
  | CompactLog
  | InvalidAdmin
  deriving DecidableEq

inductive StatusCmdType where
  | InvalidStatus
  | RegionLeader
  | RegionDetail
  deriving DecidableEq

/-- The protocol does not enclose normal requests, an administrator request
and a status request at the same time. -/
inductive RaftCmdBody where
  | requests (requests : List Request)
  | admin_request (request : AdminRequest)
  | status_request (cmd_type : StatusCmdType)
  deriving DecidableEq

structure RaftCmdRequest where
  header : RaftRequestHeader := {}
  body : RaftCmdBody
  deriving DecidableEq

def RaftCmdRequest.get_requests (request : RaftCmdRequest) : List Request :=
  match request.body with
  | .requests requests => requests
  | _ => []

inductive Error where
  | Other (message : String)
  | RaftEntryTooLarge (region_id entry_size : Nat)
  | StoreNotMatch (to_store_id my_store_id : Nat)
  | NotLeader (region_id : Nat) (leader : Option Nat)
  | ProposalDropped
  | StaleCommand
  deriving DecidableEq

structure RaftResponseHeader where
  error : Option Error := none
  uuid : Bytes := []
  current_term : Nat := 0
  deriving DecidableEq

/-- The response to one message: where the message stands in the log. -/
structure MessageQueueResponse where
  error : String
  index : Nat
  offset : Nat
  deriving DecidableEq

structure StatusResponse where
  cmd_type : StatusCmdType
  leader : Option Nat
  deriving DecidableEq

structure RaftCmdResponse where
  header : RaftResponseHeader := {}
  responses : List MessageQueueResponse := []
  admin_response : Option AdminCmdType := none
  status_response : Option StatusResponse := none
  deriving DecidableEq

namespace cmd_resp

def bind_term (resp : RaftCmdResponse) (term : Nat) : RaftCmdResponse :=
  if term = 0 then resp else { resp with header := { resp.header with current_term := term } }

def bind_error (resp : RaftCmdResponse) (err : Error) : RaftCmdResponse :=
  { resp with header := { resp.header with error := some err } }

def new_error (err : Error) : RaftCmdResponse := bind_error {} err

def err_resp (err : Error) (term : Nat) : RaftCmdResponse := bind_term (new_error err) term

@[simp] theorem bind_term_error (resp : RaftCmdResponse) (term : Nat) :
    (bind_term resp term).header.error = resp.header.error := by
  unfold bind_term
  split <;> rfl

@[simp] theorem bind_term_responses (resp : RaftCmdResponse) (term : Nat) :
    (bind_term resp term).responses = resp.responses := by
  unfold bind_term
  split <;> rfl

@[simp] theorem err_resp_error (err : Error) (term : Nat) :
    (err_resp err term).header.error = some err := by
  rw [err_resp, bind_term_error]
  rfl

end cmd_resp

/-- A callback around a closure. -/
inductive Callback (Closure : Type) where
  | None
  | Read (read : Closure)
  | Write (cb : Closure)
  deriving DecidableEq

/-- A callback that ran, with the response it was given. -/
abbrev Call (Closure : Type) := Callback Closure × RaftCmdResponse

variable {Closure : Type}

def Callback.is_none : Callback Closure → Bool
  | .None => true
  | _ => false

def Callback.invoke_with_response (cb : Callback Closure) (resp : RaftCmdResponse) :
    List (Call Closure) :=
  if cb.is_none then [] else [(cb, resp)]

/-- An entry of the raft log. The data are the command that they decode to;
`none` is the empty data that a new leader appends. -/
structure Entry where
  index : Nat
  term : Nat
  data : Option RaftCmdRequest
  deriving DecidableEq

def Entry.key (entry : Entry) : ℕ ×ₗ ℕ := log_key entry.term entry.index

structure Proposal (Closure : Type) where
  index : Nat
  term : Nat
  cb : Callback Closure
  deriving DecidableEq

def Proposal.key (p : Proposal Closure) : ℕ ×ₗ ℕ := log_key p.term p.index

end hologram_kv
