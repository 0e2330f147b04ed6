import Auticuro.Library.Run
import Mathlib.Data.List.Infix
import Mathlib.Logic.Function.Basic

/-! A log that a leader replicates to the nodes of a cluster, one leader in each
term. A prefix of a leader's log that all nodes have acknowledged to it is held by
all nodes and by all later leaders from then on. -/

namespace ReplicatedLog

variable {n : Nat} {E : Type}

/-- A node: its term, and its log as it is persisted. -/
structure Node (E : Type) where
  term : Nat
  log : List E

/-- The leader of a term, with its log in that term. -/
structure Leader (n : Nat) (E : Type) where
  node : Fin n
  log : List E

/-- The nodes, the leader of each term, how much of its log each node has
acknowledged to it, and the committed log. -/
structure Cluster (n : Nat) (E : Type) where
  nodes : Fin n → Node E
  leaders : Nat → Option (Leader n E)
  acked : Nat → Fin n → Nat
  committed : List E

/-- Entries that a leader sends are appended, and what is behind them is removed if
they are in conflict with the log. -/
def replicate [DecidableEq E] (log incoming : List E) : List E :=
  if incoming <+: log then log else incoming

inductive Action (n : Nat) (E : Type) where
  /-- A node enters a later term. -/
  | advance (node : Fin n) (term : Nat)
  /-- A node becomes the leader of a later term. -/
  | campaign (node : Fin n) (term : Nat)
  | propose (node : Fin n) (entry : E)
  /-- A node persists a prefix of the log of a leader and acknowledges it. -/
  | append (node : Fin n) (term count : Nat)
  /-- A prefix of the log of a leader is committed. -/
  | commit (term count : Nat)
  deriving DecidableEq

namespace Cluster

/-- Nodes of one term with an empty log. -/
def start (term : Nat) : Cluster n E where
  nodes _ := ⟨term, []⟩
  leaders _ := none
  acked _ _ := 0
  committed := []

variable (self : Cluster n E)

def advance (node : Fin n) (term : Nat) : Cluster n E :=
  { self with nodes := Function.update self.nodes node { self.nodes node with term := term } }

/-- The node leads its term from its own log. -/
def crown (node : Fin n) : Cluster n E :=
  { self with
    leaders := Function.update self.leaders (self.nodes node).term
      (some ⟨node, (self.nodes node).log⟩)
    acked := Function.update self.acked (self.nodes node).term
      (Function.update (fun _ => 0) node (self.nodes node).log.length) }

def lead (term : Nat) (leader : Leader n E) : Cluster n E :=
  { self with leaders := Function.update self.leaders term (some leader) }

/-- The node persists a prefix of the log of its term's leader. -/
def persist [DecidableEq E] (node : Fin n) (leader : Leader n E) (count : Nat) : Cluster n E :=
  let term := (self.nodes node).term
  { self with
    nodes := Function.update self.nodes node
      ⟨term, replicate (self.nodes node).log (leader.log.take count)⟩
    acked := Function.update self.acked term
      (Function.update (self.acked term) node (max (self.acked term node) count)) }

/-- Each term has one leader, which only appends to its log, a node follows no
leader of an earlier term, and what is committed stays committed. -/
def step [DecidableEq E] (term_of : E → Nat) : Action n E → Option (Cluster n E)
  | .advance node term =>
    if (self.nodes node).term < term then some (self.advance node term) else none
  | .campaign node term =>
    if (self.nodes node).term < term ∧ (self.leaders term).isNone then
      some ((self.advance node term).crown node)
    else
      none
  | .propose node entry => do
    let term := (self.nodes node).term
    let leader ← self.leaders term
    if leader.node = node ∧ term_of entry = term then
      return self.lead term { leader with log := leader.log ++ [entry] }
    else
      none
  | .append node term count => do
    let leader ← self.leaders term
    if (self.nodes node).term ≤ term ∧ count ≤ leader.log.length then
      return (self.advance node term).persist node leader count
    else
      none
  | .commit term count => do
    let leader ← self.leaders term
    if self.committed <+: leader.log.take count then
      return { self with committed := leader.log.take count }
    else
      none

variable (term_of : E → Nat)

/-- Where the log has an entry of a term, it is the log of the term's leader up to
there. -/
def Matches (log : List E) : Prop :=
  ∀ before entry, before ++ [entry] <+: log →
    ∃ leader, self.leaders (term_of entry) = some leader ∧ before ++ [entry] <+: leader.log

/-- Every leader is still there and has only appended to its log. -/
def LeadersGrow (next : Cluster n E) : Prop :=
  ∀ term leader, self.leaders term = some leader →
    ∃ successor, next.leaders term = some successor ∧ leader.log <+: successor.log

/-- The nodes that have left a term have acknowledged so much in it. -/
def Frozen (term count : Nat) : Prop :=
  ∀ node, term < (self.nodes node).term → count ≤ self.acked term node

/-- The nodes and the leaders of later terms hold the log. -/
def HeldAfter (term : Nat) (log : List E) : Prop :=
  (∀ node, term < (self.nodes node).term → log <+: (self.nodes node).log) ∧
    ∀ later successor, term < later → self.leaders later = some successor →
      log <+: successor.log

structure Valid (cluster : Cluster n E) (term_of : E → Nat) : Prop where
  node_terms : ∀ node, ∀ entry ∈ (cluster.nodes node).log, term_of entry ≤ (cluster.nodes node).term
  leader_terms : ∀ term leader, cluster.leaders term = some leader →
    0 < term ∧ term ≤ (cluster.nodes leader.node).term ∧ ∀ entry ∈ leader.log, term_of entry ≤ term
  node_matches : ∀ node, cluster.Matches term_of (cluster.nodes node).log
  leader_matches : ∀ term leader, cluster.leaders term = some leader →
    cluster.Matches term_of leader.log
  committed_matches : cluster.Matches term_of cluster.committed
  acked_le : ∀ term leader node, cluster.leaders term = some leader →
    cluster.acked term node ≤ leader.log.length
  acked_zero : ∀ term node, (cluster.nodes node).term < term → cluster.acked term node = 0
  acked_log : ∀ term leader node, cluster.leaders term = some leader →
    (cluster.nodes node).term = term →
    leader.log.take (cluster.acked term node) <+: (cluster.nodes node).log
  kept : ∀ term leader count, cluster.leaders term = some leader → cluster.Frozen term count →
    cluster.HeldAfter term (leader.log.take count)

variable {self} {term_of}

namespace Matches

theorem of_shorter {log shorter : List E} (hlog : self.Matches term_of log)
    (hbegins : shorter <+: log) : self.Matches term_of shorter :=
  fun before entry hentry => hlog before entry (hentry.trans hbegins)

theorem mono {next : Cluster n E} {log : List E} (hgrow : self.LeadersGrow next)
    (hlog : self.Matches term_of log) : next.Matches term_of log := by
  intro before entry hentry
  obtain ⟨leader, hleader, hbegins⟩ := hlog before entry hentry
  obtain ⟨successor, hsuccessor, hle⟩ := hgrow _ leader hleader
  exact ⟨successor, hsuccessor, hbegins.trans hle⟩

end Matches

theorem take_eq_take_of_le_length {log longer : List E} {count : Nat} (hbegins : log <+: longer)
    (hcount : count ≤ log.length) : log.take count = longer.take count := by
  obtain ⟨rest, rfl⟩ := hbegins
  rw [List.take_append_of_le_length hcount]

/-- What stays in a log when a leader replicates its own log to it. -/
theorem prefix_replicate [DecidableEq E] {log incoming source kept : List E}
    (hincoming : incoming <+: source) (hsource : kept <+: source) (hlog : kept <+: log) :
    kept <+: replicate log incoming := by
  unfold replicate
  split
  · exact hlog
  · next hconflict =>
    obtain hle | hge := List.prefix_or_prefix_of_prefix hsource hincoming
    · exact hle
    · exact absurd (hge.trans hlog) hconflict

theorem replicate_cases [DecidableEq E] (log incoming : List E) :
    replicate log incoming = log ∨ replicate log incoming = incoming := by
  unfold replicate
  split
  · exact .inl rfl
  · exact .inr rfl

theorem self_prefix_replicate [DecidableEq E] (log incoming : List E) :
    incoming <+: replicate log incoming := by
  unfold replicate
  split
  · assumption
  · exact List.prefix_refl _

theorem nodes_advance (node other : Fin n) (term : Nat) :
    ((self.advance node term).nodes other).log = (self.nodes other).log ∧
      ((self.nodes node).term ≤ term →
        (self.nodes other).term ≤ ((self.advance node term).nodes other).term) := by
  unfold advance
  by_cases hother : other = node
  · subst hother
    simp
  · simp [Function.update_of_ne hother]

theorem leaders_crown (node : Fin n) (term : Nat) :
    (self.crown node).leaders term =
      if term = (self.nodes node).term then some ⟨node, (self.nodes node).log⟩
      else self.leaders term :=
  Function.update_apply _ _ _ _

theorem acked_crown (node other : Fin n) (term : Nat) :
    (self.crown node).acked term other =
      if term = (self.nodes node).term then
        if other = node then (self.nodes node).log.length else 0
      else self.acked term other := by
  unfold crown
  by_cases hterm : term = (self.nodes node).term
  · simp only [hterm, Function.update_self, Function.update_apply, if_true]
  · simp only [Function.update_of_ne hterm, if_neg hterm]

theorem leaders_lead (term other : Nat) (leader : Leader n E) :
    (self.lead term leader).leaders other =
      if other = term then some leader else self.leaders other :=
  Function.update_apply _ _ _ _

variable {term : Nat}

theorem leaders_crown_cases {node : Fin n} {leader : Leader n E}
    (hleader : (self.crown node).leaders term = some leader) :
    (term = (self.nodes node).term ∧ leader = ⟨node, (self.nodes node).log⟩) ∨
      (term ≠ (self.nodes node).term ∧ self.leaders term = some leader) := by
  rw [leaders_crown] at hleader
  split at hleader
  · next hterm => exact .inl ⟨hterm, (Option.some.inj hleader).symm⟩
  · next hterm => exact .inr ⟨hterm, hleader⟩

theorem leaders_lead_cases {term other : Nat} {leader successor : Leader n E}
    (hsuccessor : (self.lead term leader).leaders other = some successor) :
    (other = term ∧ successor = leader) ∨ self.leaders other = some successor := by
  rw [leaders_lead] at hsuccessor
  split at hsuccessor
  · next hother => exact .inl ⟨hother, (Option.some.inj hsuccessor).symm⟩
  · exact .inr hsuccessor

/-- The leaders were there before one of them appended to its log. -/
theorem leaders_before_lead {term other : Nat} {leader successor : Leader n E} {entries : List E}
    (hleader : self.leaders term = some leader)
    (hsuccessor : (self.lead term { leader with log := leader.log ++ entries }).leaders other =
      some successor) :
    ∃ before, self.leaders other = some before ∧ before.log <+: successor.log := by
  obtain ⟨rfl, rfl⟩ | hold := leaders_lead_cases hsuccessor
  · exact ⟨leader, hleader, List.prefix_append _ _⟩
  · exact ⟨successor, hold, List.prefix_refl _⟩

theorem leadersGrow_crown {node : Fin n} (hnone : self.leaders (self.nodes node).term = none) :
    self.LeadersGrow (self.crown node) := by
  intro term leader hleader
  refine ⟨leader, ?_, List.prefix_refl _⟩
  rw [leaders_crown, if_neg]
  · exact hleader
  · rintro rfl
    cases hnone.symm.trans hleader

theorem leadersGrow_lead {leader : Leader n E} {entries : List E}
    (hleader : self.leaders term = some leader) :
    self.LeadersGrow (self.lead term { leader with log := leader.log ++ entries }) := by
  intro other before hbefore
  rw [leaders_lead]
  split
  · next hother =>
    subst hother
    cases hleader.symm.trans hbefore
    exact ⟨_, rfl, List.prefix_append _ _⟩
  · exact ⟨before, hbefore, List.prefix_refl _⟩

theorem nodes_persist [DecidableEq E] (node other : Fin n) (leader : Leader n E) (count : Nat) :
    (self.persist node leader count).nodes other =
      if other = node then
        ⟨(self.nodes node).term, replicate (self.nodes node).log (leader.log.take count)⟩
      else self.nodes other :=
  Function.update_apply _ _ _ _

theorem acked_persist [DecidableEq E] (node other : Fin n) (leader : Leader n E)
    (count term : Nat) :
    (self.persist node leader count).acked term other =
      if term = (self.nodes node).term ∧ other = node then max (self.acked term node) count
      else self.acked term other := by
  unfold persist
  by_cases hterm : term = (self.nodes node).term
  · simp only [hterm, Function.update_self, Function.update_apply, true_and]
  · simp only [Function.update_of_ne hterm, hterm, false_and, if_false]

theorem term_persist [DecidableEq E] (node other : Fin n) (leader : Leader n E) (count : Nat) :
    ((self.persist node leader count).nodes other).term = (self.nodes other).term := by
  rw [nodes_persist]
  split
  · next hother => rw [hother]
  · rfl

theorem acked_persist_of_ne [DecidableEq E] {node other : Fin n} {leader : Leader n E}
    {count term : Nat} (hother : other = node → (self.nodes other).term ≠ term) :
    (self.persist node leader count).acked term other = self.acked term other := by
  rw [acked_persist, if_neg]
  rintro ⟨rfl, rfl⟩
  exact hother rfl rfl

/-- A node that has left a term acknowledges nothing more in it. -/
theorem Frozen.of_persist [DecidableEq E] {node : Fin n} {leader : Leader n E}
    {count left count' : Nat} (hfrozen : (self.persist node leader count).Frozen left count') :
    self.Frozen left count' := by
  intro other hother
  have hle := hfrozen other ((term_persist node other leader count).symm ▸ hother)
  rwa [acked_persist_of_ne fun _ => hother.ne'] at hle

variable {entry : E}

/-- Every entry of a node's log is one of its own or one of its leader's. -/
theorem mem_persist [DecidableEq E] {node other : Fin n} {leader : Leader n E} {count : Nat}
    (hentry : entry ∈ ((self.persist node leader count).nodes other).log) :
    entry ∈ (self.nodes other).log ∨ other = node ∧ entry ∈ leader.log := by
  rw [nodes_persist] at hentry
  split at hentry
  · next hother =>
    obtain hold | hnew := replicate_cases (self.nodes node).log (leader.log.take count)
    · rw [hold] at hentry
      exact .inl (hother ▸ hentry)
    · rw [hnew] at hentry
      exact .inr ⟨hother, (List.take_prefix _ _).subset hentry⟩
  · exact .inl hentry

/-- Where the log has an entry, the leader of the entry's term has it, too. -/
theorem Matches.leader_has {log : List E} (hlog : self.Matches term_of log) {position : Nat}
    (hentry : log[position]? = some entry) :
    ∃ leader, self.leaders (term_of entry) = some leader ∧
      log.take (position + 1) <+: leader.log ∧ leader.log[position]? = some entry := by
  obtain ⟨hposition, hget⟩ := List.getElem?_eq_some_iff.mp hentry
  have htake := List.take_concat_get' log position hposition
  rw [hget] at htake
  obtain ⟨leader, hleader, hbegins⟩ := hlog (log.take position) entry (by
    rw [htake]
    exact List.take_prefix _ _)
  rw [htake] at hbegins
  refine ⟨leader, hleader, hbegins, ?_⟩
  obtain ⟨rest, hrest⟩ := hbegins
  have hlength : position < (log.take (position + 1)).length := by
    rw [List.length_take]
    omega
  rw [← hrest, List.getElem?_append_left hlength, List.getElem?_take_of_lt (Nat.lt_succ_self _)]
  exact hentry

/-- What an action does, and what it needs. -/
inductive Step [DecidableEq E] (term_of : E → Nat) (cluster : Cluster n E) :
    Action n E → Cluster n E → Prop where
  | advance {node : Fin n} {term : Nat} (hterm : (cluster.nodes node).term < term) :
      Step term_of cluster (.advance node term) (cluster.advance node term)
  | campaign {node : Fin n} {term : Nat} (hterm : (cluster.nodes node).term < term)
      (hnone : cluster.leaders term = none) :
      Step term_of cluster (.campaign node term) ((cluster.advance node term).crown node)
  | propose {node : Fin n} {entry : E} {leader : Leader n E}
      (hleader : cluster.leaders (cluster.nodes node).term = some leader)
      (hnode : leader.node = node) (hentry : term_of entry = (cluster.nodes node).term) :
      Step term_of cluster (.propose node entry) (cluster.lead (cluster.nodes node).term
        { leader with log := leader.log ++ [entry] })
  | append {node : Fin n} {term count : Nat} {leader : Leader n E}
      (hleader : cluster.leaders term = some leader) (hterm : (cluster.nodes node).term ≤ term)
      (hcount : count ≤ leader.log.length) :
      Step term_of cluster (.append node term count)
        ((cluster.advance node term).persist node leader count)
  | commit {term count : Nat} {leader : Leader n E}
      (hleader : cluster.leaders term = some leader)
      (hcommitted : cluster.committed <+: leader.log.take count) :
      Step term_of cluster (.commit term count)
        { cluster with committed := leader.log.take count }

theorem step_spec [DecidableEq E] {next : Cluster n E} {action : Action n E}
    (hstep : self.step term_of action = some next) : Step term_of self action next := by
  cases action with
  | advance node term =>
    simp only [step] at hstep
    split at hstep
    · next hterm =>
      cases hstep
      exact .advance hterm
    · cases hstep
  | campaign node term =>
    simp only [step] at hstep
    split at hstep
    · next hguard =>
      cases hstep
      exact .campaign hguard.1 (Option.isNone_iff_eq_none.mp hguard.2)
    · cases hstep
  | propose node entry =>
    obtain ⟨leader, hleader, hrest⟩ := Option.bind_eq_some_iff.mp hstep
    split at hrest
    · next hguard =>
      cases hrest
      exact .propose hleader hguard.1 hguard.2
    · cases hrest
  | append node term count =>
    obtain ⟨leader, hleader, hrest⟩ := Option.bind_eq_some_iff.mp hstep
    split at hrest
    · next hguard =>
      cases hrest
      exact .append hleader hguard.1 hguard.2
    · cases hrest
  | commit term count =>
    obtain ⟨leader, hleader, hrest⟩ := Option.bind_eq_some_iff.mp hstep
    split at hrest
    · next hcommitted =>
      cases hrest
      exact .commit hleader hcommitted
    · cases hrest

/-- Terms, acknowledgements and the committed log only grow. -/
structure Grows (cluster next : Cluster n E) : Prop where
  committed : cluster.committed <+: next.committed
  terms : ∀ node, (cluster.nodes node).term ≤ (next.nodes node).term
  acked : ∀ term leader, cluster.leaders term = some leader →
    ∀ node, cluster.acked term node ≤ next.acked term node

theorem term_advance (node : Fin n) (term : Nat) :
    ((self.advance node term).nodes node).term = term := by
  simp [advance]

namespace Step

variable [DecidableEq E] {next : Cluster n E} {action : Action n E}

theorem grows (hstep : Step term_of self action next) : self.Grows next := by
  cases hstep with
  | @advance node term hterm =>
    exact ⟨List.prefix_refl _, fun other => (self.nodes_advance node other term).2 hterm.le,
      fun _ _ _ _ => le_rfl⟩
  | @campaign node term hterm hnone =>
    have hled : (self.advance node term).leaders ((self.advance node term).nodes node).term =
        none := by
      rw [term_advance]
      exact hnone
    refine ⟨List.prefix_refl _, fun other => (self.nodes_advance node other term).2 hterm.le,
      fun led leader hleader other => ?_⟩
    rw [acked_crown, if_neg]
    · exact le_rfl
    · rintro rfl
      cases hled.symm.trans hleader
  | propose hleader hnode hentry =>
    exact ⟨List.prefix_refl _, fun _ => le_rfl, fun _ _ _ _ => le_rfl⟩
  | @append node term count leader hleader hterm hcount =>
    refine ⟨List.prefix_refl _, fun other => ?_, fun led _ _ other => ?_⟩
    · refine ((self.nodes_advance node other term).2 hterm).trans ?_
      rw [nodes_persist]
      split
      · next hother => rw [hother]
      · exact le_rfl
    · rw [acked_persist]
      split
      · next hsame =>
        rw [hsame.2]
        exact le_max_left _ _
      · exact le_rfl
  | commit hleader hcommitted =>
    exact ⟨hcommitted, fun _ => le_rfl, fun _ _ _ _ => le_rfl⟩

/-- The leaders after a step: those from before, one of which may have appended an
entry, and a node that has become the leader of a new term. -/
theorem leaders (hstep : Step term_of self action next) {successor : Leader n E}
    (hsuccessor : next.leaders term = some successor) :
    self.leaders term = some successor ∨
      (∃ node leader entry, action = .propose node entry ∧ (self.nodes node).term = term ∧
        self.leaders term = some leader ∧
        successor = { leader with log := leader.log ++ [entry] }) ∨
      ∃ node, (self.nodes node).term < term ∧ successor = ⟨node, (self.nodes node).log⟩ := by
  cases hstep with
  | advance hterm => exact .inl hsuccessor
  | @campaign node led hterm hnone =>
    rw [leaders_crown, term_advance] at hsuccessor
    split at hsuccessor
    · next hled =>
      subst hled
      cases hsuccessor
      refine .inr (.inr ⟨node, hterm, ?_⟩)
      rw [(self.nodes_advance node node term).1]
    · exact .inl hsuccessor
  | @propose node entry leader hleader hnode hentry =>
    rw [leaders_lead] at hsuccessor
    split at hsuccessor
    · next hled =>
      subst hled
      cases hsuccessor
      exact .inr (.inl ⟨node, leader, entry, rfl, rfl, hleader, rfl⟩)
    · exact .inl hsuccessor
  | append hleader hterm hcount | commit hleader hcommitted => exact .inl hsuccessor

end Step

namespace Valid

theorem start (term_of : E → Nat) (term : Nat) :
    (Cluster.start term : Cluster n E).Valid term_of where
  node_terms := by
    intro node entry hentry
    cases hentry
  leader_terms := by
    intro term leader hleader
    cases hleader
  node_matches := by
    intro node before entry hentry
    exact absurd (List.prefix_nil.mp hentry) (by simp)
  leader_matches := by
    intro term leader hleader
    cases hleader
  committed_matches := by
    intro before entry hentry
    exact absurd (List.prefix_nil.mp hentry) (by simp)
  acked_le := by
    intro term leader node hleader
    cases hleader
  acked_zero := fun _ _ _ => rfl
  acked_log := by
    intro term leader node hleader
    cases hleader
  kept := by
    intro term leader count hleader
    cases hleader

section

variable (hvalid : self.Valid term_of)
include hvalid

/-- A node that has not left a term holds what it has acknowledged in it. -/
theorem held {term count : Nat} {leader : Leader n E} {node : Fin n}
    (hleader : self.leaders term = some leader) (hterm : (self.nodes node).term ≤ term)
    (hcount : count ≤ self.acked term node) : leader.log.take count <+: (self.nodes node).log := by
  obtain hless | hsame := Nat.lt_or_eq_of_le hterm
  · rw [hvalid.acked_zero term node hless, Nat.le_zero] at hcount
    rw [hcount]
    exact List.nil_prefix
  · have hlog := hvalid.acked_log term leader node hleader hsame
    exact (List.take_prefix_take_left hcount).trans hlog

/-- What all nodes have acknowledged in a term is held by all nodes, and by all
leaders of later terms. -/
theorem acked_by_all {term count : Nat} {leader : Leader n E}
    (hleader : self.leaders term = some leader) (hcount : ∀ node, count ≤ self.acked term node) :
    (∀ node, leader.log.take count <+: (self.nodes node).log) ∧
      ∀ later successor, term < later → self.leaders later = some successor →
        leader.log.take count <+: successor.log := by
  obtain ⟨hnodes, hleaders⟩ := hvalid.kept term leader count hleader fun node _ => hcount node
  refine ⟨fun node => ?_, hleaders⟩
  by_cases hterm : term < (self.nodes node).term
  · exact hnodes node hterm
  · exact hvalid.held hleader (not_lt.mp hterm) (hcount node)

theorem advance {node : Fin n} (hterm : (self.nodes node).term ≤ term) :
    (self.advance node term).Valid term_of := by
  have hlog := fun other => (self.nodes_advance node other term).1
  have hle := fun other => (self.nodes_advance node other term).2 hterm
  have hfrozen : ∀ left count, (self.advance node term).Frozen left count →
      self.Frozen left count :=
    fun left count hfrozen other hother => hfrozen other (hother.trans_le (hle other))
  refine ⟨?_, ?_, ?_, hvalid.leader_matches, hvalid.committed_matches, hvalid.acked_le, ?_, ?_, ?_⟩
  · intro other entry hentry
    rw [hlog] at hentry
    exact (hvalid.node_terms other entry hentry).trans (hle other)
  · intro led leader hleader
    obtain ⟨hpos, hnode, hterms⟩ := hvalid.leader_terms led leader hleader
    exact ⟨hpos, hnode.trans (hle leader.node), hterms⟩
  · intro other
    rw [hlog]
    exact hvalid.node_matches other
  · exact fun later other hother => hvalid.acked_zero later other ((hle other).trans_lt hother)
  · intro led leader other hleader hother
    rw [hlog]
    exact hvalid.held hleader ((hle other).trans hother.le) le_rfl
  · intro left leader count hleader hcount
    obtain ⟨hnodes, hleaders⟩ := hvalid.kept left leader count hleader (hfrozen left count hcount)
    refine ⟨fun other hother => ?_, hleaders⟩
    rw [hlog]
    by_cases hbefore : left < (self.nodes other).term
    · exact hnodes other hbefore
    · exact hvalid.held hleader (not_lt.mp hbefore) (hcount other hother)

theorem kept_crown {node : Fin n} {term count : Nat} {leader : Leader n E}
    (hleader : (self.crown node).leaders term = some leader)
    (hfrozen : (self.crown node).Frozen term count) :
    (self.crown node).HeldAfter term (leader.log.take count) := by
  obtain ⟨rfl, rfl⟩ | ⟨hterm, hold⟩ := leaders_crown_cases hleader
  · -- a node of a later term has acknowledged nothing in this one
    have hempty : ∀ other, (self.nodes node).term < (self.nodes other).term → count = 0 := by
      intro other hother
      have hcount := hfrozen other hother
      rw [acked_crown, if_pos rfl, if_neg] at hcount
      · exact Nat.le_zero.mp hcount
      · rintro rfl
        exact lt_irrefl _ hother
    refine ⟨fun other hother => ?_, fun later successor hlater hsuccessor => ?_⟩
    · rw [hempty other hother]
      exact List.nil_prefix
    · obtain ⟨rfl, -⟩ | ⟨-, hold⟩ := leaders_crown_cases hsuccessor
      · exact absurd hlater (lt_irrefl _)
      · obtain ⟨-, hle, -⟩ := hvalid.leader_terms later successor hold
        rw [hempty successor.node (hlater.trans_le hle)]
        exact List.nil_prefix
  · have hbefore : self.Frozen term count := by
      intro other hother
      have hcount := hfrozen other hother
      rwa [acked_crown, if_neg hterm] at hcount
    obtain ⟨hnodes, hleaders⟩ := hvalid.kept term leader count hold hbefore
    refine ⟨hnodes, fun later successor hlater hsuccessor => ?_⟩
    obtain ⟨rfl, rfl⟩ | ⟨-, hsuccessor⟩ := leaders_crown_cases hsuccessor
    · exact hnodes node hlater
    · exact hleaders later successor hlater hsuccessor

/-- A node leads a term that had no leader. -/
theorem crown {node : Fin n} (hpos : 0 < (self.nodes node).term)
    (hnone : self.leaders (self.nodes node).term = none) : (self.crown node).Valid term_of := by
  have hgrow := leadersGrow_crown hnone
  refine ⟨hvalid.node_terms, ?_, fun other => (hvalid.node_matches other).mono hgrow, ?_,
    hvalid.committed_matches.mono hgrow, ?_, ?_, ?_, ?_⟩
  · intro term leader hleader
    obtain ⟨rfl, rfl⟩ | ⟨-, hold⟩ := leaders_crown_cases hleader
    · exact ⟨hpos, le_rfl, hvalid.node_terms node⟩
    · exact hvalid.leader_terms term leader hold
  · intro term leader hleader
    obtain ⟨rfl, rfl⟩ | ⟨-, hold⟩ := leaders_crown_cases hleader
    · exact (hvalid.node_matches node).mono hgrow
    · exact (hvalid.leader_matches term leader hold).mono hgrow
  · intro term leader other hleader
    rw [acked_crown]
    obtain ⟨rfl, rfl⟩ | ⟨hterm, hold⟩ := leaders_crown_cases hleader
    · rw [if_pos rfl]
      split
      · exact le_rfl
      · exact Nat.zero_le _
    · rw [if_neg hterm]
      exact hvalid.acked_le term leader other hold
  · intro term other hother
    rw [acked_crown]
    split
    · next hterm =>
      subst hterm
      rw [if_neg]
      rintro rfl
      exact lt_irrefl _ hother
    · exact hvalid.acked_zero term other hother
  · intro term leader other hleader hother
    rw [acked_crown]
    obtain ⟨rfl, rfl⟩ | ⟨hterm, hold⟩ := leaders_crown_cases hleader
    · rw [if_pos rfl]
      split
      · next hsame =>
        subst hsame
        exact List.take_prefix _ _
      · exact List.nil_prefix
    · rw [if_neg hterm]
      exact hvalid.acked_log term leader other hold hother
  · exact fun term leader count hleader hfrozen => hvalid.kept_crown hleader hfrozen

theorem matches_lead {leader : Leader n E} (hleader : self.leaders term = some leader)
    (hentry : term_of entry = term) :
    (self.lead term { leader with log := leader.log ++ [entry] }).Matches term_of
      (leader.log ++ [entry]) := by
  intro before later hlater
  obtain hwhole | hbegins := List.prefix_concat_iff.mp hlater
  · obtain ⟨-, hlast⟩ := List.append_inj' hwhole rfl
    obtain rfl : later = entry := List.singleton_inj.mp hlast
    refine ⟨{ leader with log := leader.log ++ [later] }, ?_, hlater⟩
    rw [hentry, leaders_lead, if_pos rfl]
  · exact (hvalid.leader_matches term leader hleader).mono (leadersGrow_lead hleader) before later
      hbegins

theorem kept_lead {term other count : Nat} {leader successor : Leader n E}
    (hleader : self.leaders term = some leader)
    (hsuccessor : (self.lead term { leader with log := leader.log ++ [entry] }).leaders other =
      some successor) (hfrozen : self.Frozen other count) :
    (self.lead term { leader with log := leader.log ++ [entry] }).HeldAfter other
      (successor.log.take count) := by
  obtain ⟨before, hold, hbegins⟩ := leaders_before_lead hleader hsuccessor
  obtain ⟨hnodes, hleaders⟩ := hvalid.kept other before count hold hfrozen
  -- what was acknowledged is in front of the new entry
  have htake : ∀ node, other < (self.nodes node).term →
      before.log.take count = successor.log.take count := by
    intro node hnode
    have hacked := hvalid.acked_le other before node hold
    exact take_eq_take_of_le_length hbegins ((hfrozen node hnode).trans hacked)
  refine ⟨fun node hnode => ?_, fun later last hlater hlast => ?_⟩
  · rw [← htake node hnode]
    exact hnodes node hnode
  · obtain ⟨before', hold', hbegins'⟩ := leaders_before_lead hleader hlast
    obtain ⟨-, hle, -⟩ := hvalid.leader_terms later before' hold'
    rw [← htake before'.node (hlater.trans_le hle)]
    exact (hleaders later before' hlater hold').trans hbegins'

/-- A leader appends to its log. -/
theorem lead {leader : Leader n E} (hleader : self.leaders term = some leader)
    (hentry : term_of entry = term) :
    (self.lead term { leader with log := leader.log ++ [entry] }).Valid term_of := by
  have hgrow : self.LeadersGrow (self.lead term { leader with log := leader.log ++ [entry] }) :=
    leadersGrow_lead hleader
  refine ⟨hvalid.node_terms, ?_, fun other => (hvalid.node_matches other).mono hgrow, ?_,
    hvalid.committed_matches.mono hgrow, ?_, hvalid.acked_zero, ?_,
    fun _ _ _ hsuccessor hfrozen => hvalid.kept_lead hleader hsuccessor hfrozen⟩
  · intro other successor hsuccessor
    obtain ⟨rfl, rfl⟩ | hold := leaders_lead_cases hsuccessor
    · obtain ⟨hpos, hle, hterms⟩ := hvalid.leader_terms other leader hleader
      refine ⟨hpos, hle, fun later hlater => ?_⟩
      obtain hlater | hlater := List.mem_append.mp hlater
      · exact hterms later hlater
      · rw [List.mem_singleton.mp hlater]
        exact hentry.le
    · exact hvalid.leader_terms other successor hold
  · intro other successor hsuccessor
    obtain ⟨rfl, rfl⟩ | hold := leaders_lead_cases hsuccessor
    · exact hvalid.matches_lead hleader hentry
    · exact (hvalid.leader_matches other successor hold).mono hgrow
  · intro other successor node hsuccessor
    obtain ⟨before, hold, hbegins⟩ := leaders_before_lead hleader hsuccessor
    exact (hvalid.acked_le other before node hold).trans hbegins.length_le
  · intro other successor node hsuccessor hnode
    obtain ⟨before, hold, hbegins⟩ := leaders_before_lead hleader hsuccessor
    change successor.log.take (self.acked other node) <+: (self.nodes node).log
    rw [← take_eq_take_of_le_length hbegins (hvalid.acked_le other before node hold)]
    exact hvalid.acked_log other before node hold hnode

end

section Persist

variable [DecidableEq E] {node : Fin n} {leader : Leader n E} {count : Nat}
  (hvalid : self.Valid term_of) (hleader : self.leaders (self.nodes node).term = some leader)
include hvalid hleader

theorem matches_persist (other : Fin n) :
    (self.persist node leader count).Matches term_of
      ((self.persist node leader count).nodes other).log := by
  rw [nodes_persist]
  split
  · obtain hold | hnew := replicate_cases (self.nodes node).log (leader.log.take count)
    · simp only [hold]
      exact hvalid.node_matches node
    · simp only [hnew]
      exact (hvalid.leader_matches _ leader hleader).of_shorter (List.take_prefix _ _)
  · exact hvalid.node_matches other

theorem acked_log_persist {other : Leader n E} {peer : Fin n}
    (hother : self.leaders term = some other) (hpeer : (self.nodes peer).term = term) :
    other.log.take ((self.persist node leader count).acked term peer) <+:
      ((self.persist node leader count).nodes peer).log := by
  subst hpeer
  rw [nodes_persist, acked_persist]
  by_cases hnode : peer = node
  · subst hnode
    cases hleader.symm.trans hother
    rw [if_pos rfl, if_pos ⟨rfl, rfl⟩]
    obtain hle | hle := Nat.le_total count (self.acked (self.nodes peer).term peer)
    · rw [max_eq_left hle]
      exact prefix_replicate (List.take_prefix _ _) (List.take_prefix _ _)
        (hvalid.acked_log _ leader peer hleader rfl)
    · rw [max_eq_right hle]
      exact self_prefix_replicate _ _
  · rw [if_neg hnode, if_neg fun hsame => hnode hsame.2]
    exact hvalid.acked_log _ other peer hother rfl

theorem kept_persist {left count' : Nat} {other : Leader n E}
    (hother : self.leaders left = some other)
    (hfrozen : (self.persist node leader count).Frozen left count') :
    (self.persist node leader count).HeldAfter left (other.log.take count') := by
  obtain ⟨hnodes, hleaders⟩ := hvalid.kept left other count' hother hfrozen.of_persist
  refine ⟨fun peer hpeer => ?_, hleaders⟩
  rw [term_persist] at hpeer
  rw [nodes_persist]
  split
  · next hsame =>
    subst hsame
    -- the leader of the node's term holds it, too
    exact prefix_replicate (List.take_prefix _ _) (hleaders _ leader hpeer hleader)
      (hnodes peer hpeer)
  · exact hnodes peer hpeer

/-- A node persists a prefix of the log of its leader. -/
theorem persist (hcount : count ≤ leader.log.length) :
    (self.persist node leader count).Valid term_of := by
  refine ⟨?_, ?_, hvalid.matches_persist hleader, hvalid.leader_matches, hvalid.committed_matches,
    ?_, ?_, ?_, fun _ _ _ hother hfrozen => hvalid.kept_persist hleader hother hfrozen⟩
  · intro other entry hentry
    rw [term_persist]
    obtain hold | ⟨rfl, hnew⟩ := mem_persist hentry
    · exact hvalid.node_terms other entry hold
    · obtain ⟨-, -, hterms⟩ := hvalid.leader_terms _ leader hleader
      exact hterms entry hnew
  · intro term other hother
    rw [term_persist]
    exact hvalid.leader_terms term other hother
  · intro term other peer hother
    rw [acked_persist]
    split
    · next hsame =>
      obtain ⟨rfl, rfl⟩ := hsame
      cases hleader.symm.trans hother
      exact max_le (hvalid.acked_le _ leader peer hleader) hcount
    · exact hvalid.acked_le term other peer hother
  · intro term other hother
    rw [term_persist] at hother
    rw [acked_persist_of_ne fun _ => hother.ne]
    exact hvalid.acked_zero term other hother
  · intro term other peer hother hpeer
    rw [term_persist] at hpeer
    exact hvalid.acked_log_persist hleader hother hpeer

end Persist

theorem step [DecidableEq E] {next : Cluster n E} {action : Action n E}
    (hvalid : self.Valid term_of) (hstep : Step term_of self action next) :
    next.Valid term_of := by
  cases hstep with
  | advance hterm => exact hvalid.advance hterm.le
  | campaign hterm hnone =>
    refine (hvalid.advance hterm.le).crown ?_ ?_
    · rw [term_advance]
      omega
    · rw [term_advance]
      exact hnone
  | propose hleader hnode hentry => exact hvalid.lead hleader hentry
  | append hleader hterm hcount =>
    refine (hvalid.advance hterm).persist ?_ hcount
    rw [term_advance]
    exact hleader
  | commit hleader hcommitted =>
    exact { hvalid with
      committed_matches :=
        (hvalid.leader_matches _ _ hleader).of_shorter (List.take_prefix _ _) }

end Valid

end Cluster

end ReplicatedLog
