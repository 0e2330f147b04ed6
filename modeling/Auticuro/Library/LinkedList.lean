import Mathlib.Data.List.Chain
import Mathlib.Data.List.Nodup
import Mathlib.Data.List.Perm.Subperm
import Mathlib.Tactic.Common

namespace LinkedList

variable {K : Type}

/-- A record with the addresses of its neighbours. -/
structure Record (K : Type) where
  prev : Nat
  next : Nat
  key : Option K

/-- The records by their addresses, and the next address to be given out. A record
that is freed is gone, and its address is not given out again. -/
structure Memory (K : Type) where
  records : Nat → Option (Record K)
  fresh : Nat

namespace Memory

/-- Below the first address there is room for pointers that are not set. -/
def empty : Memory K where
  records := fun _ => none
  fresh := 2

def write (self : Memory K) (address : Nat) (record : Option (Record K)) : Memory K :=
  { self with records := fun other => if other = address then record else self.records other }

/-- A write through a pointer, `none` where nothing is allocated. -/
def modify (self : Memory K) (address : Nat) (f : Record K → Record K) : Option (Memory K) :=
  (self.records address).map fun record => self.write address (some (f record))

def alloc (self : Memory K) (record : Record K) : Nat × Memory K :=
  (self.fresh, { self.write self.fresh (some record) with fresh := self.fresh + 1 })

/-- Freed memory cannot be freed again. -/
def free (self : Memory K) (address : Nat) : Option (Record K × Memory K) :=
  (self.records address).map fun record => (record, self.write address none)

/-- Make two records neighbours. -/
def link (self : Memory K) (leading following : Nat) : Option (Memory K) := do
  let self ← self.modify leading fun record => { record with next := following }
  self.modify following fun record => { record with prev := leading }

/-- Make the neighbours of a record neighbours of each other. -/
def unlink (self : Memory K) (address : Nat) : Option (Memory K) := do
  let record ← self.records address
  self.link record.prev record.next

/-- Put a record right behind the first one. -/
def push_front (self : Memory K) (first address : Nat) : Option (Memory K) := do
  let head ← self.records first
  let self ← self.link address head.next
  self.link first address

/-- Put a new record right behind the first one. -/
def insert_front (self : Memory K) (first : Nat) (key : K) : Option (Nat × Memory K) := do
  let head ← self.records first
  let (address, self) := self.alloc ⟨first, head.next, some key⟩
  let self ← self.modify head.next fun record => { record with prev := address }
  let self ← self.modify first fun record => { record with next := address }
  return (address, self)

/-- Free the records from an address on up to the last one. No more records can be
freed than addresses were given out. -/
def free_until (last : Nat) : Nat → Memory K → Nat → Option (Memory K)
  | fuel, self, address =>
    if address = last then
      some self
    else
      match fuel with
      | 0 => none
      | fuel + 1 => do
        let (record, self) ← self.free address
        free_until last fuel self record.next

/-- The memory after two records were linked. -/
def linked (self : Memory K) (leading following : Nat) : Memory K :=
  { self with records := fun address => (self.records address).map fun record =>
      { record with
        next := if address = leading then following else record.next
        prev := if address = following then leading else record.prev } }

variable {self : Memory K} {leading following address : Nat}

theorem ext_records {left right : Memory K} (hrecords : ∀ address,
    left.records address = right.records address) (hfresh : left.fresh = right.fresh) :
    left = right := by
  obtain ⟨records, fresh⟩ := left
  obtain ⟨records', fresh'⟩ := right
  obtain rfl : records = records' := funext hrecords
  obtain rfl : fresh = fresh' := hfresh
  rfl

theorem write_records (self : Memory K) (address : Nat) (record : Option (Record K))
    (other : Nat) :
    (self.write address record).records other =
      if other = address then record else self.records other := rfl

theorem modify_eq {record : Record K} (hrecord : self.records address = some record)
    (f : Record K → Record K) :
    self.modify address f = some (self.write address (some (f record))) := by
  unfold modify
  rw [hrecord]
  rfl

theorem link_eq (hleading : self.records leading ≠ none)
    (hfollowing : self.records following ≠ none) :
    self.link leading following = some (self.linked leading following) := by
  obtain ⟨first, hfirst⟩ := Option.ne_none_iff_exists'.mp hleading
  obtain ⟨second, hsecond⟩ := Option.ne_none_iff_exists'.mp hfollowing
  unfold link modify
  rw [hfirst]
  by_cases hsame : following = leading
  · subst hsame
    simp only [Option.map_some, Option.bind_eq_bind, Option.bind_some, write, if_true]
    refine congrArg some (ext_records (fun address => ?_) rfl)
    simp only [linked]
    by_cases haddress : address = following
    · subst haddress
      simp [hfirst]
    · cases self.records address with
      | none | some record => simp [haddress]
  · simp only [Option.map_some, Option.bind_eq_bind, Option.bind_some, write, hsame, hsecond,
      if_false]
    refine congrArg some (ext_records (fun address => ?_) rfl)
    simp only [linked]
    by_cases haddress : address = following
    · subst haddress
      simp [hsame, hsecond]
    · by_cases hlead : address = leading
      · subst hlead
        simp [haddress, hfirst]
      · cases self.records address with
        | none | some record => simp [haddress, hlead]

theorem linked_eq_none_iff :
    (self.linked leading following).records address = none ↔ self.records address = none :=
  Option.map_eq_none_iff

theorem linked_key :
    ((self.linked leading following).records address).map Record.key =
      (self.records address).map Record.key := by
  unfold linked
  rw [Option.map_map]
  rfl

/-- A new record has its neighbours already, which only have to learn about it. -/
theorem insert_front_eq {first : Nat} {head : Record K} (key : K)
    (hhead : self.records first = some head) (hbehind : self.records head.next ≠ none)
    (hne : first ≠ head.next) (hfresh : self.records self.fresh = none) :
    self.insert_front first key =
      ((self.alloc ⟨first, head.next, some key⟩).2.push_front first self.fresh).map
        (Prod.mk self.fresh) := by
  obtain ⟨behind, hbehind⟩ := Option.ne_none_iff_exists'.mp hbehind
  have hfirst : first ≠ self.fresh := by
    rintro rfl
    cases hhead.symm.trans hfresh
  have hsecond : head.next ≠ self.fresh := by
    intro heq
    rw [heq, hfresh] at hbehind
    cases hbehind
  have hhead' : (self.alloc ⟨first, head.next, some key⟩).2.records first = some head := by
    simp [alloc, write_records, hfirst, hhead]
  have hbehind' : (self.alloc ⟨first, head.next, some key⟩).2.records head.next =
      some behind := by
    simp [alloc, write_records, hsecond, hbehind]
  have hnew : (self.alloc ⟨first, head.next, some key⟩).2.records self.fresh =
      some ⟨first, head.next, some key⟩ := by
    simp [alloc, write_records]
  unfold push_front
  rw [hhead', Option.bind_eq_bind, Option.bind_some,
    link_eq (by simp [hnew]) (by simp [hbehind']), Option.bind_eq_bind, Option.bind_some,
    link_eq (by simp [linked, hhead']) (by simp [linked, hnew])]
  unfold insert_front
  rw [hhead, Option.bind_eq_bind, Option.bind_some]
  simp only
  rw [show (self.alloc ⟨first, head.next, some key⟩).1 = self.fresh from rfl,
    modify_eq hbehind', Option.bind_eq_bind, Option.bind_some,
    modify_eq (by rw [write_records, if_neg hne]; exact hhead')]
  refine congrArg (some ∘ Prod.mk self.fresh) (ext_records (fun address => ?_) rfl)
  simp only [write_records, linked]
  by_cases haddress : address = first
  · subst haddress
    simp [hhead', hfirst, hne]
  · by_cases hlast : address = head.next
    · rw [hlast]
      simp [hbehind', hsecond, hne.symm]
    · by_cases hthis : address = self.fresh
      · rw [hthis]
        simp [hnew, hfirst.symm, hsecond.symm]
      · cases hrecord : (self.alloc ⟨first, head.next, some key⟩).2.records address with
        | none => simp [haddress, hlast]
        | some record => simp [haddress, hlast, hthis]

end Memory

/-- Each of two records has the other one as its neighbour. -/
def Adjacent (memory : Memory K) (leading following : Nat) : Prop :=
  (memory.records leading).map Record.next = some following ∧
    (memory.records following).map Record.prev = some leading

namespace Adjacent

variable {memory : Memory K} {leading following first second : Nat}

theorem allocated (hadjacent : Adjacent memory leading following) :
    memory.records leading ≠ none ∧ memory.records following ≠ none := by
  obtain ⟨hnext, hprev⟩ := hadjacent
  constructor
  · intro hnone
    rw [hnone] at hnext
    cases hnext
  · intro hnone
    rw [hnone] at hprev
    cases hprev

theorem linked_self (hleading : memory.records leading ≠ none)
    (hfollowing : memory.records following ≠ none) :
    Adjacent (memory.linked leading following) leading following := by
  obtain ⟨first, hfirst⟩ := Option.ne_none_iff_exists'.mp hleading
  obtain ⟨second, hsecond⟩ := Option.ne_none_iff_exists'.mp hfollowing
  unfold Adjacent Memory.linked
  simp [hfirst, hsecond]

/-- Other neighbours stay neighbours. -/
theorem linked_of_ne (hadjacent : Adjacent memory first second) (hleading : first ≠ leading)
    (hfollowing : second ≠ following) :
    Adjacent (memory.linked leading following) first second := by
  obtain ⟨hnext, hprev⟩ := hadjacent
  unfold Adjacent Memory.linked
  simp only [Option.map_map]
  constructor
  · rw [← hnext]
    congr 1
    funext record
    simp [hleading]
  · rw [← hprev]
    congr 1
    funext record
    simp [hfollowing]

/-- A chain stays one when records are linked that it has at most at its ends. -/
theorem isChain_linked {addresses : List Nat} (hchain : addresses.IsChain (Adjacent memory))
    (hleading : leading ∉ addresses.dropLast) (hfollowing : following ∉ addresses.tail) :
    addresses.IsChain (Adjacent (memory.linked leading following)) := by
  induction addresses with
  | nil => exact .nil
  | cons first rest ih =>
    cases rest with
    | nil => exact .singleton first
    | cons second rest =>
      rw [List.isChain_cons_cons] at hchain ⊢
      rw [List.dropLast_cons_cons, List.mem_cons, not_or] at hleading
      rw [List.tail_cons, List.mem_cons, not_or] at hfollowing
      refine ⟨hchain.1.linked_of_ne (Ne.symm hleading.1) (Ne.symm hfollowing.1), ?_⟩
      exact ih hchain.2 hleading.2 hfollowing.2

/-- Two chains are joined by linking the end of the one to the start of the other. -/
theorem isChain_join {front back : List Nat} (hfront : front.IsChain (Adjacent memory))
    (hback : back.IsChain (Adjacent memory)) (hnodup : (front ++ back).Nodup)
    (hleading : front.getLast? = some leading) (hfollowing : back.head? = some following)
    (hfirst : memory.records leading ≠ none) (hsecond : memory.records following ≠ none) :
    (front ++ back).IsChain (Adjacent (memory.linked leading following)) := by
  obtain ⟨front, rfl⟩ := List.getLast?_eq_some_iff.mp hleading
  obtain ⟨back, rfl⟩ := List.head?_eq_some_iff.mp hfollowing
  have hdisjoint := List.disjoint_of_nodup_append hnodup
  obtain ⟨hnodupFront, hnodupBack, -⟩ := List.nodup_append.mp hnodup
  have hleadingBack : leading ∉ following :: back := hdisjoint (by simp)
  have hfollowingFront : following ∉ front ++ [leading] := fun hmem => hdisjoint hmem (by simp)
  rw [List.isChain_append]
  refine ⟨isChain_linked hfront ?_ fun hmem => hfollowingFront (List.mem_of_mem_tail hmem),
    isChain_linked hback (fun hmem => hleadingBack ((List.dropLast_sublist _).subset hmem)) ?_, ?_⟩
  · rw [List.dropLast_concat]
    exact fun hmem => List.disjoint_of_nodup_append hnodupFront hmem (List.mem_singleton_self _)
  · exact (List.nodup_cons.mp hnodupBack).1
  · intro left hleft right hright
    rw [List.getLast?_concat] at hleft
    cases hleft
    cases hright
    exact linked_self hfirst hsecond

end Adjacent

/-- The records of a chain are freed one after the other. -/
theorem free_until_eq {memory : Memory K} {last address fuel : Nat} {rest : List Nat}
    (hchain : (rest ++ [last]).IsChain (Adjacent memory)) (hnodup : (rest ++ [last]).Nodup)
    (hfuel : rest.length ≤ fuel) (haddress : (rest ++ [last]).head? = some address) :
    ∃ next, Memory.free_until last fuel memory address = some next ∧
      next.fresh = memory.fresh ∧
      ∀ other, next.records other = if other ∈ rest then none else memory.records other := by
  induction rest generalizing memory address fuel with
  | nil =>
    cases haddress
    unfold Memory.free_until
    exact ⟨memory, if_pos rfl, rfl, by simp⟩
  | cons first rest ih =>
    cases haddress
    obtain ⟨fuel, rfl⟩ : ∃ less, fuel = less + 1 := ⟨fuel - 1, by simp at hfuel; omega⟩
    rw [List.cons_append, List.isChain_cons] at hchain
    rw [List.cons_append, List.nodup_cons] at hnodup
    obtain ⟨behind, hbehind⟩ : ∃ behind, (rest ++ [last]).head? = some behind :=
      ⟨_, List.head?_eq_some_head (by simp)⟩
    have hadjacent := hchain.1 behind hbehind
    obtain ⟨record, hrecord, rfl⟩ := Option.map_eq_some_iff.mp hadjacent.1
    have hrest : (rest ++ [last]).IsChain (Adjacent (memory.write first none)) := by
      refine hchain.2.imp_of_mem_imp fun leading following hleading hfollowing => ?_
      unfold Adjacent
      rw [Memory.write_records, Memory.write_records,
        if_neg (ne_of_mem_of_not_mem hleading hnodup.1),
        if_neg (ne_of_mem_of_not_mem hfollowing hnodup.1)]
      exact id
    obtain ⟨next, hnext, hfresh, hrecords⟩ :=
      ih hrest hnodup.2 (by simpa using hfuel) hbehind
    refine ⟨next, ?_, hfresh, fun other => ?_⟩
    · have hne : first ≠ last := by
        rintro rfl
        exact hnodup.1 (by simp)
      unfold Memory.free_until Memory.free
      rw [if_neg hne, hrecord]
      exact hnext
    · rw [hrecords, Memory.write_records]
      by_cases hother : other = first
      · simp [hother]
      · simp [hother]

/-- The addresses of a list with its two ends. -/
def addresses (first last : Nat) (cells : List (Nat × K)) : List Nat :=
  first :: (cells.map Prod.fst ++ [last])

/-- A memory with nothing in it but a list of keys between two ends, and spare records
that are not linked. -/
structure Holds (memory : Memory K) (first last : Nat) (cells : List (Nat × K))
    (spare : List Nat) : Prop where
  chain : (addresses first last cells).IsChain (Adjacent memory)
  nodup : (addresses first last cells ++ spare).Nodup
  keyed : ∀ cell ∈ cells, (memory.records cell.1).map Record.key = some (some cell.2)
  allocated : ∀ address, memory.records address ≠ none ↔
    address ∈ addresses first last cells ++ spare
  fresh : ∀ address ∈ addresses first last cells ++ spare, address < memory.fresh

namespace Holds

variable {memory : Memory K} {first last address : Nat} {cells left right : List (Nat × K)}
  {spare : List Nat} {key : K}

theorem addresses_append :
    addresses first last (left ++ right) =
      (first :: left.map Prod.fst) ++ (right.map Prod.fst ++ [last]) := by
  simp [addresses]

theorem mem_addresses {cell : Nat × K} (hcell : cell ∈ cells) :
    cell.1 ∈ addresses first last cells :=
  List.mem_cons_of_mem _ (List.mem_append_left _ (List.mem_map_of_mem hcell))

/-- A record has the record before it and the one behind it as its neighbours, and
without it there are two chains. -/
theorem neighbours (hholds : Holds memory first last (left ++ (address, key) :: right) spare) :
    (first :: left.map Prod.fst).IsChain (Adjacent memory) ∧
      (right.map Prod.fst ++ [last]).IsChain (Adjacent memory) ∧
      ∃ before behind, (first :: left.map Prod.fst).getLast? = some before ∧
        (right.map Prod.fst ++ [last]).head? = some behind ∧
        Adjacent memory before address ∧ Adjacent memory address behind := by
  have hchain := hholds.chain
  rw [addresses_append, List.isChain_append] at hchain
  obtain ⟨hfront, hback, hbefore⟩ := hchain
  rw [List.map_cons, List.cons_append, List.isChain_cons] at hback
  refine ⟨hfront, hback.2, _, _, List.getLast?_eq_getLast_of_ne_nil (List.cons_ne_nil _ _),
    List.head?_eq_some_head (by simp), ?_, ?_⟩
  · exact hbefore _ (List.getLast?_eq_getLast_of_ne_nil _) _ rfl
  · exact hback.1 _ (List.head?_eq_some_head _)

/-- The first record is before the rest of the chain. -/
theorem front (hholds : Holds memory first last cells spare) :
    ∃ behind, (cells.map Prod.fst ++ [last]).head? = some behind ∧
      Adjacent memory first behind ∧
      (cells.map Prod.fst ++ [last]).IsChain (Adjacent memory) ∧
      first ∉ cells.map Prod.fst ++ [last] ∧ (cells.map Prod.fst ++ [last]).Nodup := by
  have hbehind := List.head?_eq_some_head (l := cells.map Prod.fst ++ [last]) (by simp)
  obtain ⟨hnext, hback⟩ := List.isChain_cons.mp hholds.chain
  exact ⟨_, hbehind, hnext _ hbehind, hback, List.nodup_cons.mp hholds.nodup.of_append_left⟩

/-- Linking keeps the keys, so that only the chain is to be shown. -/
theorem relinked {next : Memory K} {later : List (Nat × K)} {unused : List Nat}
    (hholds : Holds memory first last cells spare) (hfresh : next.fresh = memory.fresh)
    (hkeys : ∀ address, (next.records address).map Record.key =
      (memory.records address).map Record.key)
    (hperm : (addresses first last later ++ unused).Perm (addresses first last cells ++ spare))
    (hchain : (addresses first last later).IsChain (Adjacent next))
    (hkeyed : ∀ cell ∈ later, (memory.records cell.1).map Record.key = some (some cell.2)) :
    Holds next first last later unused where
  chain := hchain
  nodup := hperm.nodup_iff.mpr hholds.nodup
  keyed := by
    intro cell hcell
    rw [hkeys]
    exact hkeyed cell hcell
  allocated := by
    intro address
    rw [hperm.mem_iff, ← hholds.allocated, not_iff_not, ← Option.map_eq_none_iff, hkeys,
      Option.map_eq_none_iff]
  fresh := by
    intro address haddress
    rw [hfresh]
    exact hholds.fresh address (hperm.mem_iff.mp haddress)

/-- A record that is taken out of the list is spare. -/
theorem unlink (hholds : Holds memory first last (left ++ (address, key) :: right) []) :
    ∃ next, memory.unlink address = some next ∧
      Holds next first last (left ++ right) [address] ∧
      (next.records address).map Record.key = some (some key) := by
  obtain ⟨hfront, hback, before, behind, hbefore, hbehind, hprev, hnext⟩ := hholds.neighbours
  have hkey := hholds.keyed (address, key) (by simp)
  have hfirst := hprev.allocated.1
  have hsecond := hnext.allocated.2
  have hperm : (addresses first last (left ++ right) ++ [address]).Perm
      (addresses first last (left ++ (address, key) :: right) ++ []) := by
    rw [addresses_append, addresses_append, List.append_nil]
    simp only [List.map_cons, List.cons_append]
    rw [List.append_assoc]
    exact List.Perm.cons _ (List.Perm.append_left _ (List.perm_append_singleton _ _))
  obtain ⟨record, hrecord⟩ := Option.ne_none_iff_exists'.mp hnext.allocated.1
  refine ⟨memory.linked before behind, ?_,
    hholds.relinked rfl (fun _ => Memory.linked_key) hperm ?_ ?_, ?_⟩
  · obtain ⟨-, hprev⟩ := hprev
    obtain ⟨hnext, -⟩ := hnext
    rw [hrecord] at hprev hnext
    unfold Memory.unlink
    rw [hrecord, Option.bind_eq_bind, Option.bind_some, Option.some.inj hprev,
      Option.some.inj hnext]
    exact Memory.link_eq hfirst hsecond
  · have hnodup := (hperm.nodup_iff.mpr hholds.nodup).of_append_left
    rw [addresses_append] at hnodup ⊢
    exact Adjacent.isChain_join hfront hback hnodup hbefore hbehind hfirst hsecond
  · intro cell hcell
    refine hholds.keyed cell ?_
    rw [List.mem_append] at hcell ⊢
    exact hcell.imp_right (List.mem_cons_of_mem _)
  · rw [Memory.linked_key]
    exact hkey

/-- A spare record becomes the first one of the list. -/
theorem push_front (hholds : Holds memory first last cells [address])
    (hkey : (memory.records address).map Record.key = some (some key)) :
    ∃ next, memory.push_front first address = some next ∧
      Holds next first last ((address, key) :: cells) [] := by
  obtain ⟨behind, hbehind, hadjacent, hback, -⟩ := hholds.front
  have hspare : memory.records address ≠ none := (hholds.allocated address).mpr (by simp)
  have hperm : (addresses first last ((address, key) :: cells) ++ []).Perm
      (addresses first last cells ++ [address]) := by
    rw [List.append_nil]
    unfold addresses
    rw [List.map_cons, List.cons_append, List.cons_append]
    exact List.Perm.cons _ (List.perm_append_singleton _ _).symm
  have hnodup := (hperm.nodup_iff.mpr hholds.nodup).of_append_left
  obtain ⟨head, hhead⟩ := Option.ne_none_iff_exists'.mp hadjacent.allocated.1
  have hjoined : ([address] ++ (cells.map Prod.fst ++ [last])).IsChain
      (Adjacent (memory.linked address behind)) :=
    Adjacent.isChain_join (.singleton _) hback (List.nodup_cons.mp hnodup).2 rfl hbehind
      hspare hadjacent.allocated.2
  refine ⟨(memory.linked address behind).linked first address, ?_, ?_⟩
  · have hlink := Memory.link_eq hspare hadjacent.allocated.2
    obtain ⟨hnext, -⟩ := hadjacent
    rw [hhead] at hnext
    unfold Memory.push_front
    rw [hhead, Option.bind_eq_bind, Option.bind_some, Option.some.inj hnext, hlink]
    refine Memory.link_eq ?_ ?_
    · rw [Ne, Memory.linked_eq_none_iff, hhead]
      exact Option.some_ne_none _
    · rw [Ne, Memory.linked_eq_none_iff]
      exact hspare
  · refine hholds.relinked rfl (fun _ => Memory.linked_key.trans Memory.linked_key) hperm ?_ ?_
    · refine Adjacent.isChain_join (.singleton first) hjoined hnodup rfl rfl ?_ ?_
      · rw [Ne, Memory.linked_eq_none_iff]
        exact hadjacent.allocated.1
      · rw [Ne, Memory.linked_eq_none_iff]
        exact hspare
    · intro cell hcell
      obtain rfl | hcell := List.mem_cons.mp hcell
      · exact hkey
      · exact hholds.keyed cell hcell

/-- What is not linked may change. -/
theorem of_agree {next : Memory K} {unused : List Nat}
    (hholds : Holds memory first last cells spare)
    (hsame : ∀ address ∈ addresses first last cells,
      next.records address = memory.records address)
    (hnodup : (addresses first last cells ++ unused).Nodup)
    (hallocated : ∀ address, next.records address ≠ none ↔
      address ∈ addresses first last cells ++ unused)
    (hfresh : ∀ address ∈ addresses first last cells ++ unused, address < next.fresh) :
    Holds next first last cells unused where
  chain := by
    refine hholds.chain.imp_of_mem_imp fun leading following hleading hfollowing => ?_
    unfold Adjacent
    rw [hsame leading hleading, hsame following hfollowing]
    exact id
  nodup := hnodup
  keyed := by
    intro cell hcell
    rw [hsame cell.1 (mem_addresses hcell)]
    exact hholds.keyed cell hcell
  allocated := hallocated
  fresh := hfresh

/-- What is spare can be freed. -/
theorem free (hholds : Holds memory first last cells [address])
    (hkey : (memory.records address).map Record.key = some (some key)) :
    ∃ record next, memory.free address = some (record, next) ∧ record.key = some key ∧
      Holds next first last cells [] := by
  obtain ⟨record, hrecord, hrecordKey⟩ := Option.map_eq_some_iff.mp hkey
  have hkept : ∀ other ∈ addresses first last cells, other ≠ address := by
    rintro other hother rfl
    exact List.disjoint_of_nodup_append hholds.nodup hother (List.mem_singleton_self _)
  refine ⟨record, memory.write address none, ?_, hrecordKey, hholds.of_agree ?_ ?_ ?_ ?_⟩
  · unfold Memory.free
    rw [hrecord]
    rfl
  · exact fun other hother => if_neg (hkept other hother)
  · rw [List.append_nil]
    exact hholds.nodup.of_append_left
  · intro other
    rw [List.append_nil, Memory.write_records]
    by_cases hother : other = address
    · subst hother
      rw [if_pos rfl]
      exact ⟨fun hne => absurd rfl hne, fun hmem => absurd rfl (hkept other hmem)⟩
    · rw [if_neg hother, hholds.allocated, List.mem_append, List.mem_singleton]
      exact ⟨fun hmem => hmem.resolve_right hother, .inl⟩
  · intro other hother
    rw [List.append_nil] at hother
    exact hholds.fresh other (List.mem_append_left _ hother)

/-- A new record is spare. -/
theorem alloc (hholds : Holds memory first last cells []) (record : Record K) :
    Holds (memory.alloc record).2 first last cells [memory.fresh] := by
  have hfresh := hholds.fresh
  rw [List.append_nil] at hfresh
  refine hholds.of_agree ?_ ?_ ?_ ?_
  · exact fun other hother => if_neg (hfresh other hother).ne
  · rw [List.nodup_append]
    refine ⟨hholds.nodup.of_append_left, List.nodup_singleton _, ?_⟩
    intro other hother new hnew
    rw [List.mem_singleton.mp hnew]
    exact (hfresh other hother).ne
  · intro other
    have hallocated := hholds.allocated other
    rw [List.append_nil] at hallocated
    rw [List.mem_append, List.mem_singleton, ← hallocated]
    unfold Memory.alloc Memory.write
    by_cases hother : other = memory.fresh
    · simp [hother]
    · simp [hother]
  · intro other hother
    obtain hother | hother := List.mem_append.mp hother
    · exact (hfresh other hother).trans (Nat.lt_succ_self _)
    · rw [List.mem_singleton.mp hother]
      exact Nat.lt_succ_self _

/-- A new record becomes the first one of the list. -/
theorem insert_front (hholds : Holds memory first last cells []) (key : K) :
    ∃ next, memory.insert_front first key = some (memory.fresh, next) ∧
      Holds next first last ((memory.fresh, key) :: cells) [] := by
  obtain ⟨behind, hbehind, hadjacent, -, hfirst, -⟩ := hholds.front
  obtain ⟨head, hhead, rfl⟩ := Option.map_eq_some_iff.mp hadjacent.1
  have hne : first ≠ head.next := (ne_of_mem_of_not_mem (List.mem_of_head? hbehind) hfirst).symm
  have hfresh : memory.records memory.fresh = none := by
    by_contra hused
    exact lt_irrefl _ (hholds.fresh _ ((hholds.allocated _).mp hused))
  have hkey : ((memory.alloc ⟨first, head.next, some key⟩).2.records memory.fresh).map
      Record.key = some (some key) := by
    simp [Memory.alloc, Memory.write_records]
  obtain ⟨next, hnext, hnew⟩ := (hholds.alloc ⟨first, head.next, some key⟩).push_front hkey
  refine ⟨next, ?_, hnew⟩
  rw [Memory.insert_front_eq key hhead hadjacent.allocated.2 hne hfresh, hnext]
  rfl

/-- The key of the first record is replaced. -/
theorem set_key {old : K} (hholds : Holds memory first last ((address, old) :: cells) [])
    (key : K) :
    ∃ next, memory.modify address (fun record => { record with key := some key }) = some next ∧
      Holds next first last ((address, key) :: cells) [] := by
  obtain ⟨record, hrecord, -⟩ :=
    Option.map_eq_some_iff.mp (hholds.keyed (address, old) List.mem_cons_self)
  have hne : ∀ cell ∈ cells, cell.1 ≠ address := by
    intro cell hcell heq
    have hnodup := hholds.nodup.of_append_left
    unfold addresses at hnodup
    rw [List.map_cons, List.cons_append, List.nodup_cons, List.nodup_cons] at hnodup
    exact hnodup.2.1 (List.mem_append_left _ (List.mem_map.mpr ⟨cell, hcell, heq⟩))
  have hlinks {f : Record K → Nat} (hf : f { record with key := some key } = f record)
      (other : Nat) :
      ((memory.write address (some { record with key := some key })).records other).map f =
        (memory.records other).map f := by
    rw [Memory.write_records]
    split
    · next heq => rw [heq, hrecord, Option.map_some, hf, Option.map_some]
    · rfl
  refine ⟨_, Memory.modify_eq hrecord _, ?_⟩
  exact {
    chain := by
      refine hholds.chain.imp fun leading following hadjacent => ?_
      exact ⟨(hlinks rfl leading).trans hadjacent.1, (hlinks rfl following).trans hadjacent.2⟩
    nodup := hholds.nodup
    keyed := by
      intro cell hcell
      rw [Memory.write_records]
      obtain rfl | hcell := List.mem_cons.mp hcell
      · rw [if_pos rfl]
        rfl
      · rw [if_neg (hne cell hcell)]
        exact hholds.keyed cell (List.mem_cons_of_mem _ hcell)
    allocated := by
      intro other
      refine Iff.trans ?_ (hholds.allocated other)
      rw [not_iff_not, ← Option.map_eq_none_iff, hlinks (f := Record.next) rfl,
        Option.map_eq_none_iff]
    fresh := hholds.fresh }

/-- All records are freed. -/
theorem clear (hholds : Holds memory first last cells []) :
    ∃ head next cleared, memory.records first = some head ∧
      Memory.free_until last memory.fresh memory head.next = some next ∧
      next.link first last = some cleared ∧ Holds cleared first last [] [] := by
  obtain ⟨behind, hbehind, hadjacent, hchain, hnodup⟩ := hholds.front
  have hallocated := hholds.allocated
  have hfresh := hholds.fresh
  unfold addresses at hallocated hfresh
  obtain ⟨head, hhead, rfl⟩ := Option.map_eq_some_iff.mp hadjacent.1
  have hfuel : (cells.map Prod.fst).length ≤ memory.fresh := by
    have hsub : cells.map Prod.fst ⊆ List.range memory.fresh := by
      intro address haddress
      exact List.mem_range.mpr (hfresh address (by simp at haddress ⊢; tauto))
    have hless := (List.subperm_of_subset hnodup.2.of_append_left hsub).length_le
    rwa [List.length_range] at hless
  obtain ⟨next, hnext, hsame, hrecords⟩ := free_until_eq hchain hnodup.2 hfuel hbehind
  have hends : first ∉ cells.map Prod.fst ∧ last ∉ cells.map Prod.fst ∧ first ≠ last := by
    obtain ⟨hfirst, hrest⟩ := hnodup
    rw [List.mem_append, not_or, List.mem_singleton] at hfirst
    exact ⟨hfirst.1, fun hmem => List.disjoint_of_nodup_append hrest hmem (by simp), hfirst.2⟩
  have hfirst : next.records first ≠ none := by
    rw [hrecords, if_neg hends.1]
    exact (hallocated first).mpr (by simp)
  have hlast : next.records last ≠ none := by
    rw [hrecords, if_neg hends.2.1]
    exact (hallocated last).mpr (by simp)
  refine ⟨head, next, _, hhead, hnext, Memory.link_eq hfirst hlast, ?_⟩
  exact {
    chain := by
      change [first, last].IsChain _
      rw [List.isChain_cons_cons]
      exact ⟨Adjacent.linked_self hfirst hlast, .singleton last⟩
    nodup := by simpa [addresses] using hends.2.2
    keyed := by rintro cell ⟨⟩
    allocated := by
      intro address
      have hkept := hallocated address
      rw [Ne, Memory.linked_eq_none_iff, hrecords]
      by_cases hcell : address ∈ cells.map Prod.fst
      · rw [if_pos hcell]
        refine ⟨fun hne => absurd rfl hne, fun hmem => ?_⟩
        obtain rfl | hmem := List.mem_cons.mp hmem
        · exact absurd hcell hends.1
        · obtain rfl := List.mem_singleton.mp hmem
          exact absurd hcell hends.2.1
      · rw [if_neg hcell, ← Ne, hkept]
        simp [addresses, hcell]
    fresh := by
      intro address haddress
      change address < next.fresh
      rw [hsame]
      refine hfresh address ?_
      simp [addresses] at haddress ⊢
      tauto }

end Holds

end LinkedList
