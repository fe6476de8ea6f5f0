import PouchProv.Device
import PouchProv.Heap
import PouchProv.Runs
import Mathlib.Data.List.Nodup

/-!
# The response queue among its threads

`rpc.c` step by step: one thread runs `rpc_uplink_flush`, and any number of calls of
`pouch_prov_rpc_enqueue` and `pouch_prov_rpc_reset` are under way beside it. Every
allocation, operation on the queue or the semaphore, write to the uplink and `k_free`
is a step. Addresses are used again once they were freed; an allocation is known by
its number, which the code does not see.

At every moment each response that was enqueued is in exactly one place: the queue,
the hands of the flush or of one reset, or among the written or the discarded ones
(`Ledger`). Who holds a response is the only one to touch its block, so that no block
is freed twice or used once it was freed.
-/

namespace RpcQueue

open Heap (Memory Ptr Owns Holds)
open Device (Rsp)
open Handlers Status Runs

/-- A `struct rpc_rsp`: where it is, and what its enqueue was given to put there. -/
structure Item where
  ptr : Ptr
  rsp : Rsp
  deriving DecidableEq, Repr

/-- The number of the allocation, with the response. -/
def Item.tag (x : Item) : Nat × Rsp := (x.ptr.serial, x.rsp)

/-- A call of `pouch_prov_rpc_enqueue` or `pouch_prov_rpc_reset`, by what it does next. -/
inductive Call where
  | enqueue (r : Rsp)
  | filling (x : Item)
  | putting (x : Item)
  | giving
  | reset
  | freeing (x : Item)
  | clearing
  | returned (result : Except Errno Unit)

/-- `rpc_uplink_flush`, by what it does next. -/
inductive Flush where
  | idle
  | checking
  | taking
  | waiting
  | draining
  | writing (x : Item)
  | logging (x : Item)
  | freeing (x : Item)

/-- An entry as it was passed to `pouch_uplink_entry_write`, and whether that succeeded. -/
structure Written where
  serial : Nat
  entry : Rsp
  ok : Bool
  deriving DecidableEq, Repr

def Written.tag (w : Written) : Nat × Rsp := (w.serial, w.entry)

/-- The memory, the queue, the semaphore and the calls under way, with what happened so far:
the responses put into the queue, the entries written, and the allocations that a reset
discarded and that were freed. -/
structure Sys where
  memory : Memory Rsp
  allocated : Nat
  fifo : List Item
  sem : Bool
  calls : List Call
  flush : Flush
  enqueued : List (Nat × Rsp)
  written : List Written
  discarded : List Nat
  freed : List Nat

def start : Sys := ⟨Heap.empty, 0, [], false, [], .idle, [], [], [], []⟩

inductive Ev where
  /-- A thread calls `pouch_prov_rpc_enqueue`. -/
  | enqueue (r : Rsp)
  | reset
  /-- A step of a call, with the address that `k_malloc` would return. -/
  | run (i : Nat) (address : Option Nat)
  /-- The uplink handler is called. -/
  | flush
  /-- A step of the flush, with the result that a write would have. -/
  | proceed (ok : Bool)
  /-- The wait of the flush elapses. -/
  | timeout

/-- `k_sem_give`: to a flush that waits, or to the count. -/
def semGive (s : Sys) : Sys :=
  match s.flush with
  | .waiting => { s with flush := .draining }
  | _ => { s with sem := true }

/-- `k_sem_reset`, which ends the wait of a flush. -/
def semReset (s : Sys) : Sys :=
  match s.flush with
  | .waiting => { s with sem := false, flush := .draining }
  | _ => { s with sem := false }

/-- The next step of a call, and where it stands then. -/
def runCall (address : Option Nat) (s : Sys) : Call → Sys × Call
  | .enqueue r =>
    if r.msg.length > msgMax then (s, .returned (.error .emsgsize))
    else
      match address with
      | none => (s, .returned (.error .enomem))
      | some a =>
        -- The allocator returns no address that is in use.
        if (s.memory a).isSome then (s, .enqueue r)
        else
          let x : Item := ⟨⟨a, s.allocated⟩, r⟩
          ({ s with memory := Heap.alloc s.memory x.ptr, allocated := s.allocated + 1 },
            .filling x)
  | .filling x => ({ s with memory := Heap.store s.memory x.ptr x.rsp }, .putting x)
  | .putting x => ({ s with fifo := s.fifo ++ [x], enqueued := s.enqueued ++ [x.tag] }, .giving)
  | .giving => (semGive s, .returned (.ok ()))
  | .reset =>
    match s.fifo with
    | [] => (s, .clearing)
    | x :: rest => ({ s with fifo := rest }, .freeing x)
  | .freeing x =>
    ({ s with memory := Heap.free s.memory x.ptr, discarded := s.discarded ++ [x.ptr.serial],
              freed := s.freed ++ [x.ptr.serial] }, .reset)
  | .clearing => (semReset s, .returned (.ok ()))
  | .returned result => (s, .returned result)

def proceed (ok : Bool) (s : Sys) : Sys :=
  match s.flush with
  | .idle => s
  | .checking => { s with flush := if s.fifo.isEmpty then .taking else .draining }
  | .taking =>
    if s.sem then { s with sem := false, flush := .draining } else { s with flush := .waiting }
  | .waiting => s
  | .draining =>
    match s.fifo with
    | [] => { s with flush := .idle }
    | x :: rest => { s with fifo := rest, flush := .writing x }
  | .writing x =>
    -- What is passed on is what stands in the block.
    let entry := (Heap.load s.memory x.ptr).getD ⟨[], []⟩
    { s with written := s.written ++ [⟨x.ptr.serial, entry, ok⟩],
             flush := if ok then .freeing x else .logging x }
  | .logging x => { s with flush := .freeing x }
  | .freeing x =>
    { s with memory := Heap.free s.memory x.ptr, freed := s.freed ++ [x.ptr.serial],
             flush := .draining }

def step (s : Sys) : Ev → Sys
  | .enqueue r => { s with calls := s.calls ++ [.enqueue r] }
  | .reset => { s with calls := s.calls ++ [.reset] }
  | .run i address =>
    match s.calls[i]? with
    | some c =>
      let (s', c') := runCall address s c
      { s' with calls := s.calls.set i c' }
    | none => s
  | .flush =>
    match s.flush with
    | .idle => { s with flush := .checking }
    | _ => s
  | .proceed ok => proceed ok s
  | .timeout =>
    match s.flush with
    | .waiting => { s with flush := .draining }
    | _ => s

/-- The blocks that a step of a call uses: it fills the block that it allocated, links a block
behind the last one of the queue, takes the first one off, or frees one. -/
def Call.touches (fifo : List Item) : Call → List Item
  | .filling x => [x]
  | .putting x => x :: fifo.getLast?.toList
  | .reset => fifo.head?.toList
  | .freeing x => [x]
  | _ => []

def Flush.touches (fifo : List Item) : Flush → List Item
  | .draining => fifo.head?.toList
  | .writing x => [x]
  | .logging x => [x]
  | .freeing x => [x]
  | _ => []

def touches (s : Sys) : Ev → List Item
  | .run i _ => (s.calls[i]?.toList).flatMap (Call.touches s.fifo)
  | .proceed _ => s.flush.touches s.fifo
  | _ => []

/-- The response of an enqueue that has not put it into the queue yet. -/
def Call.draft : Call → Option Item
  | .filling x => some x
  | .putting x => some x
  | _ => none

/-- The same, once its block is filled. -/
def Call.ready : Call → Option Item
  | .putting x => some x
  | _ => none

/-- The response that a reset has taken off the queue. -/
def Call.hand : Call → Option Item
  | .freeing x => some x
  | _ => none

/-- The response that the flush has taken off the queue and not yet written. -/
def Flush.hand : Flush → List Item
  | .writing x => [x]
  | _ => []

/-- The response that it has written and not yet freed. -/
def Flush.spent : Flush → List Item
  | .logging x => [x]
  | .freeing x => [x]
  | _ => []

def serials (xs : List Item) : List Nat := xs.map fun x => x.ptr.serial

def drafts (s : Sys) : List Item := s.calls.filterMap Call.draft

def hands (s : Sys) : List Item := s.calls.filterMap Call.hand

def live (s : Sys) : List Item := drafts s ++ s.fifo ++ hands s ++ s.flush.hand ++ s.flush.spent

/-- Every allocation is in exactly one place, and what was freed is what was written or
discarded, but for what the flush is about to free. -/
structure Ledger (s : Sys) : Prop where
  allocated : ∀ n, (serials (drafts s)).count n + (s.enqueued.map Prod.fst).count n =
    if n < s.allocated then 1 else 0
  placed : ∀ n, (serials s.fifo).count n + (serials (hands s)).count n +
    (serials s.flush.hand).count n + (s.written.map Written.serial).count n +
    s.discarded.count n = (s.enqueued.map Prod.fst).count n
  freed : ∀ n, s.freed.count n + (serials s.flush.spent).count n =
    (s.written.map Written.serial).count n + s.discarded.count n

/-- The blocks of all that is held are in use, and those behind their enqueue hold its
response. What was written, is about to be written or is in the queue was enqueued in that
order. -/
structure Inv (s : Sys) : Prop where
  ledger : Ledger s
  order : (s.written.map Written.tag ++ (s.flush.hand ++ s.fifo).map Item.tag).Sublist s.enqueued
  owned : ∀ x ∈ live s, Owns s.memory x.ptr
  filled : ∀ x ∈ s.calls.filterMap Call.ready ++ s.fifo ++ s.flush.hand,
    Holds s.memory x.ptr x.rsp

/-- The two states hold the same, each in the same place. -/
structure SameHoldings (s s' : Sys) : Prop where
  memory : s'.memory = s.memory
  allocated : s'.allocated = s.allocated
  fifo : s'.fifo = s.fifo
  drafts : drafts s' = drafts s
  ready : s'.calls.filterMap Call.ready = s.calls.filterMap Call.ready
  hands : hands s' = hands s
  hand : s'.flush.hand = s.flush.hand
  spent : s'.flush.spent = s.flush.spent
  enqueued : s'.enqueued = s.enqueued
  written : s'.written = s.written
  discarded : s'.discarded = s.discarded
  freed : s'.freed = s.freed

lemma Inv.same {s s' : Sys} (h : Inv s) (same : SameHoldings s s') : Inv s' := by
  refine ⟨⟨?_, ?_, ?_⟩, ?_, ?_, ?_⟩
  · rw [same.drafts, same.enqueued, same.allocated]
    exact h.ledger.allocated
  · rw [same.fifo, same.hands, same.hand, same.written, same.discarded, same.enqueued]
    exact h.ledger.placed
  · rw [same.freed, same.spent, same.written, same.discarded]
    exact h.ledger.freed
  · rw [same.written, same.hand, same.fifo, same.enqueued]
    exact h.order
  · rw [live, same.drafts, same.fifo, same.hands, same.hand, same.spent, same.memory]
    exact h.owned
  · rw [same.ready, same.fifo, same.hand, same.memory]
    exact h.filled

@[simp] lemma serials_append (xs ys : List Item) :
    serials (xs ++ ys) = serials xs ++ serials ys :=
  List.map_append

@[simp] lemma serials_cons (x : Item) (xs : List Item) :
    serials (x :: xs) = x.ptr.serial :: serials xs := rfl

@[simp] lemma serials_nil : serials [] = [] := rfl

/-- Of the responses that are held no two are the same allocation, and none was freed. -/
lemma Ledger.live_once {s : Sys} (h : Ledger s) (n : Nat) :
    s.freed.count n + (serials (live s)).count n ≤ 1 := by
  have hallocated := h.allocated n
  have hplaced := h.placed n
  have hfreed := h.freed n
  simp only [live, serials_append, List.count_append]
  split at hallocated <;> omega

lemma serial_ne {xs : List Item} {x : Item} {n : Nat} (hx : x ∈ xs)
    (none : (serials xs).count n = 0) : x.ptr.serial ≠ n := by
  rintro rfl
  exact List.count_eq_zero.mp none (List.mem_map_of_mem hx)

lemma mem_live {s : Sys} {x : Item} :
    x ∈ live s ↔ x ∈ drafts s ∨ x ∈ s.fifo ∨ x ∈ hands s ∨ x ∈ s.flush.hand ∨
      x ∈ s.flush.spent := by
  simp only [live, List.mem_append, or_assoc]

lemma mem_filled {calls : List Call} {fifo hand : List Item} {x : Item} :
    x ∈ calls.filterMap Call.ready ++ fifo ++ hand ↔
      x ∈ calls.filterMap Call.ready ∨ x ∈ fifo ∨ x ∈ hand := by
  simp only [List.mem_append, or_assoc]

lemma ready_sub_draft {calls : List Call} {x : Item} (hx : x ∈ calls.filterMap Call.ready) :
    x ∈ calls.filterMap Call.draft := by
  obtain ⟨c, hc, hready⟩ := List.mem_filterMap.mp hx
  refine List.mem_filterMap.mpr ⟨c, hc, ?_⟩
  cases c <;> first | exact hready | cases hready

/-- What is filled is held, and is none of what the flush has written. -/
lemma live_of_filled {s : Sys} {x : Item}
    (hx : x ∈ s.calls.filterMap Call.ready ++ s.fifo ++ s.flush.hand) : x ∈ live s := by
  rcases mem_filled.mp hx with ready | queued | hand
  · exact mem_live.mpr (.inl (ready_sub_draft ready))
  · exact mem_live.mpr (.inr (.inl queued))
  · exact mem_live.mpr (.inr (.inr (.inr (.inl hand))))

section Calls

variable {memory : Memory Rsp} {allocated : Nat} {fifo : List Item} {sem : Bool}
  {before after : List Call} {flush : Flush} {enqueued : List (Nat × Rsp)}
  {written : List Written} {discarded freed : List Nat}

/-- What one call holds, and what the others do. -/
lemma mem_split {f : Call → Option Item} {c : Call} {x : Item} :
    x ∈ (before ++ c :: after).filterMap f ↔
      f c = some x ∨ x ∈ (before ++ after).filterMap f := by
  simp only [List.filterMap_append, List.filterMap_cons, List.mem_append]
  cases f c with
  | none => simp
  | some y => simp [or_left_comm, eq_comm]

@[inherit_doc mem_split]
lemma count_split {f : Call → Option Item} {c : Call} {n : Nat} :
    (serials ((before ++ c :: after).filterMap f)).count n =
      (serials (f c).toList).count n + (serials ((before ++ after).filterMap f)).count n := by
  simp only [List.filterMap_append, List.filterMap_cons, serials_append, List.count_append]
  cases f c with
  | none => simp
  | some y =>
    simp only [Option.toList_some, serials_cons, serials_nil, List.count_cons, List.count_nil]
    omega

lemma alloc_inv {r : Rsp} {a : Nat} (unused : memory a = none)
    (h : Inv ⟨memory, allocated, fifo, sem, before ++ .enqueue r :: after, flush, enqueued,
      written, discarded, freed⟩) :
    Inv ⟨Heap.alloc memory ⟨a, allocated⟩, allocated + 1, fifo, sem,
      before ++ .filling ⟨⟨a, allocated⟩, r⟩ :: after, flush, enqueued, written, discarded,
      freed⟩ := by
  obtain ⟨⟨hallocated, hplaced, hfreed⟩, horder, howned, hfilled⟩ := h
  refine ⟨⟨?_, ?_, hfreed⟩, horder, ?_, ?_⟩
  · intro n
    have hn := hallocated n
    simp only [drafts, count_split, Call.draft, Option.toList_some, Option.toList_none,
      serials_cons, serials_nil, List.count_cons, List.count_nil, beq_iff_eq] at hn ⊢
    by_cases heq : allocated = n
    · subst heq
      simp only [Nat.lt_irrefl, if_false, if_true, Nat.lt_succ_self] at hn ⊢
      omega
    · have hiff : n < allocated + 1 ↔ n < allocated := by omega
      simp only [if_neg heq, hiff]
      omega
  · simpa only [hands, count_split, Call.hand] using hplaced
  · intro x hx
    by_cases hnew : x = ⟨⟨a, allocated⟩, r⟩
    · subst hnew
      exact Heap.owns_alloc_self _ _
    · refine (howned x ?_).alloc unused
      simp only [mem_live, drafts, hands, mem_split, Call.draft, Call.hand] at hx ⊢
      grind
  · intro x hx
    refine (hfilled x ?_).alloc unused
    simpa only [mem_filled, mem_split, Call.ready] using hx

lemma store_inv {x : Item}
    (h : Inv ⟨memory, allocated, fifo, sem, before ++ .filling x :: after, flush, enqueued,
      written, discarded, freed⟩) :
    Inv ⟨Heap.store memory x.ptr x.rsp, allocated, fifo, sem, before ++ .putting x :: after, flush,
      enqueued, written, discarded, freed⟩ := by
  have honce := h.ledger.live_once x.ptr.serial
  obtain ⟨⟨hallocated, hplaced, hfreed⟩, horder, howned, hfilled⟩ := h
  have hx : Owns memory x.ptr := howned x (mem_live.mpr (.inl (mem_split.mpr (.inl rfl))))
  refine ⟨⟨?_, ?_, hfreed⟩, horder, ?_, ?_⟩
  · simpa only [drafts, count_split, Call.draft] using hallocated
  · simpa only [hands, count_split, Call.hand] using hplaced
  · intro y hy
    refine (howned y ?_).store
    simpa only [mem_live, drafts, hands, mem_split, Call.draft, Call.hand] using hy
  · intro y hy
    by_cases hnew : y = x
    · subst hnew
      exact Heap.holds_store_self hx
    · have hold : y ∈ (before ++ after).filterMap Call.ready ++ fifo ++ flush.hand := by
        simp only [mem_filled, mem_split, Call.ready] at hy ⊢
        grind
      -- the others are other allocations
      have hothers : (serials (live ⟨memory, allocated, fifo, sem, before ++ after, flush, enqueued,
          written, discarded, freed⟩)).count x.ptr.serial = 0 := by
        simp only [live, drafts, hands, serials_append, List.count_append, count_split, Call.draft,
          Call.hand, Option.toList_some, serials_cons, List.count_cons_self] at honce ⊢
        simp only [List.filterMap_append, serials_append, List.count_append] at honce ⊢
        omega
      refine (hfilled y ?_).store hx (serial_ne (live_of_filled hold) hothers)
      simp only [mem_filled, mem_split, Call.ready] at hold ⊢
      grind

lemma put_inv {x : Item}
    (h : Inv ⟨memory, allocated, fifo, sem, before ++ .putting x :: after, flush, enqueued,
      written, discarded, freed⟩) :
    Inv ⟨memory, allocated, fifo ++ [x], sem, before ++ .giving :: after, flush,
      enqueued ++ [x.tag], written, discarded, freed⟩ := by
  obtain ⟨⟨hallocated, hplaced, hfreed⟩, horder, howned, hfilled⟩ := h
  refine ⟨⟨?_, ?_, hfreed⟩, ?_, ?_, ?_⟩
  · intro n
    have hn := hallocated n
    simp only [drafts, count_split, Call.draft, Option.toList_some, Option.toList_none,
      serials_cons, serials_nil, List.map_append, List.map_cons, List.map_nil, List.count_append,
      List.count_cons, List.count_nil, Item.tag] at hn ⊢
    omega
  · intro n
    have hn := hplaced n
    simp only [hands, count_split, Call.hand, serials_append, serials_cons, serials_nil,
      List.map_append, List.map_cons, List.map_nil, List.count_append, List.count_cons,
      List.count_nil, Item.tag] at hn ⊢
    omega
  · rw [← List.append_assoc, List.map_append, ← List.append_assoc]
    exact horder.append (List.Sublist.refl _)
  · intro y hy
    refine howned y ?_
    simp only [mem_live, drafts, hands, mem_split, Call.draft, Call.hand, List.mem_append,
      List.mem_singleton] at hy ⊢
    grind
  · intro y hy
    refine hfilled y ?_
    simp only [mem_split, Call.ready, List.mem_append, List.mem_singleton] at hy ⊢
    grind

lemma take_inv {x : Item}
    (h : Inv ⟨memory, allocated, x :: fifo, sem, before ++ .reset :: after, flush, enqueued,
      written, discarded, freed⟩) :
    Inv ⟨memory, allocated, fifo, sem, before ++ .freeing x :: after, flush, enqueued, written,
      discarded, freed⟩ := by
  obtain ⟨⟨hallocated, hplaced, hfreed⟩, horder, howned, hfilled⟩ := h
  refine ⟨⟨?_, ?_, hfreed⟩, ?_, ?_, ?_⟩
  · simpa only [drafts, count_split, Call.draft] using hallocated
  · intro n
    have hn := hplaced n
    simp only [hands, count_split, Call.hand, Option.toList_some, Option.toList_none,
      serials_cons, serials_nil, List.count_cons, List.count_nil] at hn ⊢
    omega
  · refine List.Sublist.trans ?_ horder
    exact (List.Sublist.refl _).append
      (((List.Sublist.refl _).append (List.sublist_cons_self x fifo)).map Item.tag)
  · intro y hy
    refine howned y ?_
    simp only [mem_live, drafts, hands, mem_split, Call.draft, Call.hand, List.mem_cons] at hy ⊢
    grind
  · intro y hy
    refine hfilled y ?_
    simp only [mem_filled, mem_split, Call.ready, List.mem_cons] at hy ⊢
    grind

lemma discard_inv {x : Item}
    (h : Inv ⟨memory, allocated, fifo, sem, before ++ .freeing x :: after, flush, enqueued,
      written, discarded, freed⟩) :
    Inv ⟨Heap.free memory x.ptr, allocated, fifo, sem, before ++ .reset :: after, flush, enqueued,
      written, discarded ++ [x.ptr.serial], freed ++ [x.ptr.serial]⟩ := by
  have honce := h.ledger.live_once x.ptr.serial
  obtain ⟨⟨hallocated, hplaced, hfreed⟩, horder, howned, hfilled⟩ := h
  have hx : Owns memory x.ptr :=
    howned x (mem_live.mpr (.inr (.inr (.inl (mem_split.mpr (.inl rfl))))))
  have hothers : (serials (live ⟨memory, allocated, fifo, sem, before ++ .reset :: after, flush,
      enqueued, written, discarded, freed⟩)).count x.ptr.serial = 0 := by
    simp only [live, drafts, hands, serials_append, List.count_append, count_split, Call.draft,
      Call.hand, Option.toList_some, serials_cons, List.count_cons_self] at honce ⊢
    simp only [Option.toList_none, serials_nil, List.count_nil] at honce ⊢
    omega
  refine ⟨⟨?_, ?_, ?_⟩, horder, ?_, ?_⟩
  · simpa only [drafts, count_split, Call.draft] using hallocated
  · intro n
    have hn := hplaced n
    simp only [hands, count_split, Call.hand, Option.toList_some, Option.toList_none,
      serials_cons, serials_nil, List.count_append, List.count_cons, List.count_nil] at hn ⊢
    omega
  · intro n
    have hn := hfreed n
    simp only [List.count_append, List.count_cons, List.count_nil] at hn ⊢
    omega
  · intro y hy
    refine (howned y ?_).free hx (serial_ne hy hothers)
    simp only [mem_live, drafts, hands, mem_split, Call.draft, Call.hand] at hy ⊢
    grind
  · intro y hy
    refine (hfilled y ?_).free hx (serial_ne (live_of_filled hy) hothers)
    simpa only [mem_filled, mem_split, Call.ready] using hy

end Calls

/-- A call in the list, and what the list is without it. -/
lemma call_split {calls : List Call} {i : Nat} {c : Call} (h : calls[i]? = some c) :
    ∃ before after, calls = before ++ c :: after ∧
      ∀ c', calls.set i c' = before ++ c' :: after := by
  obtain ⟨hi, rfl⟩ := List.getElem?_eq_some_iff.mp h
  refine ⟨calls.take i, calls.drop (i + 1), ?_, fun c' => ?_⟩
  · simp
  · rw [List.set_eq_take_append_cons_drop, if_pos hi]

/-- A step of a call that takes nothing and gives nothing away. -/
lemma call_same {s s' : Sys} {before after : List Call} {c c' : Call}
    (calls : s.calls = before ++ c :: after) (same : SameHoldings s { s' with calls := s.calls })
    (draft : c'.draft = c.draft) (ready : c'.ready = c.ready) (hand : c'.hand = c.hand) :
    SameHoldings s { s' with calls := before ++ c' :: after } where
  memory := same.memory
  allocated := same.allocated
  fifo := same.fifo
  drafts := by
    simp only [RpcQueue.drafts, calls, List.filterMap_append, List.filterMap_cons, draft]
  ready := by
    simp only [calls, List.filterMap_append, List.filterMap_cons, ready]
  hands := by
    simp only [RpcQueue.hands, calls, List.filterMap_append, List.filterMap_cons, hand]
  hand := same.hand
  spent := same.spent
  enqueued := same.enqueued
  written := same.written
  discarded := same.discarded
  freed := same.freed

lemma semGive_same (s : Sys) : SameHoldings s { semGive s with calls := s.calls } := by
  rw [semGive]
  split
  · rename_i hflush
    constructor <;> first | rfl | (rw [hflush]; rfl)
  · constructor <;> rfl

lemma semReset_same (s : Sys) : SameHoldings s { semReset s with calls := s.calls } := by
  rw [semReset]
  split
  · rename_i hflush
    constructor <;> first | rfl | (rw [hflush]; rfl)
  · constructor <;> rfl

theorem runCall_inv {s s' : Sys} (h : Inv s) {address : Option Nat} {before after : List Call}
    {c c' : Call} (calls : s.calls = before ++ c :: after)
    (run : runCall address s c = (s', c')) :
    Inv { s' with calls := before ++ c' :: after } := by
  have hself : SameHoldings s { s with calls := s.calls } := by constructor <;> rfl
  obtain ⟨memory, allocated, fifo, sem, calls', flush, enqueued, written, discarded, freed⟩ := s
  obtain rfl : calls' = before ++ c :: after := calls
  cases c with
  | enqueue r =>
    simp only [runCall] at run
    split at run
    · cases run
      exact h.same (call_same rfl hself rfl rfl rfl)
    · split at run
      · cases run
        exact h.same (call_same rfl hself rfl rfl rfl)
      · split at run
        · cases run
          exact h
        · rename_i hunused
          cases run
          exact alloc_inv (Option.not_isSome_iff_eq_none.mp hunused) h
  | filling x =>
    cases run
    exact store_inv h
  | putting x =>
    cases run
    exact put_inv h
  | giving =>
    cases run
    exact h.same (call_same rfl (semGive_same _) rfl rfl rfl)
  | reset =>
    cases fifo with
    | nil =>
      cases run
      exact h.same (call_same rfl hself rfl rfl rfl)
    | cons x rest =>
      cases run
      exact take_inv h
  | freeing x =>
    cases run
    exact discard_inv h
  | clearing =>
    cases run
    exact h.same (call_same rfl (semReset_same _) rfl rfl rfl)
  | returned result =>
    cases run
    exact h

lemma hand_writing (x : Item) : (Flush.writing x).hand = [x] := rfl

lemma spent_writing (x : Item) : (Flush.writing x).spent = [] := rfl

section Flushing

variable {memory : Memory Rsp} {allocated : Nat} {fifo : List Item} {sem : Bool}
  {calls : List Call} {enqueued : List (Nat × Rsp)} {written : List Written}
  {discarded freed : List Nat} {x : Item}

lemma get_inv
    (h : Inv ⟨memory, allocated, x :: fifo, sem, calls, .draining, enqueued, written, discarded,
      freed⟩) :
    Inv ⟨memory, allocated, fifo, sem, calls, .writing x, enqueued, written, discarded, freed⟩ := by
  obtain ⟨⟨hallocated, hplaced, hfreed⟩, horder, howned, hfilled⟩ := h
  refine ⟨⟨hallocated, ?_, hfreed⟩, horder, ?_, ?_⟩
  · intro n
    have hn := hplaced n
    simp only [hands, Flush.hand, serials_cons, serials_nil, List.count_cons,
      List.count_nil] at hn ⊢
    omega
  · intro y hy
    refine howned y ?_
    simp only [mem_live, drafts, hands, Flush.hand, Flush.spent, List.mem_cons] at hy ⊢
    grind
  · intro y hy
    refine hfilled y ?_
    simp only [mem_filled, Flush.hand, List.mem_cons] at hy ⊢
    grind

/-- What is written is what the enqueue was given. -/
lemma write_inv {next : Flush} (hand : next.hand = []) (spent : next.spent = [x]) (ok : Bool)
    (h : Inv ⟨memory, allocated, fifo, sem, calls, .writing x, enqueued, written, discarded,
      freed⟩) :
    Inv ⟨memory, allocated, fifo, sem, calls, next, enqueued,
      written ++ [⟨x.ptr.serial, (Heap.load memory x.ptr).getD ⟨[], []⟩, ok⟩], discarded,
      freed⟩ := by
  obtain ⟨⟨hallocated, hplaced, hfreed⟩, horder, howned, hfilled⟩ := h
  have hload : (Heap.load memory x.ptr).getD ⟨[], []⟩ = x.rsp := by
    rw [(hfilled x (by simp [hand_writing])).load_eq]
    rfl
  rw [hload]
  refine ⟨⟨hallocated, ?_, ?_⟩, ?_, ?_, ?_⟩
  · intro n
    have hn := hplaced n
    simp only [hands, hand, hand_writing, serials_cons, serials_nil, List.map_append, List.map_cons,
      List.map_nil, List.count_append, List.count_cons, List.count_nil] at hn ⊢
    omega
  · intro n
    have hn := hfreed n
    simp only [spent, spent_writing, serials_cons, serials_nil, List.map_append, List.map_cons,
      List.map_nil, List.count_append, List.count_cons, List.count_nil] at hn ⊢
    omega
  · simpa [hand, hand_writing, Item.tag, Written.tag] using horder
  · intro y hy
    refine howned y ?_
    simp only [mem_live, drafts, hands, hand, spent, hand_writing, spent_writing] at hy ⊢
    grind
  · intro y hy
    refine hfilled y ?_
    simp only [mem_filled, hand, hand_writing] at hy ⊢
    grind

lemma free_inv
    (h : Inv ⟨memory, allocated, fifo, sem, calls, .freeing x, enqueued, written, discarded,
      freed⟩) :
    Inv ⟨Heap.free memory x.ptr, allocated, fifo, sem, calls, .draining, enqueued, written,
      discarded, freed ++ [x.ptr.serial]⟩ := by
  have honce := h.ledger.live_once x.ptr.serial
  obtain ⟨⟨hallocated, hplaced, hfreed⟩, horder, howned, hfilled⟩ := h
  have hx : Owns memory x.ptr := howned x (by simp [live, Flush.spent])
  have hothers : (serials (live ⟨memory, allocated, fifo, sem, calls, .draining, enqueued, written,
      discarded, freed⟩)).count x.ptr.serial = 0 := by
    simp only [live, drafts, hands, Flush.hand, Flush.spent, serials_append, serials_cons,
      serials_nil, List.count_append, List.count_cons_self, List.count_nil] at honce ⊢
    omega
  refine ⟨⟨hallocated, hplaced, ?_⟩, horder, ?_, ?_⟩
  · intro n
    have hn := hfreed n
    simp only [Flush.spent, serials_cons, serials_nil, List.count_append, List.count_cons,
      List.count_nil] at hn ⊢
    omega
  · intro y hy
    refine (howned y ?_).free hx (serial_ne hy hothers)
    simp only [mem_live, drafts, hands, Flush.hand, Flush.spent] at hy ⊢
    grind
  · intro y hy
    exact (hfilled y hy).free hx (serial_ne (live_of_filled hy) hothers)

end Flushing

lemma flush_same {s : Sys} {next : Flush} (sem : Bool) (hand : next.hand = s.flush.hand)
    (spent : next.spent = s.flush.spent) :
    SameHoldings s { s with flush := next, sem := sem } := by
  constructor <;> first | rfl | assumption

theorem proceed_inv {s : Sys} (h : Inv s) (ok : Bool) : Inv (proceed ok s) := by
  obtain ⟨memory, allocated, fifo, sem, calls, flush, enqueued, written, discarded, freed⟩ := s
  cases flush with
  | idle => exact h
  | checking =>
    refine h.same (flush_same sem ?_ ?_)
    · dsimp only
      split <;> rfl
    · dsimp only
      split <;> rfl
  | taking =>
    cases sem with
    | true | false => exact h.same (flush_same false rfl rfl)
  | waiting => exact h
  | draining =>
    cases fifo with
    | nil => exact h.same (flush_same sem rfl rfl)
    | cons x rest => exact get_inv h
  | writing x =>
    cases ok with
    | true => exact write_inv rfl rfl true h
    | false => exact write_inv rfl rfl false h
  | logging x => exact h.same (flush_same sem rfl rfl)
  | freeing x => exact free_inv h

lemma start_inv : Inv start := by
  refine ⟨⟨fun n => by simp [start, drafts], fun n => by simp [start, hands, Flush.hand],
    fun n => by simp [start, Flush.spent]⟩, List.Sublist.refl _, ?_, ?_⟩
  · intro x hx
    simp [start, live, drafts, hands, Flush.hand, Flush.spent] at hx
  · intro x hx
    simp [start, Flush.hand] at hx

lemma new_call_same (s : Sys) {c : Call} (draft : c.draft = none) (ready : c.ready = none)
    (hand : c.hand = none) : SameHoldings s { s with calls := s.calls ++ [c] } := by
  constructor <;> first | rfl | simp [drafts, hands, draft, ready, hand]

theorem step_inv (s : Sys) (e : Ev) (h : Inv s) : Inv (step s e) := by
  cases e with
  | enqueue | reset => exact h.same (new_call_same s rfl rfl rfl)
  | run i address =>
    rw [step]
    split
    · rename_i c hc
      obtain ⟨before, after, hcalls, hset⟩ := call_split hc
      cases hrun : runCall address s c with
      | mk s' c' =>
        dsimp only
        rw [hset]
        exact runCall_inv h hcalls hrun
    · exact h
  | flush =>
    rw [step]
    split
    · rename_i hflush
      exact h.same (flush_same s.sem (by rw [hflush]; rfl) (by rw [hflush]; rfl))
    · exact h
  | proceed ok => exact proceed_inv h ok
  | timeout =>
    rw [step]
    split
    · rename_i hflush
      exact h.same (flush_same s.sem (by rw [hflush]; rfl) (by rw [hflush]; rfl))
    · exact h

/-- The allocations of the entries that the uplink took, and of those that it refused. -/
def delivered (s : Sys) : List Nat := (s.written.filter fun w => w.ok).map Written.serial

@[inherit_doc delivered]
def dropped (s : Sys) : List Nat := (s.written.filter fun w => !w.ok).map Written.serial

/-- The entries passed to the uplink are a subsequence of the responses that were enqueued, in
the order of the queue; no allocation was enqueued or freed twice; and every response that was
enqueued is in the queue, in the hands of a reset or of the flush, delivered, dropped or
discarded, in one of these places and once. -/
structure Conserved (s : Sys) : Prop where
  order : (s.written.map Written.tag).Sublist s.enqueued
  distinct : (s.enqueued.map Prod.fst).Nodup
  freed : s.freed.Nodup
  once : ∀ n ∈ s.enqueued.map Prod.fst,
    (serials s.fifo).count n + (serials (hands s)).count n + (serials s.flush.hand).count n +
      (delivered s).count n + (dropped s).count n + s.discarded.count n = 1

lemma written_count (s : Sys) (n : Nat) :
    (s.written.map Written.serial).count n = (delivered s).count n + (dropped s).count n := by
  rw [delivered, dropped]
  induction s.written with
  | nil => rfl
  | cons w ws ih =>
    cases hok : w.ok with
    | true => simp [hok, List.count_cons, ih, Nat.add_right_comm]
    | false => simp [hok, List.count_cons, ih, Nat.add_assoc]

lemma Inv.conserved {s : Sys} (h : Inv s) : Conserved s := by
  have hbound : ∀ n, (s.enqueued.map Prod.fst).count n ≤ 1 := by
    intro n
    have hallocated := h.ledger.allocated n
    split at hallocated <;> omega
  constructor
  · exact (List.sublist_append_left _ _).trans h.order
  · exact List.nodup_iff_count_le_one.mpr hbound
  · rw [List.nodup_iff_count_le_one]
    intro n
    have honce := h.ledger.live_once n
    omega
  · intro n hn
    have hpos := List.count_pos_iff.mpr hn
    have hle := hbound n
    have hplaced := h.ledger.placed n
    rw [written_count] at hplaced
    omega

/-- The block is in use, and was not freed. -/
def Usable (s : Sys) (x : Item) : Prop := Owns s.memory x.ptr ∧ x.ptr.serial ∉ s.freed

lemma Inv.usable {s : Sys} (h : Inv s) {x : Item} (hx : x ∈ live s) : Usable s x := by
  refine ⟨h.owned x hx, fun hfreed => ?_⟩
  have honce := h.ledger.live_once x.ptr.serial
  have hlive : 0 < (serials (live s)).count x.ptr.serial :=
    List.count_pos_iff.mpr (List.mem_map_of_mem hx)
  have hpos := List.count_pos_iff.mpr hfreed
  omega

/-- Every step uses blocks that are held. -/
lemma touches_live (s : Sys) (e : Ev) : ∀ x ∈ touches s e, x ∈ live s := by
  intro x hx
  cases e with
  | run i address =>
    obtain ⟨c, hc, hx⟩ := List.mem_flatMap.mp hx
    have hmem : c ∈ s.calls := List.mem_of_getElem? (Option.mem_toList.mp hc)
    have hdraft : c.draft = some x → x ∈ drafts s := fun h =>
      List.mem_filterMap.mpr ⟨c, hmem, h⟩
    have hhand : c.hand = some x → x ∈ hands s := fun h => List.mem_filterMap.mpr ⟨c, hmem, h⟩
    simp only [live, List.mem_append]
    cases c with
    | filling y =>
      obtain rfl := List.mem_singleton.mp hx
      exact .inl (.inl (.inl (.inl (hdraft rfl))))
    | putting y =>
      rcases List.mem_cons.mp hx with rfl | hlast
      · exact .inl (.inl (.inl (.inl (hdraft rfl))))
      · exact .inl (.inl (.inl (.inr (List.mem_of_getLast? (Option.mem_toList.mp hlast)))))
    | reset => exact .inl (.inl (.inl (.inr (List.mem_of_head? (Option.mem_toList.mp hx)))))
    | freeing y =>
      obtain rfl := List.mem_singleton.mp hx
      exact .inl (.inl (.inr (hhand rfl)))
    | _ => cases hx
  | proceed ok =>
    simp only [touches] at hx
    simp only [live, List.mem_append]
    cases hflush : s.flush with
    | draining =>
      rw [hflush] at hx
      exact .inl (.inl (.inl (.inr (List.mem_of_head? (Option.mem_toList.mp hx)))))
    | writing y =>
      rw [hflush] at hx
      exact .inl (.inr hx)
    | logging | freeing =>
      rw [hflush] at hx
      exact .inr hx
    | _ =>
      rw [hflush] at hx
      cases hx
  | _ => cases hx

/-- In every interleaving of the flush with calls that enqueue and that reset, responses are
kept, and every step uses blocks only that are in use and that were not freed. -/
theorem responses_conserved (es : List Ev) :
    Always step Conserved start es ∧
    Each step (fun s e => ∀ x ∈ touches s e, Usable s x) start es := by
  constructor
  · exact (always_of_steps step_inv start_inv es).mono fun _ h => h.conserved
  · exact each_of_each (C := fun _ _ => True) (fun s e h _ => step_inv s e h)
      (fun s e h _ x hx => h.usable (touches_live s e x hx)) start_inv
      (each_of_forall (fun _ _ => trivial) start es)

/-- The queue of the device. -/
def view (s : Sys) : Device.Rpc := ⟨s.fifo.map Item.rsp, s.sem, s.enqueued.map Prod.snd⟩

lemma semGive_eq {s : Sys} (other : s.flush ≠ .waiting) : semGive s = { s with sem := true } := by
  rw [semGive]
  split
  · contradiction
  · rfl

lemma semReset_eq {s : Sys} (other : s.flush ≠ .waiting) :
    semReset s = { s with sem := false } := by
  rw [semReset]
  split
  · contradiction
  · rfl

/-- The steps of an enqueue, from its call on. -/
def enqueueRun (s : Sys) (r : Rsp) (a : Nat) : List Ev :=
  .enqueue r :: List.replicate 4 (.run s.calls.length (some a))

/-- The steps of a reset: two for each response, one for the empty queue and one for the
semaphore. -/
def resetRun (s : Sys) : List Ev :=
  .reset :: List.replicate (2 * s.fifo.length + 2) (.run s.calls.length none)

/-- An enqueue that gets memory, and that nothing interrupts, is that of the device. -/
theorem enqueue_uninterrupted (s : Sys) (r : Rsp) {a : Nat} (unused : s.memory a = none)
    (other : s.flush ≠ .waiting) :
    view ((enqueueRun s r a).foldl step s) = (Device.rpcEnqueue true r (view s)).2 := by
  have hunused : (s.memory a).isSome = false := by rw [unused]; rfl
  by_cases hlong : r.msg.length > msgMax
  · simp [enqueueRun, List.replicate, step, runCall, Device.rpcEnqueue, hlong, view]
  · simp [enqueueRun, List.replicate, step, runCall, Device.rpcEnqueue, hlong, hunused, semGive_eq,
      other, view, Item.tag]

/-- A reset that nothing interrupts is that of the device. -/
theorem reset_uninterrupted (s : Sys) (other : s.flush ≠ .waiting) :
    view ((resetRun s).foldl step s) = Device.rpcReset (view s) := by
  have hloop : ∀ (fifo : List Item) (t : Sys), t.fifo = fifo → t.flush ≠ .waiting →
      view ((List.replicate (2 * fifo.length + 2) (Ev.run s.calls.length none)).foldl step
        { t with calls := s.calls ++ [.reset] }) = Device.rpcReset (view t) := by
    intro fifo
    induction fifo with
    | nil =>
      intro t hfifo hflush
      simp [List.replicate, step, runCall, hfifo, semReset_eq, hflush, view, Device.rpcReset]
    | cons x rest ih =>
      intro t hfifo hflush
      let t' : Sys := { t with
        memory := Heap.free t.memory x.ptr
        fifo := rest
        discarded := t.discarded ++ [x.ptr.serial]
        freed := t.freed ++ [x.ptr.serial] }
      have htwo : step (step { t with calls := s.calls ++ [.reset] } (.run s.calls.length none))
          (.run s.calls.length none) = { t' with calls := s.calls ++ [.reset] } := by
        simp [step, runCall, hfifo, t']
      have hcount : 2 * (x :: rest).length + 2 = 2 * rest.length + 2 + 1 + 1 := by
        rw [List.length_cons]
        omega
      rw [hcount, List.replicate_succ, List.replicate_succ, List.foldl_cons, List.foldl_cons, htwo,
        ih t' rfl hflush]
      rfl
  exact hloop s.fifo s rfl other

end RpcQueue
