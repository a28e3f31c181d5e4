import Mathlib.Data.List.Nodup

/-!
# Linked lists

The doubly linked lists of `sys/list.h`, whose nodes are objects with an identity: a
list is its nodes in order, no node twice.  `list_next` looks for what is behind a
node, and `list_remove` takes a node out and leaves the others in place.
-/

namespace Sflow.C

variable {α : Type*}

/-- A list of distinct nodes. -/
structure LinkedList (α : Type*) where
  nodes : List α
  nodup : nodes.Nodup

namespace LinkedList

/-- `list_head`. -/
def head (l : LinkedList α) : Option α := l.nodes.head?

/-- The nodes that meet a condition. -/
def filter (p : α → Bool) (l : LinkedList α) : LinkedList α :=
  ⟨l.nodes.filter p, l.nodup.filter p⟩

/-- A list is its nodes. -/
@[ext] theorem ext {l l' : LinkedList α} (h : l.nodes = l'.nodes) : l = l' := by
  cases l
  cases l'
  cases h
  rfl

/-- `list_insert_tail`, of a node that is in no list. -/
def insertTail (l : LinkedList α) (a : α) (h : a ∉ l.nodes) : LinkedList α where
  nodes := l.nodes ++ [a]
  nodup := l.nodup.append (List.nodup_singleton a) (List.disjoint_singleton.mpr h)

variable [DecidableEq α]

/-- What is behind `a` in a list of nodes. -/
def nextIn (a : α) : List α → Option α
  | [] => none
  | b :: rest => if b = a then rest.head? else nextIn a rest

/-- `list_next`. -/
def next (l : LinkedList α) (a : α) : Option α := nextIn a l.nodes

/-- `list_remove`. -/
def remove (l : LinkedList α) (a : α) : LinkedList α := ⟨l.nodes.erase a, l.nodup.erase a⟩

/-- Behind the last of some nodes is the first of the rest. -/
theorem nextIn_append {pre rest : List α} {a : α} (h : (pre ++ rest).Nodup)
    (ha : pre.getLast? = some a) : nextIn a (pre ++ rest) = rest.head? := by
  induction pre with
  | nil => cases ha
  | cons b pre ih =>
      rw [List.cons_append, List.nodup_cons] at h
      rw [List.cons_append, nextIn]
      cases hpre : pre with
      | nil =>
          rw [hpre, List.getLast?_singleton, Option.some.injEq] at ha
          rw [if_pos ha, List.nil_append]
      | cons c cs =>
          have hlast : pre.getLast? = some a := by
            rw [hpre, List.getLast?_cons_cons, ← hpre] at ha
            exact ha
          have hmem : a ∈ pre := List.mem_of_getLast? hlast
          have hne : b ≠ a := by
            intro heq
            exact h.1 (List.mem_append_left rest (heq ▸ hmem))
          rw [if_neg hne, ← hpre]
          exact ih h.2 hlast

/-- The node that a walk looks at next: the first, or the one behind the last that it kept. -/
def cursor (l : LinkedList α) : Option α → Option α
  | none => l.head
  | some pre => l.next pre

theorem mem_of_nextIn {a b : α} {nodes : List α} (h : nextIn a nodes = some b) : b ∈ nodes := by
  induction nodes with
  | nil => cases h
  | cons c rest ih =>
      rw [nextIn] at h
      split at h
      · exact List.mem_cons_of_mem c (List.mem_of_head? h)
      · exact List.mem_cons_of_mem c (ih h)

/-- Only behind a node of a list is there another. -/
theorem mem_of_nextIn_self {a b : α} {nodes : List α} (h : nextIn a nodes = some b) :
    a ∈ nodes := by
  induction nodes with
  | nil => cases h
  | cons c rest ih =>
      rw [nextIn] at h
      split at h
      case isTrue hc =>
        rw [hc]
        exact List.mem_cons_self
      case isFalse => exact List.mem_cons_of_mem c (ih h)

theorem ne_of_nextIn {a b : α} {nodes : List α} (hnodup : nodes.Nodup)
    (h : nextIn a nodes = some b) : b ≠ a := by
  induction nodes with
  | nil => cases h
  | cons c rest ih =>
      rw [List.nodup_cons] at hnodup
      rw [nextIn] at h
      split at h
      case isTrue hc =>
        rintro rfl
        exact hnodup.1 (hc ▸ List.mem_of_head? h)
      case isFalse => exact ih hnodup.2 h

theorem mem_of_cursor {l : LinkedList α} {pre : Option α} {a : α} (h : l.cursor pre = some a) :
    a ∈ l.nodes := by
  cases pre with
  | none => exact List.mem_of_head? h
  | some b => exact mem_of_nextIn h

/-- A walk looks at no node twice in a row. -/
theorem ne_of_cursor {l : LinkedList α} {pre : Option α} {a : α} (h : l.cursor pre = some a) :
    pre ≠ some a := by
  rintro rfl
  exact ne_of_nextIn l.nodup h rfl

/-- A walk that has kept `kept` goes on with the rest. -/
theorem cursor_eq {l : LinkedList α} {kept rest : List α} (h : l.nodes = kept ++ rest) :
    l.cursor kept.getLast? = rest.head? := by
  cases hlast : kept.getLast? with
  | none =>
      rw [List.getLast?_eq_none_iff] at hlast
      rw [cursor, head, h, hlast, List.nil_append]
  | some pre =>
      have hnodup := l.nodup
      rw [h] at hnodup
      rw [cursor, next, h, nextIn_append hnodup hlast]

/-- Taking out the node behind what a walk has kept. -/
theorem nodes_remove {l : LinkedList α} {kept rest : List α} {a : α}
    (h : l.nodes = kept ++ a :: rest) : (l.remove a).nodes = kept ++ rest := by
  have hnodup := l.nodup
  rw [h] at hnodup
  have hnot : a ∉ kept := by
    intro ha
    exact (List.nodup_append.mp hnodup).2.2 a ha a List.mem_cons_self rfl
  change l.nodes.erase a = kept ++ rest
  rw [h, List.erase_append_right _ hnot, List.erase_cons_head]

end LinkedList

end Sflow.C
