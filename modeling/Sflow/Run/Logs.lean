import Mathlib.Data.List.Basic

/-!
# Queues and streams

Items wait in a queue and leave it all at once, as a batch.  The log of such an
outbox is what has left followed by what waits; pushing an item adds it to the
log and a flush leaves the log as it is, so no item is lost, repeated or
overtaken.

A log into which several producers put theirs holds a stream for each of them.  It
grows when that producer puts an item into the log, and only then, and its items may
carry numbers, one after the other.
-/

namespace Sflow.Run

variable {α β ι : Type*}

/-! ## Batched queues -/

/-- A queue, and the batches that have left it. -/
structure Outbox (α : Type*) where
  batches : List (List α)
  queue : List α

namespace Outbox

/-- All items in the order of their arrival. -/
def log (o : Outbox α) : List α := o.batches.flatten ++ o.queue

def push (o : Outbox α) (x : α) : Outbox α := ⟨o.batches, o.queue ++ [x]⟩

def flush (o : Outbox α) : Outbox α := ⟨o.batches ++ [o.queue], []⟩

@[simp] theorem log_push (o : Outbox α) (x : α) : (o.push x).log = o.log ++ [x] := by
  simp [log, push]

@[simp] theorem log_flush (o : Outbox α) : o.flush.log = o.log := by
  simp [log, flush]

/-- What can happen to an outbox, with the items that arrive. -/
inductive Step : Outbox α → List α → Outbox α → Prop
  | stay {o} : Step o [] o
  | push {o x} : Step o [x] (o.push x)
  | flush {o} : Step o [] o.flush

/-- The log grows by what arrives, and in no other way. -/
theorem Step.log_eq {o o' : Outbox α} {xs : List α} (h : Step o xs o') : o'.log = o.log ++ xs := by
  cases h with
  | stay => rw [List.append_nil]
  | push => exact log_push _ _
  | flush => rw [log_flush, List.append_nil]

end Outbox

/-! ## Numbered streams -/

/-- The items carry the numbers `nth 0`, `nth 1` and so on. -/
def Numbered (num : α → β) (nth : Nat → β) (xs : List α) : Prop :=
  xs.map num = (List.range xs.length).map nth

section Numbered

variable {num : α → β} {nth : Nat → β} {xs ys : List α} {x : α}

theorem numbered_nil (num : α → β) (nth : Nat → β) : Numbered num nth [] := rfl

/-- An item goes on where the stream stopped. -/
theorem Numbered.concat (h : Numbered num nth xs) (hx : num x = nth xs.length) :
    Numbered num nth (xs ++ [x]) := by
  rw [Numbered, List.map_append, h, List.length_append, List.length_singleton,
    List.range_succ, List.map_append, List.map_singleton, List.map_singleton, hx]

/-- What has come so far is numbered by itself. -/
theorem Numbered.of_append (h : Numbered num nth (xs ++ ys)) : Numbered num nth xs := by
  have htake := congrArg (List.take xs.length) h
  rw [List.map_append, List.take_left' (List.length_map _), ← List.map_take,
    List.take_range, List.length_append, Nat.min_eq_left (Nat.le_add_right _ _)] at htake
  exact htake

end Numbered

/-- What one producer has put into the log. -/
def itemsOf [DecidableEq ι] (i : ι) (log : List (ι × α)) : List α :=
  (log.filter fun entry => entry.1 = i).map (·.2)

section ItemsOf

variable [DecidableEq ι] {i j : ι} {x : α} (log : List (ι × α))

@[simp] theorem itemsOf_concat_self : itemsOf i (log ++ [(i, x)]) = itemsOf i log ++ [x] := by
  simp [itemsOf]

theorem itemsOf_concat_of_ne (h : j ≠ i) : itemsOf i (log ++ [(j, x)]) = itemsOf i log := by
  simp [itemsOf, h]

end ItemsOf

end Sflow.Run
