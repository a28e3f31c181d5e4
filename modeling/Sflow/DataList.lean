import Sflow.C.Buffer

/-!
# Counted lists

`sflow_data_list.c`: a list that carries its number of nodes and the sum of
their sizes next to it.  A list made by appending and reading is well formed:
its count is its length, so the loops that empty it stop where they should and
`sflow_data_list_free` finds nothing left.

The count is a `Nat`.  In the code it is a `uint32_t` that a loop bound copies
into an `int`; the one list that grows without a fixed bound is the buffer of the
sender, and `Sender.Mtu` shows how few samples that one holds.
-/

namespace Sflow

open C

variable {α : Type}

/-- The size of a node whose data knows its own size. -/
def checkData : Int := -1

structure SflowDataListNode (α : Type) where
  sdlnData : α
  sdlnDataSize : Int
deriving DecidableEq, Repr

structure SflowDataList (α : Type) where
  sdlCount : Nat
  sdlDataSize : Int
  sdlList : List (SflowDataListNode α)
deriving DecidableEq, Repr

def sflowDataListNodeCreate (data : α) (size : Int) : SflowDataListNode α := ⟨data, size⟩

def sflowDataListCreate : SflowDataList α := ⟨0, 0, []⟩

/-- Frees an empty list. -/
def sflowDataListFree (list : SflowDataList α) : Except Fault Unit :=
  if list.sdlCount = 0 then .ok () else .error .assertFailed

def sflowDataListAppend (list : SflowDataList α) (node : SflowDataListNode α) :
    SflowDataList α where
  sdlCount := list.sdlCount + 1
  sdlDataSize :=
    if node.sdlnDataSize = checkData then checkData else list.sdlDataSize + node.sdlnDataSize
  sdlList := list.sdlList ++ [node]

def sflowDataListRead (list : SflowDataList α) :
    Except Fault (SflowDataListNode α × SflowDataList α) :=
  if 0 < list.sdlCount then
    match list.sdlList with
    | [] => .error .nullDeref
    | node :: rest => .ok (node,
        { sdlCount := list.sdlCount - 1
          sdlDataSize :=
            if list.sdlDataSize = checkData then list.sdlDataSize
            else list.sdlDataSize - node.sdlnDataSize
          sdlList := rest })
  else .error .assertFailed

/-- `for (i = 0; i < to; i++)`: read a node and keep its data, `to` times. -/
def drain : Nat → SflowDataList α → Except Fault (List α × SflowDataList α)
  | 0, list => .ok ([], list)
  | n + 1, list => do
      let (node, list) ← sflowDataListRead list
      let (rest, list) ← drain n list
      return (node.sdlnData :: rest, list)

/-- `for (i = 0; i < list->sdl_count; i++)`: the same loop against the count
that it lowers.  The fuel bounds the rounds left; `sdlCount` of it is enough. -/
def drainLive : Nat → Nat → SflowDataList α → Except Fault (List α × SflowDataList α)
  | 0, _, list => .ok ([], list)
  | fuel + 1, i, list =>
      if i < list.sdlCount then do
        let (node, list) ← sflowDataListRead list
        let (rest, list) ← drainLive fuel (i + 1) list
        return (node.sdlnData :: rest, list)
      else .ok ([], list)

namespace SflowDataList

/-- The data of a list in order. -/
def data (list : SflowDataList α) : List α := list.sdlList.map (·.sdlnData)

/-- The count is the number of nodes. -/
def WellFormed (list : SflowDataList α) : Prop := list.sdlCount = list.sdlList.length

/-- The list that holds `xs`, all their sizes left to the data. -/
def ofRecords (xs : List α) : SflowDataList α :=
  xs.foldl (fun list x => sflowDataListAppend list (sflowDataListNodeCreate x checkData))
    sflowDataListCreate

@[simp] theorem data_create : (sflowDataListCreate : SflowDataList α).data = [] := rfl

theorem wellFormed_create : (sflowDataListCreate : SflowDataList α).WellFormed := rfl

@[simp] theorem data_append (list : SflowDataList α) (node : SflowDataListNode α) :
    (sflowDataListAppend list node).data = list.data ++ [node.sdlnData] := by
  simp [data, sflowDataListAppend]

theorem WellFormed.append {list : SflowDataList α} (h : list.WellFormed)
    (node : SflowDataListNode α) : (sflowDataListAppend list node).WellFormed := by
  simp only [WellFormed, sflowDataListAppend, List.length_append, List.length_singleton] at h ⊢
  rw [h]

theorem WellFormed.count_eq {list : SflowDataList α} (h : list.WellFormed) :
    list.sdlCount = list.data.length := by
  rw [h, data, List.length_map]

/-- Draining a well-formed list by its own count gives its data and empties it. -/
theorem WellFormed.drain {list : SflowDataList α} (h : list.WellFormed) :
    ∃ size, drain list.sdlCount list = .ok (list.data, ⟨0, size, []⟩) := by
  obtain ⟨count, size, nodes⟩ := list
  obtain rfl : count = nodes.length := h
  induction nodes generalizing size with
  | nil => exact ⟨size, rfl⟩
  | cons node nodes ih =>
      obtain ⟨size', hrest⟩ :=
        ih (if size = checkData then size else size - node.sdlnDataSize)
      refine ⟨size', ?_⟩
      simp only [List.length_cons, Sflow.drain, sflowDataListRead, Nat.succ_pos, if_pos,
        ok_bind, Nat.add_sub_cancel, hrest, pure_eq_ok, data, List.map_cons]

theorem wellFormed_ofRecords (xs : List α) : (ofRecords xs).WellFormed := by
  have key : ∀ (xs : List α) (list : SflowDataList α), list.WellFormed →
      (xs.foldl (fun list x => sflowDataListAppend list (sflowDataListNodeCreate x checkData))
        list).WellFormed := by
    intro xs
    induction xs with
    | nil => exact fun _ h ↦ h
    | cons x xs ih => exact fun list h ↦ ih _ (h.append _)
  exact key xs _ wellFormed_create

@[simp] theorem data_ofRecords (xs : List α) : (ofRecords xs).data = xs := by
  have key : ∀ (xs : List α) (list : SflowDataList α),
      (xs.foldl (fun list x => sflowDataListAppend list (sflowDataListNodeCreate x checkData))
        list).data = list.data ++ xs := by
    intro xs
    induction xs with
    | nil => simp
    | cons x xs ih =>
        intro list
        rw [List.foldl_cons, ih, data_append, List.append_assoc]
        rfl
  simpa [ofRecords] using key xs sflowDataListCreate

end SflowDataList

end Sflow
