import Cuberef.InventoryManager.Atomicity

/-!
# Inventory views

`InventoryView` of `game_state/inventory.rs`: a grid the user takes stacks from and puts stacks
into, backed by slots the view holds itself (`Transient`), by a stored inventory (`Stored`), or by
callbacks (`VirtualOutput`, `VirtualInput`, every operation of which is `todo!()`).

## How views are modelled

* A view is its own value; an operation on `&mut self` returns the view it leaves. The store is the
  state of the inventory manager, which a stored view goes through (`mutate_inventory_atomically`).
  A view id comes from a global counter and is passed in; the `game_state` handle is the manager
  state itself; the callbacks of the virtual backings are never called and are left out.
* Both stored operations hand `mutate_inventory_atomically` a closure that applies one
  `MaybeStack` operation to one slot (`onSlot`): `take_items` for `take`, `try_merge` for `put`.
* The items of a view (`viewCount`) are those of its slots, as `peek` shows them
  (`peek_count`): the borrowed stacks of a transient view, the decoded slots of a stored one.

## Main results

* `takeItems_count`, `tryMerge_count`: the two `MaybeStack` operations conserve every item name.
* `take_conserves_items`: a `take` that returns conserves the items of the view plus what it
  returned, for both backings; `put_conserves_items_of_stored` likewise for a stored `put`.
* `transient_put_drops_merged_items`: a transient `put` into an occupied slot merges into a clone
  of the slot's stack and drops it, so the merged units vanish.
* `drop_leaves_borrowed_stacks`: dropping a transient view returns nothing to the inventories its
  stacks were borrowed from; `clear` only logs.
-/

namespace Cuberef

/-- `BorrowedStack`: a stack, and the slot of a real inventory (key, offset) it was taken from,
if any. -/
structure BorrowedStack where
  borrowsFrom : Option (InventoryKey × Nat)
  borrowedStack : ItemStack
deriving DecidableEq

/-- `ViewBacking`: where the items of a view come from. The callbacks of the virtual backings are
left out: no modelled operation calls them. -/
inductive ViewBacking
  /-- Slots the view holds itself, each an optional borrowed stack. -/
  | transient (contents : List (Option BorrowedStack))
  | virtualOutput
  | virtualInput
  /-- The inventory stored under this key. -/
  | stored (key : InventoryKey)
deriving DecidableEq

/-- `InventoryView`: its `(rows, cols)`, the two permission flags, its backing, and its id. -/
structure InventoryView where
  dimensions : Nat × Nat
  canPlace : Bool
  canTake : Bool
  backing : ViewBacking
  id : Nat
deriving DecidableEq

/-- Items named `name` in an optional borrowed stack. -/
def heldCount (name : String) (b : Option BorrowedStack) : Nat :=
  slotCount name (b.map (·.borrowedStack))

/-- The stacks of transient slots, as `peek` shows them. -/
def stacksOf (contents : List (Option BorrowedStack)) : List (Option ItemStack) :=
  contents.map fun x ↦ x.map (·.borrowedStack)

theorem stacksOf_set (contents : List (Option BorrowedStack)) (slot : Nat)
    (x : Option BorrowedStack) :
    stacksOf (contents.set slot x) = (stacksOf contents).set slot (x.map (·.borrowedStack)) :=
  List.map_set

theorem getElem?_stacksOf {contents : List (Option BorrowedStack)} {slot : Nat}
    {x : Option BorrowedStack} (h : contents[slot]? = some x) :
    (stacksOf contents)[slot]? = some (x.map (·.borrowedStack)) := by
  simp [stacksOf, h]

/-- Rewrapping stacks under one origin and unwrapping them again gives the stacks back. -/
@[simp] theorem map_borrowedStack_map (k : Option (InventoryKey × Nat)) (x : Option ItemStack) :
    (x.map fun s ↦ (⟨k, s⟩ : BorrowedStack)).map (·.borrowedStack) = x := by
  cases x <;> rfl

@[simp] theorem heldCount_map (name : String) (k : Option (InventoryKey × Nat))
    (x : Option ItemStack) : heldCount name (x.map fun s ↦ ⟨k, s⟩) = slotCount name x := by
  rw [heldCount, map_borrowedStack_map]

@[simp] theorem heldCount_none (name : String) : heldCount name none = 0 := rfl

/-! ### The stack operations conserve items -/

/-- Counting after replacing a slot that held `s`. -/
theorem itemCount_set_of_getElem? (name : String) {slots : List (Option ItemStack)} {i : Nat}
    {s : Option ItemStack} (h : slots[i]? = some s) (x : Option ItemStack) :
    itemCount name (slots.set i x) + slotCount name s = itemCount name slots + slotCount name x := by
  obtain ⟨hi, rfl⟩ := List.getElem?_eq_some_iff.mp h
  exact itemCount_set name slots hi x

namespace MaybeStack

/-- **`take_items` conserves items**: what the slot keeps and what it gives make up what it
held. -/
theorem takeItems_count (name : String) (s : Option ItemStack) (count : Option Nat) :
    slotCount name (takeItems s count).1 + slotCount name (takeItems s count).2 =
      slotCount name s := by
  cases count with
  | none => simp [slotCount]
  | some c =>
    cases s with
    | none => rfl
    | some s =>
      simp only [takeItems]
      split_ifs with hs hr
      · simp [slotCount]
      · by_cases hn : s.itemName = name
        · simp only [slotCount, hn, if_true]
          omega
        · simp [slotCount, hn]
      · simp [slotCount]

/-- **`try_merge` conserves items**: what the slot holds and the leftover make up what the slot
held and the incoming stack. -/
theorem tryMerge_count (name : String) (s : Option ItemStack) (o : ItemStack) :
    slotCount name (tryMerge s (some o)).1 + slotCount name (tryMerge s (some o)).2 =
      slotCount name s + slotCount name (some o) := by
  cases s with
  | none => simp [slotCount]
  | some t =>
    rw [tryMerge_some_some]
    by_cases hm : t.Mergeable o
    · have hle : t.moveSize o ≤ o.quantity := ItemStack.moveSize_le_quantity
      rw [ItemStack.tryMerge_of_mergeable hm]
      by_cases hn : t.itemName = name <;> split_ifs <;>
        simp only [slotCount, hn, ↓reduceIte, ← hm.2.2, add_zero] <;> omega
    · rw [ItemStack.tryMerge_of_not_mergeable hm]

end MaybeStack

namespace InventoryView

open InventoryManager

variable {α : Type}

/-- `InventoryView::new_stored`: the dimensions of the stored inventory, read once. -/
def newStored (inventoryKey : InventoryKey) (canPlace canTake : Bool) (id : Nat) :
    EStateM Error InventoryManager InventoryView := do
  match ← InventoryManager.get inventoryKey with
  | some inventory => pure ⟨inventory.dimensions, canPlace, canTake, .stored inventoryKey, id⟩
  | none => throw (.inventoryNotFound inventoryKey.id.bytes)

/-- `InventoryView::new_transient`: empty initial contents are resized to the grid; the contents
must fill the grid. -/
def newTransient (dimensions : Nat × Nat) (initialContents : List (Option BorrowedStack))
    (canPlace canTake : Bool) (id : Nat) : Except Error InventoryView :=
  let initialContents :=
    if initialContents.length = 0 then List.replicate (dimensions.1 * dimensions.2) none
    else initialContents
  if dimensions.1 * dimensions.2 = initialContents.length then
    .ok ⟨dimensions, canPlace, canTake, .transient initialContents, id⟩
  else
    .error (.msg
      "Condition failed: `dimensions.0 as usize * dimensions.1 as usize == initial_contents.len()`")

/-- `InventoryView::clear`, called by `Drop`: for a transient view it logs
`"TODO drop transient"`; nothing is returned anywhere and nothing is written. -/
def clear (_self : InventoryView) : EStateM Error InventoryManager Unit := pure ()

/-- `Drop for InventoryView`. -/
def drop (self : InventoryView) : EStateM Error InventoryManager Unit := self.clear

/-- `peek`: the slots the view shows. -/
def peek (self : InventoryView) : EStateM Error InventoryManager (List (Option ItemStack)) :=
  match self.backing with
  | .transient contents => pure (stacksOf contents)
  | .virtualOutput => throw (.panic "not yet implemented")
  | .virtualInput => throw (.panic "not yet implemented")
  | .stored key => do
    match ← InventoryManager.get key with
    | some inv => pure inv.contents
    | none => throw (.inventoryInViewNotFound key.id.bytes self.id)

/-- The closure a stored view hands `mutate_inventory_atomically`: `f` on slot `slot`
(`get_mut(slot).unwrap()`, a panic past the end), returning what `f` returns. -/
def onSlot (slot : Nat) (f : Option ItemStack → Option ItemStack × α) : Mutator α := fun inv ↦
  match inv.contents[slot]? with
  | some s => some ({ inv with contents := inv.contents.set slot (f s).1 }, .ok (f s).2)
  | none => none

/-- The `ensure!` both operations start with. -/
def checkSlot (self : InventoryView) (slot : Nat) : EStateM Error InventoryManager Unit :=
  if slot < self.dimensions.1 * self.dimensions.2 then pure ()
  else throw (.msg
    "Condition failed: `slot < (self.dimensions.0 as usize * self.dimensions.1 as usize)`")

/-- **`take`.** A transient slot gives `take_items` of its stack, keeping its origin, and empties
when nothing is left; a stored slot goes through `take_items` under the manager, and what it gives
is borrowed from that slot. -/
def take (self : InventoryView) (slot : Nat) (count : Option Nat) :
    EStateM Error InventoryManager (InventoryView × Option BorrowedStack) := do
  self.checkSlot slot
  match self.backing with
  | .transient contents =>
    match contents[slot]? with
    | none => throw (.panic unwrapNone)
    | some none => pure (self, none)
    | some (some b) =>
      let (inner, obtained) := MaybeStack.takeItems (some b.borrowedStack) count
      pure ({ self with
              backing := .transient
                (contents.set slot (inner.map fun inner ↦ { b with borrowedStack := inner })) },
        obtained.map fun obtained ↦ ⟨b.borrowsFrom, obtained⟩)
  | .virtualOutput => throw (.panic "not yet implemented")
  | .virtualInput => throw (.panic "not yet implemented")
  | .stored key => do
    let obtained ← mutateInventoryAtomically key (onSlot slot (MaybeStack.takeItems · count))
    pure (self, obtained.map fun obtained ↦ ⟨some (key, slot), obtained⟩)

/-- **`put`.** An empty transient slot takes the stack. An occupied one merges the stack into a
*clone* of its stack (`let mut inner = ....clone(); inner.try_merge(...)`) that is then dropped,
so the slot keeps what it held and only the leftover is returned. A stored slot goes through
`MaybeStack::try_merge` under the manager. A leftover keeps the put stack's origin. -/
def put (self : InventoryView) (slot : Nat) (stack : BorrowedStack) :
    EStateM Error InventoryManager (InventoryView × Option BorrowedStack) := do
  self.checkSlot slot
  match self.backing with
  | .transient contents =>
    match contents[slot]? with
    | none => throw (.panic unwrapNone)
    | some none => pure ({ self with backing := .transient (contents.set slot (some stack)) }, none)
    | some (some b) =>
      let leftover := (b.borrowedStack.tryMerge stack.borrowedStack).2
      pure (self, leftover.map fun leftover ↦ ⟨stack.borrowsFrom, leftover⟩)
  | .virtualOutput => throw (.panic "not yet implemented")
  | .virtualInput => throw (.panic "not yet implemented")
  | .stored key => do
    let leftover ←
      mutateInventoryAtomically key (onSlot slot (MaybeStack.tryMerge · (some stack.borrowedStack)))
    pure (self, leftover.map fun leftover ↦ ⟨stack.borrowsFrom, leftover⟩)

/-- Items named `name` in the view: in its slots for a transient view, in the record under its
key for a stored one, none for a virtual one. -/
def viewCount (name : String) (self : InventoryView) (m : InventoryManager) : Nat :=
  match self.backing with
  | .transient contents => itemCount name (stacksOf contents)
  | .stored key => storedCount name m.db.data key
  | _ => 0

/-! ### What each operation does to the items -/

variable {self self' : InventoryView} {m m' : InventoryManager} {name : String}
  {r : Option BorrowedStack} {slot : Nat}

theorem checkSlot_eq_ok {u : Unit} (h : self.checkSlot slot m = .ok u m') : m' = m := by
  unfold checkSlot at h
  split at h <;> cases h
  rfl

/-- `viewCount` counts what `peek` shows. -/
theorem peek_count {slots : List (Option ItemStack)} (h : self.peek m = .ok slots m') :
    viewCount name self m = itemCount name slots := by
  unfold peek at h
  cases hb : self.backing with
  | transient contents => simp only [hb] at h; cases h; simp only [viewCount, hb]
  | virtualOutput => simp only [hb] at h; cases h
  | virtualInput => simp only [hb] at h; cases h
  | stored key =>
    simp only [hb] at h
    obtain ⟨x, m₁, hg, h⟩ := bind_eq_ok h
    rcases x with _ | inv
    · cases h
    · cases h
      simp only [viewCount, hb]
      exact storedCount_of_loaded (get_of_ok_some hg)

/-- **A stored slot operation**, when the mutation returns: the record under the key traded the
slot's old stack for its new one (for every name but the empty one, which a record cannot carry),
and the call returned what `f` returned. -/
theorem mutate_onSlot_count {key : InventoryKey} {f : Option ItemStack → Option ItemStack × α}
    {a : α} (hname : name ≠ "") (h : mutateInventoryAtomically key (onSlot slot f) m = .ok a m') :
    ∃ s, storedCount name m'.db.data key + slotCount name s =
      storedCount name m.db.data key + slotCount name (f s).1 ∧ a = (f s).2 := by
  unfold mutateInventoryAtomically at h
  obtain ⟨inv, m₁, hl, h⟩ := bind_eq_ok h
  obtain ⟨hloaded, hu⟩ := load_of_ok hl
  cases hs : inv.contents[slot]? with
  | none =>
    rw [show onSlot slot f inv = none by simp only [onSlot, hs], runMutator_none_bind] at h
    cases h
  | some s =>
    rw [show onSlot slot f inv = some ({ inv with contents := inv.contents.set slot (f s).1 },
      .ok (f s).2) by simp only [onSlot, hs], runMutator_some_bind] at h
    obtain ⟨u, m₂, hw, h⟩ := bind_eq_ok h
    cases h
    refine ⟨s, ?_, rfl⟩
    rw [storedCount_of_loaded hloaded, ← itemCount_set_of_getElem? name hs (f s).1]
    simp only [storedCount, (writeBack_of_ok hw).1, Function.update_same, Inventory.toProto,
      itemCount_fromProto_slotToProto hname]

/-- **A `take` conserves items.** When it returns, the items named `name` in the view before it
are those in the view it leaves plus those it returned, for a transient and for a stored view (a
virtual view panics). -/
theorem take_conserves_items (slot : Nat) (count : Option Nat) (hname : name ≠ "")
    (h : self.take slot count m = .ok (self', r) m') :
    viewCount name self m = viewCount name self' m' + heldCount name r := by
  unfold take at h
  obtain ⟨u, m₁, hc, h⟩ := bind_eq_ok h
  cases checkSlot_eq_ok hc
  cases hb : self.backing with
  | transient contents =>
    simp only [hb] at h
    cases hs : contents[slot]? with
    | none => simp only [hs] at h; cases h
    | some x =>
      cases x with
      | none => simp only [hs] at h; cases h; simp [viewCount, hb]
      | some b =>
        rcases ht : MaybeStack.takeItems (some b.borrowedStack) count with ⟨inner, obtained⟩
        simp only [hs, ht] at h
        cases h
        have hcount := MaybeStack.takeItems_count name (some b.borrowedStack) count
        have hset := itemCount_set_of_getElem? name (getElem?_stacksOf hs) inner
        simp only [ht] at hcount
        simp only [viewCount, hb, stacksOf_set, map_borrowedStack_map, heldCount_map,
          Option.map_some'] at hset ⊢
        omega
  | virtualOutput => simp only [hb] at h; cases h
  | virtualInput => simp only [hb] at h; cases h
  | stored key =>
    simp only [hb] at h
    obtain ⟨obtained, m₂, hmut, h⟩ := bind_eq_ok h
    cases h
    obtain ⟨s, hcount, rfl⟩ := mutate_onSlot_count hname hmut
    have := MaybeStack.takeItems_count name s count
    simp only [viewCount, hb, heldCount_map]
    omega

/-- A `1 × 1` transient view whose slot holds one `dirt` of a stack limit of ten, borrowed from
nowhere. -/
def oneDirtView : InventoryView :=
  ⟨(1, 1), true, true, .transient [some ⟨none, ⟨"dirt", 1, 10, true⟩⟩], 1⟩

/-- Taking one `dirt` out of `oneDirtView` empties its slot and returns the unit. -/
theorem take_conserves_items_one :
    "dirt" ≠ "" ∧
      oneDirtView.take 0 (some 1) ⟨.inMem, []⟩ =
        .ok ({ oneDirtView with backing := .transient [none] },
          some ⟨none, ⟨"dirt", 1, 10, true⟩⟩) ⟨.inMem, []⟩ ∧
      viewCount "dirt" oneDirtView ⟨.inMem, []⟩ =
        viewCount "dirt" { oneDirtView with backing := .transient [none] } ⟨.inMem, []⟩ +
          heldCount "dirt" (some ⟨none, ⟨"dirt", 1, 10, true⟩⟩) :=
  ⟨by decide, rfl, take_conserves_items 0 (some 1) (by decide) rfl⟩

/-- **A stored `put` conserves items.** When it returns, the items named `name` in the view and
in the stack put are those in the view after and in the leftover returned. -/
theorem put_conserves_items_of_stored {key : InventoryKey} (hb : self.backing = .stored key)
    (slot : Nat) (stack : BorrowedStack) (hname : name ≠ "")
    (h : self.put slot stack m = .ok (self', r) m') :
    viewCount name self m + slotCount name (some stack.borrowedStack) =
      viewCount name self' m' + heldCount name r := by
  unfold put at h
  obtain ⟨u, m₁, hc, h⟩ := bind_eq_ok h
  cases checkSlot_eq_ok hc
  simp only [hb] at h
  obtain ⟨leftover, m₂, hmut, h⟩ := bind_eq_ok h
  cases h
  obtain ⟨s, hcount, rfl⟩ := mutate_onSlot_count hname hmut
  have := MaybeStack.tryMerge_count name s stack.borrowedStack
  simp only [viewCount, hb, heldCount_map]
  omega

/-- A stored view of `sampleKey`, as `new_stored` builds it over `sampleManager`. -/
def sampleStoredView : InventoryView := ⟨(1, 2), true, true, .stored sampleKey, 3⟩

/-- Putting three `dirt` into the empty slot 1 of `sampleStoredView`. -/
theorem put_conserves_items_of_stored_dirt :
    sampleStoredView.backing = .stored sampleKey ∧ "dirt" ≠ "" ∧
      sampleStoredView.put 1 ⟨none, dirt 3⟩ sampleManager =
        .ok (sampleStoredView, none) (sampleStoredView.put 1 ⟨none, dirt 3⟩ sampleManager).state ∧
      viewCount "dirt" sampleStoredView sampleManager + slotCount "dirt" (some (dirt 3)) =
        viewCount "dirt" sampleStoredView
          (sampleStoredView.put 1 ⟨none, dirt 3⟩ sampleManager).state + heldCount "dirt" none :=
  ⟨rfl, by decide, rfl, put_conserves_items_of_stored rfl 1 ⟨none, dirt 3⟩ (by decide) rfl⟩

/-! ### Where views lose items -/

/-- **A transient `put` into an occupied slot loses the merged items.** Putting one more `dirt`
into `oneDirtView` returns no leftover and leaves the view as it was: two units went in, one is
accounted for. -/
theorem transient_put_drops_merged_items (m : InventoryManager) :
    oneDirtView.put 0 ⟨none, ⟨"dirt", 1, 10, true⟩⟩ m = .ok (oneDirtView, none) m ∧
      viewCount "dirt" oneDirtView m + slotCount "dirt" (some ⟨"dirt", 1, 10, true⟩) = 2 ∧
      viewCount "dirt" oneDirtView m + heldCount "dirt" none = 1 :=
  ⟨rfl, rfl, rfl⟩

/-- Dropping a view writes nothing and broadcasts nothing, whatever it holds. -/
theorem drop_eq (self : InventoryView) (m : InventoryManager) : self.drop m = .ok () m := rfl

/-- A `1 × 1` transient view holding three `dirt` borrowed from slot 0 of `sampleKey`. -/
def borrowedDirtView : InventoryView :=
  ⟨(1, 1), true, true, .transient [some ⟨some (sampleKey, 0), dirt 3⟩], 2⟩

/-- The store after `make_inventory(1, 1)` made an empty inventory under `sampleKey`. -/
def oneSlotManager : InventoryManager :=
  (makeInventory 1 1 sampleKey.id ⟨.inMem, []⟩).state

/-- **Dropping a transient view returns nothing to its origin.** `sampleKey` holds an empty
`1 × 1` inventory, room for the three `dirt` that `borrowedDirtView` borrowed from its slot 0;
dropping the view leaves the store as it was, so `sampleKey` still holds no `dirt`. -/
theorem drop_leaves_borrowed_stacks :
    borrowedDirtView.drop oneSlotManager = .ok () oneSlotManager ∧
      viewCount "dirt" borrowedDirtView oneSlotManager = 3 ∧
      storedCount "dirt" oneSlotManager.db.data sampleKey = 0 :=
  ⟨drop_eq _ _, rfl, rfl⟩

end InventoryView

end Cuberef
