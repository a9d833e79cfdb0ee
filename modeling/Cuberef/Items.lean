import Mathlib.Algebra.Order.Ring.Nat

/-!
# Item stacks and the `MaybeStack` operations

The stack algebra of `cuberef_server/src/game_state/items.rs`: `ItemStack::try_merge` and
`try_merge_all` on a stack, and the four `MaybeStack` operations on an optional slot.

A server `ItemStack` is a wrapper around the `proto::ItemStack` message and has no other field,
so the model flattens the two into one record. The `u32` fields are natural numbers; the merge
arithmetic never leaves `u32` (the saturating subtraction and the `min` keep every sum below the
target's limit, see `Cuberef.Items.Algebra`), so nothing is reduced modulo `2 ^ 32`.

Every `&mut self` method returns its receiver's new value first and the Rust return value second.
`MaybeStack::try_take_all` unwraps the slot before it looks at it, so it panics on an empty slot
with a count: it returns `none` exactly there, and `some` of the pair otherwise.
-/

namespace Cuberef

/-- `QuantityType` of an item definition: a stack limit, or a wear level. -/
inductive QuantityType
  | stack (limit : Nat)
  | wear (level : Nat)
deriving DecidableEq, Repr

/-- The two fields of `proto::ItemDef` that `ItemStack::new` reads. -/
structure ItemDef where
  shortName : String
  quantityType : Option QuantityType
deriving DecidableEq, Repr

/-- An item stack: the fields of `proto::ItemStack`. Absence is an empty slot (`none`), and the
wire form of an absent stack is the sentinel with an empty `itemName`. -/
structure ItemStack where
  itemName : String
  quantity : Nat
  maxStack : Nat
  stackable : Bool
deriving DecidableEq, Repr

namespace ItemStack

/-- `ItemStack::new`: `max_stack` from a `Stack` quantity type, `0` otherwise; `stackable`
exactly for a `Stack` quantity type. -/
def new (item : ItemDef) (quantity : Nat) : ItemStack where
  itemName := item.shortName
  quantity := quantity
  maxStack :=
    match item.quantityType with
    | some (.stack x) => x
    | some (.wear _) => 0
    | none => 0
  stackable :=
    match item.quantityType with
    | some (.stack _) => true
    | _ => false

/-- `ItemStack::from_proto`: an empty item name reads as no stack. -/
def fromProto (proto : ItemStack) : Option ItemStack :=
  if proto.itemName = "" then none else some proto

/-- `move_size` of `ItemStack::try_merge`: the incoming quantity, capped by the space
`max_stack - quantity` (saturating). -/
def moveSize (self stack : ItemStack) : Nat :=
  min stack.quantity (self.maxStack - self.quantity)

/-- **`ItemStack::try_merge`.** Refuses (returns `stack` whole) when either side has
`max_stack = 0` or the names differ; otherwise moves `moveSize` units and returns the rest with
`stack`'s other fields, or `none` when nothing is left. -/
def tryMerge (self stack : ItemStack) : ItemStack × Option ItemStack :=
  if self.maxStack = 0 then (self, some stack)
  else if stack.maxStack = 0 then (self, some stack)
  else if self.itemName ≠ stack.itemName then (self, some stack)
  else
    let moveSize := self.moveSize stack
    let remaining := stack.quantity - moveSize
    ({ self with quantity := self.quantity + moveSize },
      if remaining = 0 then none else some { stack with quantity := remaining })

/-- **`ItemStack::try_merge_all`.** The same three refusals, and a fourth when the available
space `max - quantity` (saturating) is below `stack.quantity`; otherwise all of `stack` moves. -/
def tryMergeAll (self stack : ItemStack) : ItemStack × Bool :=
  if self.maxStack = 0 then (self, false)
  else if stack.maxStack = 0 then (self, false)
  else if self.itemName ≠ stack.itemName then (self, false)
  else if self.maxStack - self.quantity < stack.quantity then (self, false)
  else ({ self with quantity := self.quantity + stack.quantity }, true)

/-- The three guards `try_merge` and `try_merge_all` share. -/
def Mergeable (self stack : ItemStack) : Prop :=
  self.maxStack ≠ 0 ∧ stack.maxStack ≠ 0 ∧ self.itemName = stack.itemName

instance (self stack : ItemStack) : Decidable (self.Mergeable stack) :=
  inferInstanceAs (Decidable (_ ∧ _ ∧ _))

theorem tryMerge_of_not_mergeable {self stack : ItemStack} (h : ¬ self.Mergeable stack) :
    self.tryMerge stack = (self, some stack) := by
  simp only [Mergeable, not_and_or, not_not] at h
  unfold tryMerge
  rcases h with h | h | h <;> simp [h]

theorem tryMerge_of_mergeable {self stack : ItemStack} (h : self.Mergeable stack) :
    self.tryMerge stack =
      ({ self with quantity := self.quantity + self.moveSize stack },
        if stack.quantity - self.moveSize stack = 0 then none
        else some { stack with quantity := stack.quantity - self.moveSize stack }) := by
  obtain ⟨h₁, h₂, h₃⟩ := h
  unfold tryMerge
  rw [if_neg h₁, if_neg h₂, if_neg (not_not.mpr h₃)]

theorem tryMergeAll_of_not_mergeable {self stack : ItemStack} (h : ¬ self.Mergeable stack) :
    self.tryMergeAll stack = (self, false) := by
  simp only [Mergeable, not_and_or, not_not] at h
  unfold tryMergeAll
  rcases h with h | h | h <;> simp [h]

theorem tryMergeAll_of_mergeable {self stack : ItemStack} (h : self.Mergeable stack) :
    self.tryMergeAll stack =
      if self.maxStack - self.quantity < stack.quantity then (self, false)
      else ({ self with quantity := self.quantity + stack.quantity }, true) := by
  obtain ⟨h₁, h₂, h₃⟩ := h
  unfold tryMergeAll
  rw [if_neg h₁, if_neg h₂, if_neg (not_not.mpr h₃)]

/-- `try_merge` never changes the target's name, limit or flag. -/
theorem tryMerge_fst_eq (self stack : ItemStack) :
    ∃ q, (self.tryMerge stack).1 = { self with quantity := q } := by
  by_cases h : self.Mergeable stack
  · exact ⟨_, by rw [tryMerge_of_mergeable h]⟩
  · exact ⟨self.quantity, by rw [tryMerge_of_not_mergeable h]⟩

@[simp] theorem tryMerge_fst_itemName (self stack : ItemStack) :
    (self.tryMerge stack).1.itemName = self.itemName := by
  obtain ⟨q, hq⟩ := tryMerge_fst_eq self stack
  rw [hq]

@[simp] theorem tryMerge_fst_maxStack (self stack : ItemStack) :
    (self.tryMerge stack).1.maxStack = self.maxStack := by
  obtain ⟨q, hq⟩ := tryMerge_fst_eq self stack
  rw [hq]

@[simp] theorem tryMergeAll_fst_maxStack (self stack : ItemStack) :
    (self.tryMergeAll stack).1.maxStack = self.maxStack := by
  by_cases h : self.Mergeable stack
  · rw [tryMergeAll_of_mergeable h]
    split_ifs <;> rfl
  · rw [tryMergeAll_of_not_mergeable h]

/-- A leftover of `try_merge` is `stack` with a new quantity. -/
theorem tryMerge_snd_eq {self stack r : ItemStack} (h : (self.tryMerge stack).2 = some r) :
    r = { stack with quantity := r.quantity } := by
  by_cases hm : self.Mergeable stack
  · rw [tryMerge_of_mergeable hm] at h
    split_ifs at h
    cases h
    rfl
  · rw [tryMerge_of_not_mergeable hm] at h
    cases h
    rfl

/-- `ItemStack::decrement`: the stack with one unit fewer, and no stack in place of the last unit
(or of an empty stack). -/
def decrement (self : ItemStack) : Option ItemStack :=
  match self.quantity with
  | 0 | 1 => none
  | x => some { self with quantity := x - 1 }

end ItemStack

/-! ### `MaybeStack` on a slot -/

namespace MaybeStack

/-- **`MaybeStack::try_merge`.** An empty incoming stack leaves the slot; an empty slot takes
the incoming stack whole; a full slot defers to `ItemStack::try_merge`. -/
def tryMerge (self other : Option ItemStack) : Option ItemStack × Option ItemStack :=
  match other with
  | some other =>
    match self with
    | some selfInner => (some (selfInner.tryMerge other).1, (selfInner.tryMerge other).2)
    | none => (some other, none)
  | none => (self, none)

/-- **`MaybeStack::try_merge_all`.** As `try_merge`, with `ItemStack::try_merge_all` for a
full slot. -/
def tryMergeAll (self other : Option ItemStack) : Option ItemStack × Bool :=
  match other with
  | some other =>
    match self with
    | some selfInner => (some (selfInner.tryMergeAll other).1, (selfInner.tryMergeAll other).2)
    | none => (some other, true)
  | none => (self, true)

/-- **`MaybeStack::take_items`.** With a count, a stackable stack gives
`min quantity count` and keeps `quantity - count` (saturating), and the slot empties when that is
`0`; a non-stackable stack gives nothing. With no count the whole slot is taken. -/
def takeItems (self : Option ItemStack) (count : Option Nat) :
    Option ItemStack × Option ItemStack :=
  match count with
  | some count =>
    match self with
    | some s =>
      if s.stackable then
        let taken := min s.quantity count
        let remaining := s.quantity - count
        if remaining = 0 then (none, some s)
        else (some { s with quantity := remaining }, some { s with quantity := taken })
      else (self, none)
    | none => (none, none)
  | none => (none, self)

/-- **`MaybeStack::try_take_all`.** `none` is the panic of `self.as_ref().unwrap()` on an empty
slot with a count. Otherwise a stackable stack gives exactly `count` when it holds at least that
many, and nothing is taken when it holds fewer or is not stackable. -/
def tryTakeAll (self : Option ItemStack) (count : Option Nat) :
    Option (Option ItemStack × Option ItemStack) :=
  match count with
  | some count =>
    match self with
    | none => none
    | some s =>
      if s.stackable then
        if s.quantity = count then some (none, some s)
        else if s.quantity > count then
          some (some { s with quantity := s.quantity - count }, some { s with quantity := count })
        else some (self, none)
      else some (self, none)
  | none => some (none, self)

@[simp] theorem tryMerge_none_right (self : Option ItemStack) :
    tryMerge self none = (self, none) := rfl

@[simp] theorem tryMerge_none_some (o : ItemStack) :
    tryMerge none (some o) = (some o, none) := rfl

@[simp] theorem tryMerge_some_some (s o : ItemStack) :
    tryMerge (some s) (some o) = (some (s.tryMerge o).1, (s.tryMerge o).2) := rfl

@[simp] theorem tryMergeAll_none_right (self : Option ItemStack) :
    tryMergeAll self none = (self, true) := rfl

@[simp] theorem tryMergeAll_none_some (o : ItemStack) :
    tryMergeAll none (some o) = (some o, true) := rfl

@[simp] theorem tryMergeAll_some_some (s o : ItemStack) :
    tryMergeAll (some s) (some o) = (some (s.tryMergeAll o).1, (s.tryMergeAll o).2) := rfl

@[simp] theorem takeItems_none_count (self : Option ItemStack) :
    takeItems self none = (none, self) := rfl

@[simp] theorem takeItems_none_slot (count : Option Nat) :
    takeItems none count = (none, none) := by
  cases count <;> rfl

@[simp] theorem tryTakeAll_none_count (self : Option ItemStack) :
    tryTakeAll self none = some (none, self) := rfl

end MaybeStack

end Cuberef
