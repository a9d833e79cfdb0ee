import Cuberef.Items.Algebra
import Cuberef.Database

/-!
# Inventories

`Inventory` of `game_state/inventory.rs`: a key, public `dimensions`, and the slots, with the
allocation check of `Inventory::new`, the record codec `to_proto`/`from_proto`, and
`Inventory::try_insert`.

`Inventory` carries no shape invariant: `dimensions` is a public field, so code holding an
inventory may set it to anything, and only `from_proto` checks the shape, when a record is read
back. `ShapeOk` is that check as a proposition; a record passes it exactly when
`ShapeOk` holds (`fromProto_toProto`), and an inventory whose stacks all have non-empty names
then reads back unchanged.

`try_insert` is two loops over the slots. The first (`mergeIntoStacks`) offers the stack to every
occupied slot in turn, threading the remainder; the second (`placeInEmpty`) puts what is left in
the first empty slot. Each is a structural recursion over the slot list.
-/

namespace Cuberef

/-- `u32::checked_mul`. -/
def checkedMul (a b : Nat) : Option Nat :=
  if a * b < 2 ^ 32 then some (a * b) else none

theorem checkedMul_eq_some {a b n : Nat} : checkedMul a b = some n ↔ a * b < 2 ^ 32 ∧ a * b = n := by
  unfold checkedMul
  split_ifs with h
  · exact Option.some_inj.trans (and_iff_right h).symm
  · exact iff_of_false (by simp) fun h' ↦ h h'.1

theorem checkedMul_eq_none {a b : Nat} : checkedMul a b = none ↔ 2 ^ 32 ≤ a * b := by
  unfold checkedMul
  split_ifs with h
  · exact iff_of_false (by simp) (by omega)
  · exact iff_of_true rfl (by omega)

/-- A `uuid::Uuid`: sixteen bytes. -/
structure Uuid where
  bytes : List UInt8
  length_bytes : bytes.length = 16
deriving DecidableEq

/-- `InventoryKey`: the opaque identifier of an inventory. -/
structure InventoryKey where
  id : Uuid
deriving DecidableEq

namespace InventoryKey

/-- `InventoryKey::as_bytes`. -/
def asBytes (self : InventoryKey) : List UInt8 := self.id.bytes

/-- `InventoryKey::parse_bytes`: the slice must have exactly sixteen bytes. -/
def parseBytes (bytes : List UInt8) : Except Error InventoryKey :=
  if h : bytes.length = 16 then .ok ⟨⟨bytes, h⟩⟩
  else .error (.msg "could not convert slice to array")

/-- `InventoryKey::to_db_key`: the key in the inventory key space. -/
def toDbKey (self : InventoryKey) : List UInt8 := KeySpace.inventory.makeKey self.id.bytes

theorem toDbKey_injective : Function.Injective toDbKey := by
  rintro ⟨⟨a, ha⟩⟩ ⟨⟨b, hb⟩⟩ h
  simp only [toDbKey, KeySpace.makeKey, List.cons.injEq, true_and] at h
  subst h
  rfl

@[simp] theorem toDbKey_inj {k k' : InventoryKey} : k.toDbKey = k'.toDbKey ↔ k = k' :=
  toDbKey_injective.eq_iff

end InventoryKey

/-! ### Counting items -/

/-- How many items named `name` a slot holds. -/
def slotCount (name : String) : Option ItemStack → Nat
  | none => 0
  | some s => if s.itemName = name then s.quantity else 0

/-- How many items named `name` a list of slots holds. -/
def itemCount (name : String) : List (Option ItemStack) → Nat
  | [] => 0
  | slot :: slots => slotCount name slot + itemCount name slots

@[simp] theorem itemCount_nil (name : String) : itemCount name [] = 0 := rfl

@[simp] theorem itemCount_cons (name : String) (slot : Option ItemStack) (slots) :
    itemCount name (slot :: slots) = slotCount name slot + itemCount name slots := rfl

@[simp] theorem itemCount_append (name : String) (l₁ l₂ : List (Option ItemStack)) :
    itemCount name (l₁ ++ l₂) = itemCount name l₁ + itemCount name l₂ := by
  induction l₁ with
  | nil => simp
  | cons slot slots ih => simp [ih, Nat.add_assoc]

/-- Replacing one slot changes the count by the difference of the two slots. -/
theorem itemCount_set (name : String) (slots : List (Option ItemStack)) {i : Nat}
    (hi : i < slots.length) (x : Option ItemStack) :
    itemCount name (slots.set i x) + slotCount name slots[i] =
      itemCount name slots + slotCount name x := by
  induction slots generalizing i with
  | nil => cases hi
  | cons slot slots ih =>
    cases i with
    | zero => simp only [List.set_cons_zero, itemCount_cons, List.getElem_cons_zero]; omega
    | succ i =>
      have := ih (Nat.lt_of_succ_lt_succ hi)
      simp only [List.set_cons_succ, itemCount_cons, List.getElem_cons_succ]
      omega

/-! ### The inventory record -/

/-- The sentinel stack `to_proto` writes for an empty slot. -/
def ItemStack.sentinel : ItemStack := ⟨"", 0, 0, false⟩

/-- A stack the wire can carry: its name is not the empty sentinel name. -/
def Named : Option ItemStack → Prop
  | none => True
  | some s => s.itemName ≠ ""

instance : DecidablePred Named
  | none => inferInstanceAs (Decidable True)
  | some s => inferInstanceAs (Decidable (s.itemName ≠ ""))

/-- Every slot of the list is within its limit. -/
def AllWithinLimit (slots : List (Option ItemStack)) : Prop := ∀ s ∈ slots, WithinLimit s

/-- Server-side representation of an inventory. -/
structure Inventory where
  key : InventoryKey
  dimensions : Nat × Nat
  contents : List (Option ItemStack)
deriving DecidableEq

/-- The shape `from_proto` accepts for `n` slots: `width * height` fits in a `u32`, equals `n`,
and is positive. -/
def ShapeOk (dimensions : Nat × Nat) (n : Nat) : Prop :=
  dimensions.2 * dimensions.1 < 2 ^ 32 ∧ dimensions.2 * dimensions.1 = n ∧ 0 < n

instance (dimensions : Nat × Nat) (n : Nat) : Decidable (ShapeOk dimensions n) :=
  inferInstanceAs (Decidable (_ ∧ _ ∧ _))

namespace Inventory

/-- `Inventory::new`: both dimensions positive and their product a `u32`; every slot empty.
The key is the fresh `Uuid::new_v4()`, passed in. -/
def new (dimensions : Nat × Nat) (id : Uuid) : Except Error Inventory :=
  if ¬ dimensions.1 > 0 then .error (.msg "Condition failed: `dimensions.0 > 0`")
  else if ¬ dimensions.2 > 0 then .error (.msg "Condition failed: `dimensions.1 > 0`")
  else
    match checkedMul dimensions.1 dimensions.2 with
    | none => .error (.msg "Inventory size overflowed")
    | some len => .ok { key := ⟨id⟩, dimensions, contents := List.replicate len none }

/-- `Inventory::from_proto`: the shape checks, in the order of the source, then every entry
through `ItemStack::from_proto`. -/
def fromProto (proto : InventoryProto) (key : InventoryKey) : Except Error Inventory :=
  match checkedMul proto.width proto.height with
  | none => .error (.msg "Inventory size overflowed")
  | some size =>
    if size ≠ proto.contents.length then
      .error (.msg "Condition failed: `size as usize == proto.contents.len()`")
    else if ¬ size > 0 then .error (.msg "Condition failed: `size > 0`")
    else
      .ok { key, dimensions := (proto.height, proto.width),
            contents := proto.contents.map ItemStack.fromProto }

/-- The closure of `to_proto`: a stack as it is, an empty slot as the sentinel. -/
def slotToProto : Option ItemStack → ItemStack
  | some x => x
  | none => ItemStack.sentinel

/-- `Inventory::to_proto`. -/
def toProto (self : Inventory) : InventoryProto where
  height := self.dimensions.1
  width := self.dimensions.2
  contents := self.contents.map slotToProto

/-- The inventory is what its record reads back as: a shape `from_proto` accepts, and only named
stacks. -/
def Readable (self : Inventory) : Prop :=
  ShapeOk self.dimensions self.contents.length ∧ ∀ s ∈ self.contents, Named s

theorem new_eq_ok {dimensions : Nat × Nat} {id : Uuid} {inv : Inventory} :
    new dimensions id = .ok inv ↔
      0 < dimensions.1 ∧ 0 < dimensions.2 ∧ dimensions.1 * dimensions.2 < 2 ^ 32 ∧
        inv = { key := ⟨id⟩, dimensions,
                contents := List.replicate (dimensions.1 * dimensions.2) none } := by
  by_cases h₁ : 0 < dimensions.1
  · by_cases h₂ : 0 < dimensions.2
    · by_cases h₃ : dimensions.1 * dimensions.2 < 2 ^ 32
      · simp only [new, checkedMul, h₁, h₂, h₃, not_true_eq_false, gt_iff_lt, if_false, if_true,
          Except.ok.injEq, true_and]
        exact eq_comm
      · have hm := checkedMul_eq_none.mpr (Nat.le_of_not_lt h₃)
        exact iff_of_false (by simp [new, h₁, h₂, hm]) fun h ↦ h₃ h.2.2.1
    · simp [new, h₁, h₂]
  · simp [new, h₁]

/-- **Allocation succeeds exactly on positive dimensions whose product is a `u32`.** -/
theorem new_isOk_iff {dimensions : Nat × Nat} {id : Uuid} :
    (∃ inv, new dimensions id = .ok inv) ↔
      0 < dimensions.1 ∧ 0 < dimensions.2 ∧ dimensions.1 * dimensions.2 < 2 ^ 32 := by
  simp only [new_eq_ok]
  exact ⟨fun ⟨_, h₁, h₂, h₃, _⟩ ↦ ⟨h₁, h₂, h₃⟩, fun ⟨h₁, h₂, h₃⟩ ↦ ⟨_, h₁, h₂, h₃, rfl⟩⟩

theorem readable_of_new {dimensions : Nat × Nat} {id : Uuid} {inv : Inventory}
    (h : new dimensions id = .ok inv) : inv.Readable := by
  obtain ⟨h₁, h₂, h₃, rfl⟩ := new_eq_ok.mp h
  refine ⟨⟨?_, ?_, ?_⟩, ?_⟩
  · rw [Nat.mul_comm]; exact h₃
  · simp [Nat.mul_comm]
  · simp only [List.length_replicate]; exact Nat.mul_pos h₁ h₂
  · intro s hs
    rw [(List.mem_replicate.mp hs).2]
    trivial

@[simp] theorem toProto_height (self : Inventory) : self.toProto.height = self.dimensions.1 := rfl

@[simp] theorem toProto_width (self : Inventory) : self.toProto.width = self.dimensions.2 := rfl

@[simp] theorem length_toProto_contents (self : Inventory) :
    self.toProto.contents.length = self.contents.length := by
  simp [toProto]

theorem fromProto_eq_ok {proto : InventoryProto} {key : InventoryKey} {inv : Inventory} :
    fromProto proto key = .ok inv ↔
      ShapeOk (proto.height, proto.width) proto.contents.length ∧
        inv = { key, dimensions := (proto.height, proto.width),
                contents := proto.contents.map ItemStack.fromProto } := by
  simp only [ShapeOk]
  by_cases h₁ : proto.width * proto.height < 2 ^ 32
  · have hm : checkedMul proto.width proto.height = some (proto.width * proto.height) :=
      checkedMul_eq_some.mpr ⟨h₁, rfl⟩
    by_cases h₂ : proto.width * proto.height = proto.contents.length
    · by_cases h₃ : 0 < proto.contents.length
      · have h₁' : proto.contents.length < 2 ^ 32 := h₂ ▸ h₁
        simp only [fromProto, hm, h₂, h₁', h₃, ne_eq, not_true_eq_false, gt_iff_lt, if_false,
          Except.ok.injEq, and_self, true_and]
        exact eq_comm
      · simp [fromProto, hm, h₂, h₃]
    · simp [fromProto, hm, h₂]
  · have hm := checkedMul_eq_none.mpr (Nat.le_of_not_lt h₁)
    exact iff_of_false (by simp [fromProto, hm]) fun h ↦ h₁ h.1.1

/-- Reading back a written slot: a named stack or an empty slot comes back as it was. -/
theorem fromProto_slotToProto {slot : Option ItemStack} (h : Named slot) :
    ItemStack.fromProto (slotToProto slot) = slot := by
  cases slot with
  | none => rfl
  | some s => simp only [slotToProto, ItemStack.fromProto, if_neg h]

/-- The slots of a written record, read back, are the slots written, when every stack is named. -/
theorem toProto_contents_fromProto {self : Inventory} (h : ∀ s ∈ self.contents, Named s) :
    self.toProto.contents.map ItemStack.fromProto = self.contents := by
  simp only [toProto, List.map_map]
  exact (List.map_congr_left fun s hs ↦ fromProto_slotToProto (h s hs)).trans (List.map_id _)

/-- **The record of a readable inventory reads back as the inventory**, under any key. -/
theorem fromProto_toProto {self : Inventory} (h : self.Readable) (key : InventoryKey) :
    fromProto self.toProto key = .ok { self with key } := by
  rw [fromProto_eq_ok]
  refine ⟨by simpa using h.1, ?_⟩
  simp [toProto_contents_fromProto h.2]

/-! ### `try_insert` -/

/-- The first loop of `try_insert`: offer the stack to every occupied slot in order, carrying
the remainder, and stop at the first slot that absorbs all of it. -/
def mergeIntoStacks : List (Option ItemStack) → ItemStack → List (Option ItemStack) × Option ItemStack
  | [], stack => ([], some stack)
  | none :: slots, stack => (none :: (mergeIntoStacks slots stack).1, (mergeIntoStacks slots stack).2)
  | some s :: slots, stack =>
    match s.tryMerge stack with
    | (s', none) => (some s' :: slots, none)
    | (s', some remaining) =>
      (some s' :: (mergeIntoStacks slots remaining).1, (mergeIntoStacks slots remaining).2)

/-- The second loop of `try_insert`: the first empty slot receives the stack. -/
def placeInEmpty : List (Option ItemStack) → ItemStack → List (Option ItemStack) × Option ItemStack
  | [], stack => ([], some stack)
  | none :: slots, stack => (some stack :: slots, none)
  | some s :: slots, stack => (some s :: (placeInEmpty slots stack).1, (placeInEmpty slots stack).2)

/-- **`Inventory::try_insert`.** Merge into the occupied slots, then place what is left in an
empty one; return what still did not fit. -/
def tryInsert (self : Inventory) (stack : ItemStack) : Inventory × Option ItemStack :=
  match mergeIntoStacks self.contents stack with
  | (contents, none) => ({ self with contents }, none)
  | (contents, some stack) =>
    ({ self with contents := (placeInEmpty contents stack).1 }, (placeInEmpty contents stack).2)

section TryInsert

variable {slots : List (Option ItemStack)} {stack r : ItemStack}

theorem mergeIntoStacks_within (h : AllWithinLimit slots) :
    AllWithinLimit (mergeIntoStacks slots stack).1 := by
  induction slots generalizing stack with
  | nil => simp [mergeIntoStacks, AllWithinLimit]
  | cons slot slots ih =>
    have hs : WithinLimit slot := h slot (List.mem_cons_self _ _)
    have ht : AllWithinLimit slots := fun s hs ↦ h s (List.mem_cons_of_mem _ hs)
    cases slot with
    | none =>
      intro s hs'
      rcases List.mem_cons.mp hs' with rfl | hs'
      · trivial
      · exact ih ht s hs'
    | some x =>
      have hx : WithinLimit (some (x.tryMerge stack).1) := ItemStack.tryMerge_fst_within hs
      simp only [mergeIntoStacks]
      split
      · next s' h' =>
        intro s hs'
        rcases List.mem_cons.mp hs' with rfl | hs'
        · simpa [h'] using hx
        · exact ht s hs'
      · next s' rem h' =>
        intro s hs'
        rcases List.mem_cons.mp hs' with rfl | hs'
        · simpa [h'] using hx
        · exact ih ht s hs'

/-- What `mergeIntoStacks` hands on is the offered stack with at most its quantity. -/
theorem mergeIntoStacks_snd (h : (mergeIntoStacks slots stack).2 = some r) :
    r = { stack with quantity := r.quantity } ∧ r.quantity ≤ stack.quantity := by
  induction slots generalizing stack with
  | nil =>
    cases h
    exact ⟨rfl, Nat.le_refl _⟩
  | cons slot slots ih =>
    cases slot with
    | none => exact ih h
    | some x =>
      simp only [mergeIntoStacks] at h
      split at h
      · cases h
      · next s' rem h' =>
        have hrem : rem = { stack with quantity := rem.quantity } ∧ rem.quantity ≤ stack.quantity :=
          MaybeStack.tryMerge_snd_eq
            (by simp [h'] : (MaybeStack.tryMerge (some x) (some stack)).2 = some rem)
        obtain ⟨h₁, h₂⟩ := ih h
        refine ⟨?_, Nat.le_trans h₂ hrem.2⟩
        rw [h₁, hrem.1]

theorem placeInEmpty_within (h : AllWithinLimit slots) (hs : WithinLimit (some stack)) :
    AllWithinLimit (placeInEmpty slots stack).1 := by
  induction slots with
  | nil => simp [placeInEmpty, AllWithinLimit]
  | cons slot slots ih =>
    have ht : AllWithinLimit slots := fun s hs ↦ h s (List.mem_cons_of_mem _ hs)
    intro s hs'
    cases slot with
    | none =>
      rcases List.mem_cons.mp hs' with rfl | hs'
      · exact hs
      · exact ht s hs'
    | some x =>
      rcases List.mem_cons.mp hs' with rfl | hs'
      · exact h _ (List.mem_cons_self _ _)
      · exact ih ht s hs'

theorem placeInEmpty_snd (h : (placeInEmpty slots stack).2 = some r) : r = stack := by
  induction slots with
  | nil => cases h; rfl
  | cons slot slots ih =>
    cases slot with
    | none => cases h
    | some x => exact ih h

/-- **`try_insert` keeps every stack within its limit**, when the offered stack is within its
own: merges never exceed the target's limit, and the stack placed in an empty slot is the offered
one with at most its quantity. A leftover is the offered stack with a new quantity. -/
theorem tryInsert_within {self : Inventory} (h : AllWithinLimit self.contents)
    (hs : WithinLimit (some stack)) :
    AllWithinLimit (self.tryInsert stack).1.contents ∧
      ∀ r, (self.tryInsert stack).2 = some r → r = { stack with quantity := r.quantity } := by
  have hm : AllWithinLimit (mergeIntoStacks self.contents stack).1 := mergeIntoStacks_within h
  unfold tryInsert
  split
  · next contents h' =>
    rw [h'] at hm
    exact ⟨hm, fun r hr ↦ by cases hr⟩
  · next contents rem h' =>
    obtain ⟨hrem, hle⟩ := mergeIntoStacks_snd (by rw [h'])
    rw [h'] at hm
    have hrw : WithinLimit (some rem) := by
      rw [hrem]
      simp only [withinLimit_some] at hs ⊢
      omega
    refine ⟨placeInEmpty_within hm hrw, fun r hr ↦ ?_⟩
    rw [placeInEmpty_snd hr]
    exact hrem

end TryInsert

end Inventory

/-- A decoded record holds no stack under the empty name. -/
theorem itemCount_empty_fromProto (l : List ItemStack) : itemCount "" (l.map ItemStack.fromProto) = 0 := by
  induction l with
  | nil => rfl
  | cons x l ih =>
    simp only [List.map_cons, itemCount_cons, ih, Nat.add_zero, ItemStack.fromProto]
    split_ifs with h
    · rfl
    · simp [slotCount, h]

/-- Writing slots and reading them back keeps every count but that of the empty name. -/
theorem itemCount_fromProto_slotToProto {name : String} (hname : name ≠ "")
    (l : List (Option ItemStack)) :
    itemCount name ((l.map Inventory.slotToProto).map ItemStack.fromProto) = itemCount name l := by
  induction l with
  | nil => rfl
  | cons x l ih =>
    simp only [List.map_cons, itemCount_cons, ih]
    congr 1
    cases x with
    | none => rfl
    | some s =>
      by_cases h₁ : s.itemName = ""
      · have h₂ : ¬ s.itemName = name := fun h ↦ hname (h.symm.trans h₁)
        simp only [Inventory.slotToProto, ItemStack.fromProto, if_pos h₁, slotCount, if_neg h₂]
      · simp only [Inventory.slotToProto, ItemStack.fromProto, if_neg h₁]

end Cuberef
