import Cuberef.Items

/-!
# The merge/split algebra: limits and empty stacks

Facts about `ItemStack::try_merge`, `MaybeStack::try_merge` and `MaybeStack::take_items` that the
inventory and view layers build on.

* **Limits.** A stack within its `max_stack` stays within it under `try_merge`, whatever it is
  offered: the move size is capped by the saturating space. An *empty* slot is different: it takes
  the incoming stack whole (`MaybeStack::try_merge`, "We can always insert into an empty stack"),
  so the slot is within its limit exactly when the incoming stack was.
* **Leftovers.** A leftover is the incoming stack with a smaller quantity: same name, limit and
  flag.
* **Empty stacks.** `take_items` and `try_take_all` with the count `Some(0)` hand out a stack of
  quantity `0` (`takeItems_some_zero`, `tryTakeAll_some_zero`): neither guards that count, unlike
  `try_merge`, which returns `None` rather than an empty remainder.
-/

namespace Cuberef

/-- A slot within its limit: empty, or holding at most the `max_stack` of the stack it holds. -/
def WithinLimit : Option ItemStack → Prop
  | none => True
  | some s => s.quantity ≤ s.maxStack

instance : DecidablePred WithinLimit
  | none => inferInstanceAs (Decidable True)
  | some s => inferInstanceAs (Decidable (s.quantity ≤ s.maxStack))

@[simp] theorem withinLimit_none : WithinLimit none := trivial

@[simp] theorem withinLimit_some (s : ItemStack) :
    WithinLimit (some s) ↔ s.quantity ≤ s.maxStack := Iff.rfl

namespace ItemStack

variable {self stack r : ItemStack}

theorem moveSize_le_quantity : self.moveSize stack ≤ stack.quantity := Nat.min_le_left _ _

/-- The target of `try_merge` keeps within its limit. -/
theorem tryMerge_fst_within (h : self.quantity ≤ self.maxStack) :
    WithinLimit (some (self.tryMerge stack).1) := by
  rw [withinLimit_some, tryMerge_fst_maxStack]
  by_cases hm : self.Mergeable stack
  · rw [tryMerge_of_mergeable hm]
    simp only [moveSize]
    omega
  · rw [tryMerge_of_not_mergeable hm]
    exact h

/-- A leftover of `try_merge` is at most the incoming quantity. -/
theorem tryMerge_snd_le (h : (self.tryMerge stack).2 = some r) : r.quantity ≤ stack.quantity := by
  by_cases hm : self.Mergeable stack
  · rw [tryMerge_of_mergeable hm] at h
    split_ifs at h
    cases h
    exact Nat.sub_le _ _
  · rw [tryMerge_of_not_mergeable hm] at h
    cases h
    exact Nat.le_refl _

/-- A successful `try_merge_all` keeps a target within its limit. -/
theorem tryMergeAll_within (h : self.quantity ≤ self.maxStack)
    (hok : (self.tryMergeAll stack).2 = true) :
    WithinLimit (some (self.tryMergeAll stack).1) := by
  rw [withinLimit_some, tryMergeAll_fst_maxStack]
  by_cases hm : self.Mergeable stack
  · rw [tryMergeAll_of_mergeable hm] at hok ⊢
    split_ifs at hok ⊢ with hlt
    simp only
    omega
  · rw [tryMergeAll_of_not_mergeable hm] at hok
    cases hok

end ItemStack

namespace MaybeStack

variable {slot : Option ItemStack} {o r : ItemStack}

/-- After `try_merge` a slot holds the stack it held (with a new quantity), or `o`. -/
theorem tryMerge_fst_of_some (s : ItemStack) :
    (tryMerge (some s) (some o)).1 = some (s.tryMerge o).1 := rfl

/-- **Limit of a merge.** A slot within its limit stays within it when it held a stack, and
receives `o` whole when it was empty. -/
theorem tryMerge_within (hslot : WithinLimit slot) (ho : WithinLimit (some o)) :
    WithinLimit (tryMerge slot (some o)).1 := by
  cases slot with
  | none => exact ho
  | some s => exact ItemStack.tryMerge_fst_within hslot

/-- A leftover of `MaybeStack::try_merge` is `o` with at most `o`'s quantity. -/
theorem tryMerge_snd_eq (h : (tryMerge slot (some o)).2 = some r) :
    r = { o with quantity := r.quantity } ∧ r.quantity ≤ o.quantity := by
  cases slot with
  | none => cases h
  | some s => exact ⟨ItemStack.tryMerge_snd_eq h, ItemStack.tryMerge_snd_le h⟩

/-- A successful `MaybeStack::try_merge_all` keeps a slot within its limit. -/
theorem tryMergeAll_within (hslot : WithinLimit slot) (ho : WithinLimit (some o))
    (hok : (tryMergeAll slot (some o)).2 = true) : WithinLimit (tryMergeAll slot (some o)).1 := by
  cases slot with
  | none => exact ho
  | some s => exact ItemStack.tryMergeAll_within hslot hok

/-- **`take_items` with `Some(0)`** leaves a stackable stack in place and returns a stack of
quantity `0`. -/
theorem takeItems_some_zero (s : ItemStack) (hs : s.stackable = true) (hq : 0 < s.quantity) :
    takeItems (some s) (some 0) = (some s, some { s with quantity := 0 }) := by
  obtain ⟨n, q, m, b⟩ := s
  subst hs
  simp [takeItems, Nat.pos_iff_ne_zero.mp hq]

/-- **`try_take_all` with `Some(0)`** does the same. -/
theorem tryTakeAll_some_zero (s : ItemStack) (hs : s.stackable = true) (hq : 0 < s.quantity) :
    tryTakeAll (some s) (some 0) = some (some s, some { s with quantity := 0 }) := by
  obtain ⟨n, q, m, b⟩ := s
  subst hs
  simp [tryTakeAll, Nat.pos_iff_ne_zero.mp hq, hq]

/-- A slot of five `dirt` and the count `Some(0)`: both operations hand out an empty stack. -/
theorem zero_count_hands_out_empty_stack :
    takeItems (some ⟨"dirt", 5, 256, true⟩) (some 0) =
        (some ⟨"dirt", 5, 256, true⟩, some ⟨"dirt", 0, 256, true⟩) ∧
      tryTakeAll (some ⟨"dirt", 5, 256, true⟩) (some 0) =
        some (some ⟨"dirt", 5, 256, true⟩, some ⟨"dirt", 0, 256, true⟩) :=
  ⟨takeItems_some_zero _ rfl (by decide), tryTakeAll_some_zero _ rfl (by decide)⟩

end MaybeStack

end Cuberef
