import Cuberef.Items.Algebra

/-!
# The laws of the stack algebra

The laws the stack operations of `items.rs` keep, each over every stack and every slot, with
quantities and limits of any size.

* **Conservation.** `try_merge` moves units and creates none: the target's quantity and the
  leftover's add up to the target's and the incoming stack's (`tryMerge_conserves`), on a stack and
  on a slot. The target keeps its name, limit and flag; a leftover keeps the incoming stack's.
* **No overflow.** On `u32` fields, the one `+=` of each merge stays below `2 ^ 32` and the one
  `-` never underflows: the move is capped by the saturating space, and the space is `0` for a
  target already over its limit.
* **All or nothing.** `try_merge_all` is `try_merge` restricted to the inputs it absorbs whole:
  it succeeds exactly when `try_merge` leaves nothing, leaving the target as `try_merge` does, and
  leaves the target alone otherwise (`tryMergeAll_eq`, on a stack and on a slot).
* **Takes.** `take_items` hands out at most the count and at most what the slot holds, and what
  it keeps and what it gives add up to what the slot held (`takeItems_conserves`). `try_take_all`
  panics exactly on an empty slot with a count (`tryTakeAll_eq_none_iff`); everywhere else it
  agrees with `take_items` when it takes and leaves the slot when it does not.
* **Rigidity.** The merge side refuses a stack by its `max_stack` (`tryMerge_of_maxStack_eq_zero`),
  the split side by its `stackable` flag. They agree on every stack `ItemStack::new` builds except
  those of a `Stack(0)` item (`new_maxStack_eq_zero_and_stackable_iff`), which has limit `0` yet
  is stackable: merges leave it alone, and takes split it.
-/

namespace Cuberef

namespace MaybeStack

/-- The quantity in a slot, `0` when it is empty. -/
def quantity : Option ItemStack → Nat
  | some s => s.quantity
  | none => 0

@[simp] theorem quantity_none : quantity none = 0 := rfl

@[simp] theorem quantity_some (s : ItemStack) : quantity (some s) = s.quantity := rfl

end MaybeStack

namespace ItemStack

variable {self stack : ItemStack}

/-! ### Merges -/

/-- **Conservation of a merge**: the units the target gains are the units the incoming stack
loses. -/
theorem tryMerge_conserves (self stack : ItemStack) :
    self.quantity + stack.quantity =
      (self.tryMerge stack).1.quantity + MaybeStack.quantity (self.tryMerge stack).2 := by
  by_cases hm : self.Mergeable stack
  · have hle : self.moveSize stack ≤ stack.quantity := moveSize_le_quantity
    rw [tryMerge_of_mergeable hm]
    split_ifs <;> simp only [MaybeStack.quantity] <;> omega
  · rw [tryMerge_of_not_mergeable hm]
    rfl

/-- On `u32` fields, the `+=` of `try_merge` stays below `2 ^ 32`. -/
theorem tryMerge_fst_lt (hq : self.quantity < 2 ^ 32) (hm : self.maxStack < 2 ^ 32) :
    (self.tryMerge stack).1.quantity < 2 ^ 32 := by
  by_cases h : self.Mergeable stack
  · rw [tryMerge_of_mergeable h]
    simp only [moveSize]
    omega
  · rw [tryMerge_of_not_mergeable h]
    exact hq

/-- On `u32` fields, the `+=` of `try_merge_all` stays below `2 ^ 32`: it adds only what fits in
the saturating space. -/
theorem tryMergeAll_fst_lt (hq : self.quantity < 2 ^ 32) (hm : self.maxStack < 2 ^ 32) :
    (self.tryMergeAll stack).1.quantity < 2 ^ 32 := by
  by_cases h : self.Mergeable stack
  · rw [tryMergeAll_of_mergeable h]
    split_ifs
    · exact hq
    · simp only
      omega
  · rw [tryMergeAll_of_not_mergeable h]
    exact hq

/-- **`try_merge_all` is `try_merge` where it leaves nothing**, and the identity elsewhere. -/
theorem tryMergeAll_eq (self stack : ItemStack) :
    self.tryMergeAll stack =
      if (self.tryMerge stack).2 = none then ((self.tryMerge stack).1, true)
      else (self, false) := by
  by_cases hm : self.Mergeable stack
  · rw [tryMergeAll_of_mergeable hm, tryMerge_of_mergeable hm]
    by_cases hlt : self.maxStack - self.quantity < stack.quantity
    · have hr : stack.quantity - self.moveSize stack ≠ 0 := by simp only [moveSize]; omega
      rw [if_pos hlt, if_neg hr, if_neg (Option.some_ne_none _)]
    · have hr : self.moveSize stack = stack.quantity := Nat.min_eq_left (Nat.le_of_not_lt hlt)
      rw [if_neg hlt, hr, Nat.sub_self, if_pos rfl, if_pos rfl]
  · rw [tryMergeAll_of_not_mergeable hm, tryMerge_of_not_mergeable hm,
      if_neg (Option.some_ne_none _)]

/-! ### Rigid stacks -/

/-- A stack of limit `0` refuses every merge, as target and as incoming stack. -/
theorem tryMerge_of_maxStack_eq_zero {x : ItemStack} (hx : x.maxStack = 0) (y : ItemStack) :
    x.tryMerge y = (x, some y) ∧ y.tryMerge x = (y, some x) ∧
      x.tryMergeAll y = (x, false) ∧ y.tryMergeAll x = (y, false) := by
  have hxy : ¬ x.Mergeable y := fun h ↦ h.1 hx
  have hyx : ¬ y.Mergeable x := fun h ↦ h.2.1 hx
  exact ⟨tryMerge_of_not_mergeable hxy, tryMerge_of_not_mergeable hyx,
    tryMergeAll_of_not_mergeable hxy, tryMergeAll_of_not_mergeable hyx⟩

/-- `ItemStack::new` gives a stack of limit `0` that is still stackable exactly for a `Stack(0)`
item. -/
theorem new_maxStack_eq_zero_and_stackable_iff (item : ItemDef) (quantity : Nat) :
    (new item quantity).maxStack = 0 ∧ (new item quantity).stackable = true ↔
      item.quantityType = some (.stack 0) := by
  obtain ⟨name, _ | _ | _⟩ := item <;> simp [new]

/-- `decrement` takes one unit off the slot, and what it leaves is the same stack with one unit
fewer. -/
theorem quantity_decrement (self : ItemStack) :
    MaybeStack.quantity self.decrement = self.quantity - 1 ∧
      ∀ t ∈ self.decrement, t = { self with quantity := self.quantity - 1 } := by
  unfold decrement
  split
  next h => exact ⟨by simp [h], fun _ h ↦ absurd h (Option.not_mem_none _)⟩
  next h => exact ⟨by simp [h], fun _ h ↦ absurd h (Option.not_mem_none _)⟩
  next => exact ⟨rfl, fun _ ht ↦ (Option.mem_some_iff.mp ht).symm⟩

end ItemStack

namespace MaybeStack

variable {slot : Option ItemStack} {count : Option Nat}

/-- **Conservation of a merge into a slot.** -/
theorem tryMerge_conserves (slot other : Option ItemStack) :
    quantity slot + quantity other =
      quantity (tryMerge slot other).1 + quantity (tryMerge slot other).2 := by
  cases other with
  | none => simp
  | some o =>
    cases slot with
    | none => simp
    | some s => simpa using ItemStack.tryMerge_conserves s o

/-- **`MaybeStack::try_merge_all` is `MaybeStack::try_merge` where it leaves nothing**, and the
identity elsewhere. -/
theorem tryMergeAll_eq (slot other : Option ItemStack) :
    tryMergeAll slot other =
      if (tryMerge slot other).2 = none then ((tryMerge slot other).1, true)
      else (slot, false) := by
  cases other with
  | none => simp
  | some o =>
    cases slot with
    | none => simp
    | some s =>
      rw [tryMergeAll_some_some, tryMerge_some_some, ItemStack.tryMergeAll_eq]
      split_ifs <;> rfl

/-! ### Takes -/

/-- The three outcomes of `take_items` on a full slot with a count. -/
theorem takeItems_some_some (s : ItemStack) (n : Nat) :
    takeItems (some s) (some n) =
      if s.stackable then
        if s.quantity - n = 0 then (none, some s)
        else
          (some { s with quantity := s.quantity - n }, some { s with quantity := min s.quantity n })
      else (some s, none) := rfl

/-- **Conservation of a take**: what the slot keeps and what it gives add up to what it held. -/
theorem takeItems_conserves (slot : Option ItemStack) (count : Option Nat) :
    quantity (takeItems slot count).1 + quantity (takeItems slot count).2 = quantity slot := by
  cases count with
  | none => simp
  | some n =>
    cases slot with
    | none => simp
    | some s =>
      rw [takeItems_some_some]
      split_ifs <;> simp only [quantity_none, quantity_some] <;> omega

/-- A take hands out at most the count and at most what the slot held. -/
theorem takeItems_snd_le (slot : Option ItemStack) (n : Nat) :
    quantity (takeItems slot (some n)).2 ≤ min n (quantity slot) := by
  cases slot with
  | none => simp
  | some s =>
    rw [takeItems_some_some]
    split_ifs <;> simp only [quantity_none, quantity_some] <;> omega

/-- A slot empties exactly when the take hands out the whole stack. -/
theorem takeItems_fst_eq_none_iff (slot : Option ItemStack) (count : Option Nat) :
    (takeItems slot count).1 = none ↔ (takeItems slot count).2 = slot := by
  cases count with
  | none => simp
  | some n =>
    cases slot with
    | none => simp
    | some s =>
      rw [takeItems_some_some]
      split_ifs with hs hr
      · simp
      · simp only [reduceCtorEq, false_iff, Option.some.injEq]
        intro h
        have := congrArg ItemStack.quantity h
        simp only at this
        omega
      · simp

/-- What a take hands out is the slot's stack with a new quantity. -/
theorem takeItems_snd_eq {r : ItemStack} (h : (takeItems slot count).2 = some r) :
    ∃ s, slot = some s ∧ r = { s with quantity := r.quantity } := by
  cases count with
  | none => exact ⟨r, by simpa using h, rfl⟩
  | some n =>
    cases slot with
    | none => simp at h
    | some s =>
      rw [takeItems_some_some] at h
      refine ⟨s, rfl, ?_⟩
      split_ifs at h <;> cases h <;> rfl

/-- The outcomes of `try_take_all` on a full slot with a count. -/
theorem tryTakeAll_some_some (s : ItemStack) (n : Nat) :
    tryTakeAll (some s) (some n) =
      if s.stackable then
        if s.quantity = n then some (none, some s)
        else if s.quantity > n then
          some (some { s with quantity := s.quantity - n }, some { s with quantity := n })
        else some (some s, none)
      else some (some s, none) := rfl

/-- **`try_take_all` panics exactly on an empty slot with a count.** -/
theorem tryTakeAll_eq_none_iff : tryTakeAll slot count = none ↔ slot = none ∧ count ≠ none := by
  cases count with
  | none => simp
  | some n =>
    cases slot with
    | none => simp [tryTakeAll]
    | some s =>
      rw [tryTakeAll_some_some]
      split_ifs <;> simp

/-- Where `try_take_all` returns: it takes exactly what `take_items` takes, the requested amount,
or it takes nothing and leaves the slot; it takes exactly from a full slot with no count, or from
a stackable stack holding at least the count. -/
theorem tryTakeAll_of_eq_some {slot' taken : Option ItemStack}
    (h : tryTakeAll slot count = some (slot', taken)) :
    (((slot', taken) = takeItems slot count ∧ quantity taken = count.getD (quantity slot)) ∨
        (slot' = slot ∧ taken = none)) ∧
      (taken ≠ none ↔ (count = none ∧ slot ≠ none) ∨
        ∃ s n, slot = some s ∧ count = some n ∧ s.stackable = true ∧ n ≤ s.quantity) := by
  cases count with
  | none =>
    obtain ⟨rfl, rfl⟩ := Prod.mk.inj (Option.some.inj h).symm
    refine ⟨.inl ⟨rfl, rfl⟩, fun h ↦ .inl ⟨rfl, h⟩, ?_⟩
    rintro (⟨-, h⟩ | ⟨_, _, -, ⟨⟩, -⟩)
    exact h
  | some n =>
    cases slot with
    | none => cases h
    | some s =>
      rw [tryTakeAll_some_some] at h
      by_cases hs : s.stackable = true
      · by_cases he : s.quantity = n
        · simp only [hs, he, if_true, Option.some.injEq, Prod.mk.injEq] at h
          obtain ⟨rfl, rfl⟩ := h
          refine ⟨.inl ⟨?_, by simp [he]⟩,
            iff_of_true (Option.some_ne_none _) (.inr ⟨s, n, rfl, rfl, hs, he.ge⟩)⟩
          simp [takeItems_some_some, hs, he]
        · by_cases hg : s.quantity > n
          · simp only [hs, he, hg, if_true, if_false, Option.some.injEq, Prod.mk.injEq] at h
            obtain ⟨rfl, rfl⟩ := h
            have hr : s.quantity - n ≠ 0 := by omega
            have hm : min s.quantity n = n := by omega
            refine ⟨.inl ⟨?_, rfl⟩,
              iff_of_true (Option.some_ne_none _) (.inr ⟨s, n, rfl, rfl, hs, Nat.le_of_lt hg⟩)⟩
            simp [takeItems_some_some, hs, hr, hm]
          · simp only [hs, he, hg, if_true, if_false, Option.some.injEq, Prod.mk.injEq] at h
            obtain ⟨rfl, rfl⟩ := h
            refine ⟨.inr ⟨rfl, rfl⟩, iff_of_false (· rfl) ?_⟩
            rintro (⟨⟨⟩, -⟩ | ⟨_, _, ⟨⟩, ⟨⟩, -, hle⟩)
            omega
      · simp only [hs, if_false, Option.some.injEq, Prod.mk.injEq] at h
        obtain ⟨rfl, rfl⟩ := h
        refine ⟨.inr ⟨rfl, rfl⟩, iff_of_false (· rfl) ?_⟩
        rintro (⟨⟨⟩, -⟩ | ⟨_, _, ⟨⟩, ⟨⟩, hs', -⟩)
        exact hs hs'

/-- The three facts an all-or-nothing equation gives. -/
theorem allOrNothing_of_eq {α : Type} {x : α × Bool} {c : Prop} [Decidable c] {a b : α}
    (h : x = if c then (a, true) else (b, false)) :
    (x.2 = true ↔ c) ∧ (x.2 = true → x.1 = a) ∧ (x.2 = false → x.1 = b) := by
  subst h
  split_ifs with hc <;> simp [hc]

/-- A `try_merge_all` that fails leaves the slot as it was. -/
theorem tryMergeAll_eq_false {other slot' : Option ItemStack}
    (h : tryMergeAll slot other = (slot', false)) : slot' = slot := by
  have := (allOrNothing_of_eq (tryMergeAll_eq slot other)).2.2
  rw [h] at this
  exact this rfl

/-- A `try_merge_all` that succeeds adds the incoming units to the slot. -/
theorem tryMergeAll_eq_true {other slot' : Option ItemStack}
    (h : tryMergeAll slot other = (slot', true)) :
    quantity slot' = quantity slot + quantity other := by
  obtain ⟨hiff, hfst, -⟩ := allOrNothing_of_eq (tryMergeAll_eq slot other)
  rw [h] at hiff hfst
  dsimp only at hiff hfst
  have hc := tryMerge_conserves slot other
  rw [hiff.mp rfl, ← hfst rfl, quantity_none] at hc
  omega

/-- A `try_take_all` that takes nothing leaves the slot as it was. -/
theorem tryTakeAll_eq_some_none {slot' : Option ItemStack}
    (h : tryTakeAll slot count = some (slot', none)) : slot' = slot := by
  cases count with
  | none =>
    obtain ⟨rfl, rfl⟩ := Prod.mk.inj (Option.some.inj h)
    rfl
  | some n =>
    cases slot with
    | none => cases h
    | some s =>
      rw [tryTakeAll_some_some] at h
      split_ifs at h <;> cases h <;> rfl

/-- A `try_take_all` that takes something takes the count out of the slot. -/
theorem tryTakeAll_eq_some_some {slot' : Option ItemStack} {t : ItemStack} {n : Nat}
    (h : tryTakeAll slot (some n) = some (slot', some t)) : quantity slot = quantity slot' + n := by
  rcases (tryTakeAll_of_eq_some h).1 with ⟨hq, ht⟩ | ⟨-, h'⟩
  · have hc := takeItems_conserves slot (some n)
    rw [← hq] at hc
    simp only [quantity_some, Option.getD_some] at hc ht
    omega
  · cases h'

/-- A stackable stack holding at least `n` gives up exactly `n` to `try_take_all`. -/
theorem tryTakeAll_of_stackable {s : ItemStack} {n : Nat} {slot' taken : Option ItemStack}
    (hs : s.stackable = true) (hn : n ≤ s.quantity)
    (h : tryTakeAll (some s) (some n) = some (slot', taken)) : s.quantity = quantity slot' + n := by
  rw [tryTakeAll_some_some, if_pos hs] at h
  split_ifs at h with h₁ h₂ <;> cases h
  · rw [quantity_none, Nat.zero_add, h₁]
  · rw [quantity_some, Nat.sub_add_cancel hn]
  · omega

end MaybeStack

open MaybeStack

/-! ### The laws -/

/-- **Merges conserve units, without overflow.** On `u32` fields the one addition of `try_merge`
stays below `2 ^ 32` and its one subtraction never goes below zero; the target's quantity and the
leftover's add up to what the target and the incoming stack held; the target keeps its name,
limit and flag, and a leftover has the incoming stack's. The same conservation holds on a slot. -/
theorem try_merge_conserves_quantity :
    (∀ s o : ItemStack, s.quantity < 2 ^ 32 → s.maxStack < 2 ^ 32 →
        (s.tryMerge o).1.quantity < 2 ^ 32 ∧ s.moveSize o ≤ o.quantity) ∧
      (∀ s o : ItemStack,
        s.quantity + o.quantity = (s.tryMerge o).1.quantity + quantity (s.tryMerge o).2 ∧
          (s.tryMerge o).1 = { s with quantity := (s.tryMerge o).1.quantity } ∧
          ∀ r, (s.tryMerge o).2 = some r → r = { o with quantity := r.quantity }) ∧
      ∀ slot other : Option ItemStack,
        quantity slot + quantity other =
          quantity (MaybeStack.tryMerge slot other).1 +
            quantity (MaybeStack.tryMerge slot other).2 := by
  refine ⟨fun _ _ hq hm ↦ ⟨ItemStack.tryMerge_fst_lt hq hm, ItemStack.moveSize_le_quantity⟩,
    fun s o ↦ ⟨ItemStack.tryMerge_conserves s o, ?_, fun _ h ↦ ItemStack.tryMerge_snd_eq h⟩,
    MaybeStack.tryMerge_conserves⟩
  obtain ⟨q, hq⟩ := ItemStack.tryMerge_fst_eq s o
  rw [hq]

/-- **`try_merge_all` is the all-or-nothing restriction of `try_merge`.** On a stack and on a
slot, it returns `true` exactly when `try_merge` leaves nothing, and then leaves the target as
`try_merge` does; when it returns `false` the target is as it was. On `u32` fields neither
overflows. -/
theorem try_merge_all_is_all_or_nothing :
    (∀ s o : ItemStack,
        ((s.tryMergeAll o).2 = true ↔ (s.tryMerge o).2 = none) ∧
          ((s.tryMergeAll o).2 = true → (s.tryMergeAll o).1 = (s.tryMerge o).1) ∧
          ((s.tryMergeAll o).2 = false → (s.tryMergeAll o).1 = s)) ∧
      (∀ s o : ItemStack, s.quantity < 2 ^ 32 → s.maxStack < 2 ^ 32 →
        (s.tryMergeAll o).1.quantity < 2 ^ 32 ∧ (s.tryMerge o).1.quantity < 2 ^ 32 ∧
          s.moveSize o ≤ o.quantity) ∧
      ∀ slot other : Option ItemStack,
        ((MaybeStack.tryMergeAll slot other).2 = true ↔ (MaybeStack.tryMerge slot other).2 = none) ∧
          ((MaybeStack.tryMergeAll slot other).2 = true →
            (MaybeStack.tryMergeAll slot other).1 = (MaybeStack.tryMerge slot other).1) ∧
          ((MaybeStack.tryMergeAll slot other).2 = false →
            (MaybeStack.tryMergeAll slot other).1 = slot) :=
  ⟨fun s o ↦ allOrNothing_of_eq (ItemStack.tryMergeAll_eq s o),
    fun _ _ hq hm ↦
      ⟨ItemStack.tryMergeAll_fst_lt hq hm, ItemStack.tryMerge_fst_lt hq hm,
        ItemStack.moveSize_le_quantity⟩,
    fun slot other ↦ allOrNothing_of_eq (MaybeStack.tryMergeAll_eq slot other)⟩

/-- **A `Stack(0)` item splits on a take.** `ItemStack::new` of a `Stack(0)` item gives a stack
of limit `0`, which every merge leaves alone; yet, being stackable, `take_items` and
`try_take_all` with any count below its quantity split it. -/
theorem stack_zero_items_split (name : String) (q n : Nat) (h : n < q) :
    (ItemStack.new ⟨name, some (.stack 0)⟩ q).maxStack = 0 ∧
      takeItems (some (ItemStack.new ⟨name, some (.stack 0)⟩ q)) (some n) =
        (some ⟨name, q - n, 0, true⟩, some ⟨name, n, 0, true⟩) ∧
      tryTakeAll (some (ItemStack.new ⟨name, some (.stack 0)⟩ q)) (some n) =
        some (some ⟨name, q - n, 0, true⟩, some ⟨name, n, 0, true⟩) := by
  have hr : q - n ≠ 0 := by omega
  have hm : min q n = n := by omega
  refine ⟨rfl, ?_, ?_⟩
  · rw [takeItems_some_some]
    simp [ItemStack.new, hr, hm]
  · rw [tryTakeAll_some_some]
    simp [ItemStack.new, Nat.ne_of_gt h, h]

/-- Five `ice` of a `Stack(0)` item: a take of two splits them. -/
theorem stack_zero_items_split_ice :
    2 < 5 ∧
      (ItemStack.new ⟨"ice", some (.stack 0)⟩ 5).maxStack = 0 ∧
      takeItems (some (ItemStack.new ⟨"ice", some (.stack 0)⟩ 5)) (some 2) =
        (some ⟨"ice", 5 - 2, 0, true⟩, some ⟨"ice", 2, 0, true⟩) ∧
      tryTakeAll (some (ItemStack.new ⟨"ice", some (.stack 0)⟩ 5)) (some 2) =
        some (some ⟨"ice", 5 - 2, 0, true⟩, some ⟨"ice", 2, 0, true⟩) :=
  ⟨by decide, stack_zero_items_split "ice" 5 2 (by decide)⟩

/-- **`try_take_all` panics exactly on an empty slot with a count**, and everywhere else is the
all-or-nothing restriction of `take_items`: it takes what `take_items` takes, exactly the
requested amount (the whole stack for no count), or takes nothing and leaves the slot; it takes
exactly from a full slot with no count, or from a stackable stack holding at least the count. -/
theorem try_take_all_panics_on_empty_slot :
    (∀ slot count, tryTakeAll slot count = none ↔ slot = none ∧ count ≠ none) ∧
      ∀ slot count slot' taken, tryTakeAll slot count = some (slot', taken) →
        (((slot', taken) = takeItems slot count ∧ quantity taken = count.getD (quantity slot)) ∨
            (slot' = slot ∧ taken = none)) ∧
          (taken ≠ none ↔ (count = none ∧ slot ≠ none) ∨
            ∃ s n, slot = some s ∧ count = some n ∧ s.stackable = true ∧ n ≤ s.quantity) :=
  ⟨fun _ _ ↦ tryTakeAll_eq_none_iff, fun _ _ _ _ ↦ tryTakeAll_of_eq_some⟩

/-- **Take bounds.** `take_items` hands out at most the count and at most what the slot holds,
the whole slot for no count; what the slot keeps and what it gives add up to what it held; the
slot empties exactly when the whole stack is handed out, which for a slot of at least one unit is
exactly when all its units are; and what it hands out is the slot's stack with a new quantity. -/
theorem take_items_bounds (slot : Option ItemStack) (count : Option Nat) :
    (∀ n, count = some n → quantity (takeItems slot count).2 ≤ min n (quantity slot)) ∧
      (count = none → (takeItems slot count).2 = slot) ∧
      quantity (takeItems slot count).1 + quantity (takeItems slot count).2 = quantity slot ∧
      ((takeItems slot count).1 = none ↔ (takeItems slot count).2 = slot) ∧
      ((∀ s, slot = some s → 0 < s.quantity) →
        ((takeItems slot count).1 = none ↔ quantity (takeItems slot count).2 = quantity slot)) ∧
      ∀ r, (takeItems slot count).2 = some r →
        ∃ s, slot = some s ∧ r = { s with quantity := r.quantity } := by
  refine ⟨fun n hn ↦ hn ▸ takeItems_snd_le slot n, fun hn ↦ hn ▸ rfl,
    takeItems_conserves slot count,
    takeItems_fst_eq_none_iff slot count, fun hpos ↦ ?_, fun _ h ↦ takeItems_snd_eq h⟩
  rw [takeItems_fst_eq_none_iff]
  refine ⟨fun h ↦ by rw [h], fun h ↦ ?_⟩
  cases hs : (takeItems slot count).2 with
  | none =>
    cases slot with
    | none => rfl
    | some s => simp only [hs, quantity_none, quantity_some] at h; exact absurd h (hpos s rfl).ne
  | some r =>
    obtain ⟨s, rfl, hr⟩ := takeItems_snd_eq hs
    rw [hs, quantity_some, quantity_some] at h
    rw [hr, h]

/-- A worn tool of quantity `0` (`ItemStack::new` of a `Wear` item with quantity `0`): a take
with a count hands out nothing, which is all of its units, yet the slot keeps the stack. -/
theorem take_keeps_empty_wear_stack :
    (takeItems (some (ItemStack.new ⟨"shovel", some (.wear 100)⟩ 0)) (some 1)).1 ≠ none ∧
      quantity (takeItems (some (ItemStack.new ⟨"shovel", some (.wear 100)⟩ 0)) (some 1)).2 =
        quantity (some (ItemStack.new ⟨"shovel", some (.wear 100)⟩ 0)) :=
  ⟨fun h ↦ (by cases h), rfl⟩

end Cuberef
