import Cuberef.Inventory
import Cuberef.Items.Laws
import Mathlib.Data.List.Forall2

/-!
# `try_insert` conserves items and fills what it can

`Inventory::try_insert` is two loops over the slots (`mergeIntoStacks`, `placeInEmpty`), and each
law below is proved once per loop, by induction on the slots with the offered stack generalised,
then put together for `tryInsert`.

* **Only mergeable slots and empty ones change**, so the number of slots is kept (`MayTouch`).
* **Conservation**: the items of the offered stack's name over the slots, plus the leftover,
  are those before plus the offered quantity. A merge moves units from the remainder into a
  slot of that name; a stack of that name that does not merge (limit `0`) is left as it was.
* **Maximality**: a leftover is returned only when no slot is empty and every stack that merges
  with the offered one is at or above its limit. A slot that hands a remainder on was filled to
  its limit by the saturating move, and the remainder keeps the offered stack's name and limit,
  so later slots merge with it exactly when they merge with the offered stack.
-/

namespace Cuberef

namespace ItemStack

variable {self stack r : ItemStack}

/-- Whether a stack merges with another depends only on the other's name and limit. -/
theorem mergeable_with_quantity (x : ItemStack) (q : Nat) :
    x.Mergeable { stack with quantity := q } ↔ x.Mergeable stack := Iff.rfl

theorem tryMerge_fst_mergeable_iff :
    (self.tryMerge stack).1.Mergeable stack ↔ self.Mergeable stack := by
  obtain ⟨q, hq⟩ := tryMerge_fst_eq self stack
  rw [hq]
  exact Iff.rfl

/-- A target that hands a remainder on was filled to its limit, or was over it already. -/
theorem tryMerge_fst_full (h : (self.tryMerge stack).2 = some r) (hm : self.Mergeable stack) :
    (self.tryMerge stack).1.maxStack ≤ (self.tryMerge stack).1.quantity := by
  rw [tryMerge_of_mergeable hm] at h ⊢
  simp only [moveSize] at h ⊢
  split_ifs at h with hr
  omega

/-- One merge, counted under the offered stack's name. -/
theorem slotCount_tryMerge (self stack : ItemStack) :
    slotCount stack.itemName (some (self.tryMerge stack).1) +
        MaybeStack.quantity (self.tryMerge stack).2 =
      slotCount stack.itemName (some self) + stack.quantity := by
  by_cases hm : self.Mergeable stack
  · simp only [slotCount, tryMerge_fst_itemName, hm.2.2, if_true]
    exact (tryMerge_conserves self stack).symm
  · rw [tryMerge_of_not_mergeable hm]
    rfl

end ItemStack

namespace Inventory

/-- What `try_insert` with `stack` may do to one slot: keep it, fill it when it was empty, or
merge into it when it holds a stack that merges with `stack`. -/
def MayTouch (stack : ItemStack) (before after : Option ItemStack) : Prop :=
  after = before ∨ before = none ∨ ∃ x, before = some x ∧ x.Mergeable stack

section Loops

variable {slots : List (Option ItemStack)} {stack r : ItemStack}

theorem mayTouch_refl (stack : ItemStack) (slot : Option ItemStack) : MayTouch stack slot slot :=
  .inl rfl

theorem mayTouch_with_quantity {a b : Option ItemStack} (q : Nat) :
    MayTouch { stack with quantity := q } a b ↔ MayTouch stack a b := Iff.rfl

theorem MayTouch.trans {a b c : Option ItemStack} (h₁ : MayTouch stack a b)
    (h₂ : MayTouch stack b c) : MayTouch stack a c := by
  rcases h₁ with rfl | h | h
  · exact h₂
  · exact .inr (.inl h)
  · exact .inr (.inr h)

theorem forall₂_mayTouch_trans {l₁ l₂ l₃ : List (Option ItemStack)}
    (h₁ : List.Forall₂ (MayTouch stack) l₁ l₂) (h₂ : List.Forall₂ (MayTouch stack) l₂ l₃) :
    List.Forall₂ (MayTouch stack) l₁ l₃ := by
  induction h₁ generalizing l₃ with
  | nil => exact h₂
  | cons hab _ ih =>
    cases h₂ with
    | cons hbc h₂ => exact .cons (hab.trans hbc) (ih h₂)

/-- The merging loop touches only the slots `MayTouch` allows. -/
theorem mergeIntoStacks_mayTouch (slots : List (Option ItemStack)) (stack : ItemStack) :
    List.Forall₂ (MayTouch stack) slots (mergeIntoStacks slots stack).1 := by
  induction slots generalizing stack with
  | nil => exact .nil
  | cons slot slots ih =>
    cases slot with
    | none => exact .cons (.inl rfl) (ih stack)
    | some s =>
      have hs : MayTouch stack (some s) (some (s.tryMerge stack).1) := by
        by_cases hm : s.Mergeable stack
        · exact .inr (.inr ⟨s, rfl, hm⟩)
        · exact .inl (by rw [ItemStack.tryMerge_of_not_mergeable hm])
      simp only [mergeIntoStacks]
      split
      · next s' h' =>
        rw [h'] at hs
        exact .cons hs (List.forall₂_same.mpr fun x _ ↦ mayTouch_refl stack x)
      · next s' rem h' =>
        rw [h'] at hs
        have hrem := (MaybeStack.tryMerge_snd_eq (by simp [h'] :
          (MaybeStack.tryMerge (some s) (some stack)).2 = some rem)).1
        refine .cons hs ((ih rem).imp fun a b h ↦ ?_)
        rw [hrem, mayTouch_with_quantity] at h
        exact h

/-- **The merging loop conserves the offered stack's items.** -/
theorem mergeIntoStacks_conserves (slots : List (Option ItemStack)) (stack : ItemStack) :
    itemCount stack.itemName (mergeIntoStacks slots stack).1 +
        MaybeStack.quantity (mergeIntoStacks slots stack).2 =
      itemCount stack.itemName slots + stack.quantity := by
  induction slots generalizing stack with
  | nil => simp [mergeIntoStacks]
  | cons slot slots ih =>
    cases slot with
    | none =>
      have := ih stack
      simp only [mergeIntoStacks, itemCount_cons, slotCount] at this ⊢
      omega
    | some s =>
      have hs := ItemStack.slotCount_tryMerge s stack
      simp only [mergeIntoStacks]
      split
      · next s' h' =>
        rw [h'] at hs
        simp only [itemCount_cons, MaybeStack.quantity_none] at hs ⊢
        omega
      · next s' rem h' =>
        rw [h'] at hs
        have hrem := (MaybeStack.tryMerge_snd_eq (by simp [h'] :
          (MaybeStack.tryMerge (some s) (some stack)).2 = some rem)).1
        have hname : rem.itemName = stack.itemName := by rw [hrem]
        have := ih rem
        rw [hname] at this
        simp only [itemCount_cons, MaybeStack.quantity_some] at hs this ⊢
        omega

/-- **A remainder past the merging loop means every mergeable stack is full.** -/
theorem mergeIntoStacks_full (slots : List (Option ItemStack)) (stack : ItemStack)
    (h : (mergeIntoStacks slots stack).2 = some r) :
    ∀ x, some x ∈ (mergeIntoStacks slots stack).1 → x.Mergeable stack →
      x.maxStack ≤ x.quantity := by
  induction slots generalizing stack with
  | nil => simp [mergeIntoStacks]
  | cons slot slots ih =>
    cases slot with
    | none =>
      intro x hx
      simp only [mergeIntoStacks, List.mem_cons, reduceCtorEq, false_or] at h hx
      exact ih stack h x hx
    | some s =>
      simp only [mergeIntoStacks] at h ⊢
      split at h
      · cases h
      · next s' rem h' =>
        have hrem := (MaybeStack.tryMerge_snd_eq (by simp [h'] :
          (MaybeStack.tryMerge (some s) (some stack)).2 = some rem)).1
        intro x hx hm
        rcases List.mem_cons.mp hx with hx | hx
        · cases hx
          have hs' : s' = (s.tryMerge stack).1 := by rw [h']
          have hsm : s.Mergeable stack := by
            rw [← ItemStack.tryMerge_fst_mergeable_iff, ← hs']
            exact hm
          rw [hs']
          exact ItemStack.tryMerge_fst_full (by rw [h']) hsm
        · rw [← ItemStack.mergeable_with_quantity x rem.quantity, ← hrem] at hm
          exact ih rem h x hx hm

/-- The placing loop fills the first empty slot, and only that one. -/
theorem placeInEmpty_mayTouch (slots : List (Option ItemStack)) (stack : ItemStack) :
    List.Forall₂ (MayTouch stack) slots (placeInEmpty slots stack).1 := by
  induction slots with
  | nil => exact .nil
  | cons slot slots ih =>
    cases slot with
    | none => exact .cons (.inr (.inl rfl)) (List.forall₂_same.mpr fun x _ ↦ mayTouch_refl stack x)
    | some s => exact .cons (.inl rfl) ih

/-- **The placing loop conserves the offered stack's items.** -/
theorem placeInEmpty_conserves (slots : List (Option ItemStack)) (stack : ItemStack) :
    itemCount stack.itemName (placeInEmpty slots stack).1 +
        MaybeStack.quantity (placeInEmpty slots stack).2 =
      itemCount stack.itemName slots + stack.quantity := by
  induction slots with
  | nil => simp [placeInEmpty]
  | cons slot slots ih =>
    cases slot with
    | none => simp [placeInEmpty, slotCount, Nat.add_comm]
    | some s =>
      simp only [placeInEmpty, itemCount_cons] at ih ⊢
      omega

/-- The placing loop returns the stack only when no slot is empty, and then changes nothing. -/
theorem placeInEmpty_of_snd (h : (placeInEmpty slots stack).2 = some r) :
    none ∉ slots ∧ (placeInEmpty slots stack).1 = slots := by
  induction slots with
  | nil => exact ⟨List.not_mem_nil _, rfl⟩
  | cons slot slots ih =>
    cases slot with
    | none => cases h
    | some s =>
      obtain ⟨hn, he⟩ := ih h
      refine ⟨?_, by simp only [placeInEmpty, he]⟩
      simpa using hn

end Loops

/-- `try_insert` returns as its leftover what it did not put into the slots. -/
theorem tryInsert_count (inv : Inventory) (s : ItemStack) :
    itemCount s.itemName (inv.tryInsert s).1.contents + MaybeStack.quantity (inv.tryInsert s).2 =
      itemCount s.itemName inv.contents + s.quantity := by
  have hc := mergeIntoStacks_conserves inv.contents s
  unfold tryInsert
  split
  · next contents h' => rwa [h'] at hc
  · next contents rem h' =>
    have hrem := (mergeIntoStacks_snd (by rw [h'])).1
    have hname : rem.itemName = s.itemName := by rw [hrem]
    have hp := placeInEmpty_conserves contents rem
    rw [h'] at hc
    rw [hname] at hp
    simp only [MaybeStack.quantity_some] at hc hp ⊢
    omega

/-- **`try_insert` conserves items and fills what it can.** It keeps the number of slots and
changes only slots that were empty or held a stack that merges with `s`; the items of `s`'s name
over the slots plus the leftover are those before plus `s`'s quantity; and it returns a leftover
only when, afterwards, no slot is empty and every stack that merges with `s` is at or above its
limit. -/
theorem try_insert_conserves_items (inv : Inventory) (s : ItemStack) :
    (inv.tryInsert s).1.contents.length = inv.contents.length ∧
      List.Forall₂ (MayTouch s) inv.contents (inv.tryInsert s).1.contents ∧
      itemCount s.itemName (inv.tryInsert s).1.contents + MaybeStack.quantity (inv.tryInsert s).2 =
        itemCount s.itemName inv.contents + s.quantity ∧
      ((inv.tryInsert s).2 ≠ none →
        none ∉ (inv.tryInsert s).1.contents ∧
          ∀ x, some x ∈ (inv.tryInsert s).1.contents → x.Mergeable s →
            x.maxStack ≤ x.quantity) := by
  have hm := mergeIntoStacks_mayTouch inv.contents s
  have hf := fun r (h : (mergeIntoStacks inv.contents s).2 = some r) ↦
    mergeIntoStacks_full inv.contents s h
  have hc := tryInsert_count inv s
  unfold tryInsert at hc ⊢
  split
  · next contents h' =>
    rw [h'] at hm hc
    exact ⟨hm.length_eq.symm, hm, hc, fun h ↦ absurd rfl h⟩
  · next contents rem h' =>
    have hrem := (mergeIntoStacks_snd (by rw [h'])).1
    rw [h'] at hm hf hc
    have htouch := forall₂_mayTouch_trans hm
      ((placeInEmpty_mayTouch contents rem).imp fun a b h ↦ by
        rwa [hrem, mayTouch_with_quantity] at h)
    refine ⟨htouch.length_eq.symm, htouch, hc, fun hne ↦ ?_⟩
    obtain ⟨r, hr⟩ := Option.ne_none_iff_exists'.mp hne
    obtain ⟨hn, he⟩ := placeInEmpty_of_snd hr
    simp only [he]
    exact ⟨hn, hf rem rfl⟩

end Inventory

/-! ### Stack limits -/

/-- **Stack limits under merging.** Let a slot be within its limit and `o` within its own. Then
`MaybeStack::try_merge` leaves the slot within the limit of the stack it holds and returns the
excess as its leftover: the slot and the leftover hold what the slot and `o` held, and a leftover
is `o` with a new quantity. A successful `try_merge_all` leaves the slot within that limit. On an
inventory whose stacks are all within their limits, `Inventory::try_insert` keeps them so and
returns the excess in the same way. -/
theorem stack_limit_of_merge (slot : Option ItemStack) (o : ItemStack) (hslot : WithinLimit slot)
    (ho : o.quantity ≤ o.maxStack) :
    WithinLimit (MaybeStack.tryMerge slot (some o)).1 ∧
      MaybeStack.quantity slot + o.quantity =
        MaybeStack.quantity (MaybeStack.tryMerge slot (some o)).1 +
          MaybeStack.quantity (MaybeStack.tryMerge slot (some o)).2 ∧
      (∀ r, (MaybeStack.tryMerge slot (some o)).2 = some r → r = { o with quantity := r.quantity }) ∧
      ((MaybeStack.tryMergeAll slot (some o)).2 = true →
        WithinLimit (MaybeStack.tryMergeAll slot (some o)).1) ∧
      ∀ inv : Inventory, AllWithinLimit inv.contents →
        AllWithinLimit (inv.tryInsert o).1.contents ∧
          itemCount o.itemName (inv.tryInsert o).1.contents + MaybeStack.quantity (inv.tryInsert o).2 =
            itemCount o.itemName inv.contents + o.quantity ∧
          ∀ r, (inv.tryInsert o).2 = some r → r = { o with quantity := r.quantity } := by
  have ho' : WithinLimit (some o) := ho
  refine ⟨MaybeStack.tryMerge_within hslot ho', MaybeStack.tryMerge_conserves slot (some o),
    fun r hr ↦ (MaybeStack.tryMerge_snd_eq hr).1, MaybeStack.tryMergeAll_within hslot ho',
    fun inv hinv ↦ ?_⟩
  obtain ⟨h₁, h₂⟩ := Inventory.tryInsert_within hinv ho'
  exact ⟨h₁, Inventory.tryInsert_count inv o, h₂⟩

/-- A slot of 200 `dirt` offered 50 more, and an empty `1 × 2` inventory offered the same. -/
theorem stack_limit_of_merge_dirt :
    WithinLimit (some ⟨"dirt", 200, 256, true⟩) ∧ (50 ≤ 256) ∧
      WithinLimit (MaybeStack.tryMerge (some ⟨"dirt", 200, 256, true⟩)
        (some ⟨"dirt", 50, 256, true⟩)).1 ∧
      AllWithinLimit (Inventory.tryInsert ⟨⟨⟨List.replicate 16 0, rfl⟩⟩, (1, 2), [none, none]⟩
        ⟨"dirt", 50, 256, true⟩).1.contents :=
  have h := stack_limit_of_merge (some ⟨"dirt", 200, 256, true⟩) ⟨"dirt", 50, 256, true⟩
    (by decide) (by decide)
  ⟨by decide, by decide, h.1,
    (h.2.2.2.2 ⟨⟨⟨List.replicate 16 0, rfl⟩⟩, (1, 2), [none, none]⟩
      (by simp [AllWithinLimit])).1⟩

/-- **Scenario A.** An empty slot offered 300 `dirt` with a limit of 256 takes all 300 and
returns no leftover, so the slot ends above its limit, where a cap at `max_stack` as
`ItemStack::try_merge` applies would leave 256 and return 44. `try_insert` into the `1 × 1`
inventory `Inventory::new` builds does the same. -/
theorem empty_slot_takes_oversized_stack :
    MaybeStack.tryMerge none (some ⟨"dirt", 300, 256, true⟩) =
        (some ⟨"dirt", 300, 256, true⟩, none) ∧
      ¬ WithinLimit (MaybeStack.tryMerge none (some ⟨"dirt", 300, 256, true⟩)).1 ∧
      ∃ inv, Inventory.new (1, 1) ⟨List.replicate 16 0, rfl⟩ = .ok inv ∧
        (inv.tryInsert ⟨"dirt", 300, 256, true⟩).1.contents = [some ⟨"dirt", 300, 256, true⟩] ∧
        (inv.tryInsert ⟨"dirt", 300, 256, true⟩).2 = none :=
  ⟨rfl, by decide, _, rfl, rfl, rfl⟩

end Cuberef
