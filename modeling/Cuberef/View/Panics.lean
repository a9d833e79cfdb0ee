import Cuberef.View
import Cuberef.InventoryManager.Refinement

/-!
# When a view operation panics

`take` and `put` check `slot < rows * cols` against the dimensions the view was built with, then
`unwrap` the slot (`get_mut(slot).unwrap()`): in the view's own vector for a transient view, and
in the stored inventory's slots, inside a mutation, for a stored one. The check covers the unwrap
only while the stored inventory keeps the number of slots it had when the view was built.

A mutator is handed `&mut Inventory` and may overwrite it with any inventory it owns, such as a
copy `InventoryManager::get` returned for another key (`*inv = other`), and
`mutate_inventory_atomically` writes what the mutator leaves under the key it was called with. The
record under that key then reads back with fewer slots, and a stored view built earlier passes its
check and unwraps a slot that is not there (`replaced_inventory_panics_view`).

Where every mutator keeps the shape it was handed, as the calls the abstract map of
`InventoryManager.Refinement` covers do, the check does cover the unwrap. A key keeps the
dimensions of its inventory over every such call that does not make a new inventory under it
(`keepsShapeAt_of_specCalls`), so a stored view built over such calls returns from `take` and
`put` at every slot its check admits, after any further such calls
(`stored_view_ops_return_under_shape_keeping_calls`). The view's own operations are such calls
whenever they leave only named stacks.

A transient view needs no such condition: `take` and `put` only `set` its slots, so a view
`new_transient` built fills its grid over any sequence of them (`runOps_fillsGrid`), and its
check covers its unwrap (`transient_view_ops_return`).
-/

namespace Cuberef

namespace InventoryView

open InventoryManager

/-- The key of a `1 × 2` inventory. -/
def wideKey : InventoryKey := ⟨⟨List.replicate 16 5, rfl⟩⟩

/-- The key of a `1 × 1` inventory. -/
def narrowKey : InventoryKey := ⟨⟨List.replicate 16 6, rfl⟩⟩

/-- The in-memory store after `make_inventory(1, 2)` and `make_inventory(1, 1)`. -/
def twoInventories : InventoryManager :=
  (makeInventory 1 1 narrowKey.id (makeInventory 1 2 wideKey.id ⟨.inMem, []⟩).state).state

/-- The copy of the `1 × 1` inventory that `get` hands out. -/
def narrowCopy : Inventory := ⟨narrowKey, (1, 1), [none]⟩

/-- The mutator `|inv| { *inv = other; Ok(()) }`. -/
def replaceWith (other : Inventory) : Mutator Unit := fun _ ↦ some (other, .ok ())

/-- The stored view of the `1 × 2` inventory, as `new_stored` builds it. -/
def wideView : InventoryView := ⟨(1, 2), true, true, .stored wideKey, 1⟩

/-- The store after the `1 × 2` inventory was overwritten by the copy of the `1 × 1` one. -/
def afterReplace : InventoryManager :=
  (mutateInventoryAtomically wideKey (replaceWith narrowCopy) twoInventories).state

/-- **A view's slot check does not cover its unwrap.** `get` hands out a copy of the `1 × 1`
inventory; a mutation of the `1 × 2` one overwrites it with that copy and returns `Ok`, and the
record then reads back with one slot. The stored view built before it still admits slot `1`, and
both `take` and `put` there panic on the unwrap inside the mutation. -/
theorem replaced_inventory_panics_view :
    (InventoryManager.get narrowKey twoInventories).toExcept = .ok (some narrowCopy) ∧
      (newStored wideKey true true 1 twoInventories).toExcept = .ok wideView ∧
      (mutateInventoryAtomically wideKey (replaceWith narrowCopy) twoInventories).toExcept =
        .ok () ∧
      (InventoryManager.get wideKey afterReplace).toExcept = .ok (some ⟨wideKey, (1, 1), [none]⟩) ∧
      1 < wideView.dimensions.1 * wideView.dimensions.2 ∧
      (wideView.take 1 none afterReplace).toExcept = .error (.panic "mutator panicked") ∧
      (wideView.put 1 ⟨none, dirt 1⟩ afterReplace).toExcept = .error (.panic "mutator panicked") :=
  ⟨rfl, rfl, rfl, rfl, by decide, rfl, rfl⟩

end InventoryView

/-! ### Views over calls that keep the shape -/

namespace Stored

theorem replace_dimensions {a a' : Stored} {inv : Inventory} (h : a.replace inv = some a') :
    a'.dimensions = a.dimensions := by
  unfold replace at h
  split_ifs at h with hs
  cases h
  exact hs.1

end Stored

/-- From `M` to `M'`, an inventory under `key` stays there, with the same dimensions. -/
def KeepsShapeAt (key : InventoryKey) (M M' : InventoryMap) : Prop :=
  ∀ a, M key = some a → ∃ a', M' key = some a' ∧ a'.dimensions = a.dimensions

namespace KeepsShapeAt

variable {key : InventoryKey} {M M₁ M₂ : InventoryMap}

theorem refl : KeepsShapeAt key M M := fun a ha ↦ ⟨a, ha, rfl⟩

theorem trans (h₁ : KeepsShapeAt key M M₁) (h₂ : KeepsShapeAt key M₁ M₂) : KeepsShapeAt key M M₂ :=
  fun a ha ↦
    let ⟨a₁, ha₁, hd₁⟩ := h₁ a ha
    let ⟨a₂, ha₂, hd₂⟩ := h₂ a₁ ha₁
    ⟨a₂, ha₂, hd₂.trans hd₁⟩

/-- Writing `b` under a key keeps every shape, when `b` has the dimensions held there. -/
theorem update {k : InventoryKey} {b : Stored}
    (h : ∀ c, M k = some c → b.dimensions = c.dimensions) :
    KeepsShapeAt key M (Function.update M k (some b)) := by
  intro a ha
  by_cases hk : key = k
  · subst hk
    exact ⟨b, Function.update_same _ _ _, h a ha⟩
  · exact ⟨a, by rw [Function.update_noteq hk]; exact ha, rfl⟩

end KeepsShapeAt

namespace InventoryMap

theorem lookupAll_mem {M : InventoryMap} {keys : List InventoryKey}
    {loaded : List (InventoryKey × Stored)} (h : M.lookupAll keys = some loaded) :
    ∀ p ∈ loaded, M p.1 = some p.2 := by
  induction keys generalizing loaded with
  | nil => cases h; exact fun p hp ↦ nomatch hp
  | cons key keys ih =>
    obtain ⟨a, rest, hk, hr, rfl⟩ := lookupAll_cons_eq_some h
    intro p hp
    rcases List.mem_cons.mp hp with rfl | hp
    · exact hk
    · exact ih hr p hp

/-- The many-key write-back keeps every shape, when each inventory it replaces has the
dimensions the map holds under its key. -/
theorem replaceAll_keepsShapeAt {key : InventoryKey} {M M' : InventoryMap}
    {loaded : List (InventoryKey × Stored)} {invs : List Inventory}
    (hr : M.replaceAll loaded invs = some M')
    (hl : ∀ p ∈ loaded, ∃ c, M p.1 = some c ∧ c.dimensions = p.2.dimensions) :
    KeepsShapeAt key M M' := by
  induction loaded generalizing M invs with
  | nil => cases invs <;> cases hr; exact .refl
  | cons p loaded ih =>
    obtain ⟨k, b⟩ := p
    cases invs with
    | nil => cases hr
    | cons inv invs =>
      simp only [replaceAll] at hr
      split_ifs at hr
      split at hr
      · next b' hb' =>
        obtain ⟨c, hc, hcd⟩ := hl (k, b) (List.mem_cons_self _ _)
        have hd : b'.dimensions = c.dimensions := (Stored.replace_dimensions hb').trans hcd.symm
        refine (KeepsShapeAt.update fun c' hc' ↦ ?_).trans (ih hr fun q hq ↦ ?_)
        · rw [hc] at hc'
          cases hc'
          exact hd
        · obtain ⟨c', hc', hcd'⟩ := hl q (List.mem_cons_of_mem _ hq)
          by_cases hqk : q.1 = k
          · rw [hqk] at hc' ⊢
            rw [hc] at hc'
            cases hc'
            exact ⟨b', Function.update_same _ _ _, hd.trans hcd'⟩
          · exact ⟨c', by rw [Function.update_noteq hqk]; exact hc', hcd'⟩
      · cases hr

end InventoryMap

namespace Call

/-- The call makes an inventory under `key`. -/
def Makes (key : InventoryKey) : Call → Prop
  | makeInventory _ _ id => ⟨id⟩ = key
  | _ => False

variable {key : InventoryKey} {M M' : InventoryMap} {r : Option Reply}

/-- **One step of the map keeps the shape under a key** it does not make an inventory under. -/
theorem keepsShapeAt_of_spec (c : Call) (hs : c.spec M = some (r, M')) (hc : ¬ c.Makes key) :
    KeepsShapeAt key M M' := by
  cases c with
  | makeInventory height width id =>
    simp only [spec] at hs
    split_ifs at hs <;> cases hs
    · exact fun a ha ↦ ⟨a, by rw [Function.update_noteq (Ne.symm hc)]; exact ha, rfl⟩
    · exact .refl
  | get k => cases hs; exact .refl
  | mutateInventoryAtomically k mutator =>
    simp only [spec] at hs
    split at hs
    case h_1 => cases hs; exact .refl
    case h_2 b hb =>
      split at hs
      case h_2 => cases hs
      case h_1 inv t hmut =>
        obtain ⟨b', hb', ⟨⟩⟩ := Option.map_eq_some'.mp hs
        refine KeepsShapeAt.update fun c hc ↦ ?_
        rw [hb] at hc
        cases hc
        exact Stored.replace_dimensions hb'
  | mutateInventoriesAtomically keys mutator =>
    simp only [spec] at hs
    split at hs
    case h_1 => cases hs; exact .refl
    case h_2 loaded hl =>
      split at hs
      case h_2 => cases hs
      case h_1 invs t hmut =>
        obtain ⟨M₁, hr, ⟨⟩⟩ := Option.map_eq_some'.mp hs
        exact InventoryMap.replaceAll_keepsShapeAt hr fun p hp ↦
          ⟨p.2, InventoryMap.lookupAll_mem hl p hp, rfl⟩

end Call

/-- **A run of the map keeps the shape under a key** none of its calls makes an inventory
under. -/
theorem keepsShapeAt_of_specCalls {key : InventoryKey} (calls : List Call) {M M' : InventoryMap}
    {replies : List (Option Reply)} (hs : specCalls calls M = some (replies, M'))
    (hc : ∀ c ∈ calls, ¬ c.Makes key) : KeepsShapeAt key M M' := by
  induction calls generalizing M replies with
  | nil => cases hs; exact .refl
  | cons c cs ih =>
    simp only [specCalls] at hs
    split at hs
    case h_2 => cases hs
    case h_1 r M₁ hc₁ =>
      obtain ⟨⟨rs, M₂⟩, hrest, hs⟩ := Option.map_eq_some'.mp hs
      cases hs
      exact (c.keepsShapeAt_of_spec hc₁ (hc c (List.mem_cons_self _ _))).trans
        (ih hrest fun c' hc' ↦ hc c' (List.mem_cons_of_mem _ hc'))

namespace InventoryView

open InventoryManager

variable {m m' : InventoryManager} {M : InventoryMap} {key : InventoryKey} {a : Stored}
  {view : InventoryView} {slot : Nat}

theorem checkSlot_of_lt (h : slot < view.dimensions.1 * view.dimensions.2) :
    view.checkSlot slot m = .ok () m := by
  simp only [checkSlot, h, if_true]
  rfl

/-- A new stored view over a store that holds the map has the dimensions the map holds under its
key. -/
theorem newStored_of_refines {canPlace canTake : Bool} {id : Nat} (h : Refines m M)
    (hv : newStored key canPlace canTake id m = .ok view m') :
    ∃ a, M key = some a ∧ view = ⟨a.dimensions, canPlace, canTake, .stored key, id⟩ ∧
      Refines m' M := by
  unfold newStored at hv
  rw [bind_of_ok (InventoryManager.get_of_refines h key)] at hv
  cases hk : M key with
  | none => rw [hk] at hv; cases hv
  | some a =>
    rw [hk] at hv
    cases hv
    exact ⟨a, rfl, rfl, h.tick⟩

/-- A slot operation in range of a stored inventory returns, with what `f` returns. -/
theorem mutate_onSlot_of_refines {α : Type} (h : Refines m M) (hk : M key = some a)
    (hs : slot < a.contents.length) (f : Option ItemStack → Option ItemStack × α) :
    ∃ m', mutateInventoryAtomically key (onSlot slot f) m = .ok (f a.contents[slot]).2 m' := by
  have hon : onSlot slot f (a.withKey key) =
      some ({ a.withKey key with contents := a.contents.set slot (f a.contents[slot]).1 },
        .ok (f a.contents[slot]).2) := by
    simp only [onSlot, Stored.withKey, List.getElem?_eq_getElem hs]
  unfold mutateInventoryAtomically
  rw [bind_of_ok (load_of_refines_some h hk), hon, runMutator_some_bind]
  exact ⟨_, bind_of_ok (writeBack_of_reliable h.tick.dbReliable)⟩

/-- The slot count of an inventory the map holds, from the dimensions a view read off it. -/
theorem lt_length_of_dimensions (hd : view.dimensions = a.dimensions)
    (hs : slot < view.dimensions.1 * view.dimensions.2) : slot < a.contents.length := by
  rw [← a.shape.2.1, ← hd, Nat.mul_comm]
  exact hs

theorem take_of_refines (h : Refines m M) (hb : view.backing = .stored key) (hk : M key = some a)
    (hd : view.dimensions = a.dimensions) (hs : slot < view.dimensions.1 * view.dimensions.2)
    (count : Option Nat) : ∃ r m', view.take slot count m = .ok r m' := by
  obtain ⟨m', hm⟩ := mutate_onSlot_of_refines h hk (lt_length_of_dimensions hd hs)
    (MaybeStack.takeItems · count)
  unfold take
  rw [bind_of_ok (checkSlot_of_lt hs)]
  simp only [hb]
  rw [bind_of_ok hm]
  exact ⟨_, _, rfl⟩

theorem put_of_refines (h : Refines m M) (hb : view.backing = .stored key) (hk : M key = some a)
    (hd : view.dimensions = a.dimensions) (hs : slot < view.dimensions.1 * view.dimensions.2)
    (stack : BorrowedStack) : ∃ r m', view.put slot stack m = .ok r m' := by
  obtain ⟨m', hm⟩ := mutate_onSlot_of_refines h hk (lt_length_of_dimensions hd hs)
    (MaybeStack.tryMerge · (some stack.borrowedStack))
  unfold put
  rw [bind_of_ok (checkSlot_of_lt hs)]
  simp only [hb]
  rw [bind_of_ok hm]
  exact ⟨_, _, rfl⟩

/-- **Under shape-keeping calls a stored view's check covers its unwrap.** Build a stored view
after any calls the abstract map covers, from the empty in-memory store, then run any further
such calls, none of which makes an inventory under the view's key. At every slot the view's
check admits, `take` with any count and `put` of any stack return. -/
theorem stored_view_ops_return_under_shape_keeping_calls (calls₁ calls₂ : List Call)
    {M₁ M₂ : InventoryMap} {replies₁ replies₂ : List (Option Reply)} {canPlace canTake : Bool}
    {id : Nat} {m₁ : InventoryManager}
    (h₁ : specCalls calls₁ (fun _ ↦ none) = some (replies₁, M₁))
    (hview : newStored key canPlace canTake id (runCalls calls₁ ⟨.inMem, []⟩).2 = .ok view m₁)
    (h₂ : specCalls calls₂ M₁ = some (replies₂, M₂)) (hc : ∀ c ∈ calls₂, ¬ c.Makes key)
    (hs : slot < view.dimensions.1 * view.dimensions.2) :
    (∀ count, ∃ r m', view.take slot count (runCalls calls₂ m₁).2 = .ok r m') ∧
      ∀ stack, ∃ r m', view.put slot stack (runCalls calls₂ m₁).2 = .ok r m' := by
  obtain ⟨a, hk, rfl, hm₁⟩ := newStored_of_refines (manager_refines_inventory_map calls₁ h₁).2 hview
  have hm₂ := (runCalls_refines calls₂ hm₁ h₂).2
  obtain ⟨a₂, hk₂, hd⟩ := keepsShapeAt_of_specCalls calls₂ h₂ hc a hk
  exact ⟨take_of_refines hm₂ rfl hk₂ hd.symm hs, put_of_refines hm₂ rfl hk₂ hd.symm hs⟩

/-- The `1 × 2` inventory, and the stored view built over it after `make_inventory(1, 2)`. -/
def wideStore : InventoryManager :=
  (newStored wideKey true true 1 (runCalls [.makeInventory 1 2 wideKey.id] ⟨.inMem, []⟩).2).state

/-- After a mutation that fills slot 0 of the `1 × 2` inventory and a `get`, the view built over
it before them returns at slot `1`. -/
theorem stored_view_ops_return_after_fill :
    (∀ count, ∃ r m', wideView.take 1 count
        (runCalls [.mutateInventoryAtomically wideKey fillFirst, .get wideKey] wideStore).2 =
          .ok r m') ∧
      ∀ stack, ∃ r m', wideView.put 1 stack
        (runCalls [.mutateInventoryAtomically wideKey fillFirst, .get wideKey] wideStore).2 =
          .ok r m' :=
  stored_view_ops_return_under_shape_keeping_calls [.makeInventory 1 2 wideKey.id]
    [.mutateInventoryAtomically wideKey fillFirst, .get wideKey]
    rfl (show newStored wideKey true true 1 _ = .ok wideView wideStore from rfl) rfl
    (by simp [Call.Makes]) (by decide)

/-! ### Transient views -/

/-- A call on a view. -/
inductive ViewOp
  | take (slot : Nat) (count : Option Nat)
  | put (slot : Nat) (stack : BorrowedStack)

/-- The call, on a view. -/
def ViewOp.run : ViewOp → InventoryView →
    EStateM Error InventoryManager (InventoryView × Option BorrowedStack)
  | .take slot count, view => view.take slot count
  | .put slot stack, view => view.put slot stack

/-- Calls in turn, each on the view the last one left; a call that fails leaves the view. -/
def runOps : List ViewOp → InventoryView → InventoryManager → InventoryView × InventoryManager
  | [], view, m => (view, m)
  | op :: ops, view, m =>
    match op.run view m with
    | .ok (view', _) m' => runOps ops view' m'
    | .error _ m' => runOps ops view m'

/-- The view holds its own slots, as many as its grid has. -/
def FillsGrid (view : InventoryView) : Prop :=
  ∃ contents, view.backing = .transient contents ∧
    contents.length = view.dimensions.1 * view.dimensions.2

theorem newTransient_fillsGrid {dimensions : Nat × Nat}
    {initialContents : List (Option BorrowedStack)} {canPlace canTake : Bool} {id : Nat}
    (h : newTransient dimensions initialContents canPlace canTake id = .ok view) :
    view.FillsGrid ∧ view.dimensions = dimensions := by
  unfold newTransient at h
  dsimp only at h
  split at h <;> split at h <;> cases h
  all_goals exact ⟨⟨_, rfl, ‹dimensions.1 * dimensions.2 = _›.symm⟩, rfl⟩

theorem take_fillsGrid {count : Option Nat} {view' : InventoryView} {r : Option BorrowedStack}
    (hf : view.FillsGrid) (h : view.take slot count m = .ok (view', r) m') :
    view'.FillsGrid ∧ view'.dimensions = view.dimensions := by
  obtain ⟨contents, hb, hl⟩ := hf
  unfold take at h
  obtain ⟨u, m₁, -, h⟩ := bind_eq_ok h
  simp only [hb] at h
  cases hs : contents[slot]? with
  | none => simp only [hs] at h; cases h
  | some x =>
    cases x with
    | none => simp only [hs] at h; cases h; exact ⟨⟨contents, hb, hl⟩, rfl⟩
    | some b =>
      rcases ht : MaybeStack.takeItems (some b.borrowedStack) count with ⟨inner, obtained⟩
      simp only [hs, ht] at h
      cases h
      exact ⟨⟨_, rfl, by rw [List.length_set]; exact hl⟩, rfl⟩

theorem put_fillsGrid {stack : BorrowedStack} {view' : InventoryView} {r : Option BorrowedStack}
    (hf : view.FillsGrid) (h : view.put slot stack m = .ok (view', r) m') :
    view'.FillsGrid ∧ view'.dimensions = view.dimensions := by
  obtain ⟨contents, hb, hl⟩ := hf
  unfold put at h
  obtain ⟨u, m₁, -, h⟩ := bind_eq_ok h
  simp only [hb] at h
  cases hs : contents[slot]? with
  | none => simp only [hs] at h; cases h
  | some x =>
    cases x with
    | none =>
      simp only [hs] at h
      cases h
      exact ⟨⟨_, rfl, by rw [List.length_set]; exact hl⟩, rfl⟩
    | some b => simp only [hs] at h; cases h; exact ⟨⟨contents, hb, hl⟩, rfl⟩

/-- **A run of calls keeps a view filling its grid**, with its dimensions. -/
theorem runOps_fillsGrid (ops : List ViewOp) (hf : view.FillsGrid) (m : InventoryManager) :
    (runOps ops view m).1.FillsGrid ∧ (runOps ops view m).1.dimensions = view.dimensions := by
  induction ops generalizing view m with
  | nil => exact ⟨hf, rfl⟩
  | cons op ops ih =>
    simp only [runOps]
    split
    · next view' r m' h =>
      have hstep : view'.FillsGrid ∧ view'.dimensions = view.dimensions := by
        cases op with
        | take slot count => exact take_fillsGrid hf h
        | put slot stack => exact put_fillsGrid hf h
      obtain ⟨hf', hd'⟩ := ih hstep.1 m'
      exact ⟨hf', hd'.trans hstep.2⟩
    · next e m' h => exact ih hf m'

theorem take_of_fillsGrid (hf : view.FillsGrid) (hs : slot < view.dimensions.1 * view.dimensions.2)
    (count : Option Nat) : ∃ r m', view.take slot count m = .ok r m' := by
  obtain ⟨contents, hb, hl⟩ := hf
  obtain ⟨x, hx⟩ : ∃ x, contents[slot]? = some x :=
    ⟨_, List.getElem?_eq_getElem (by rw [hl]; exact hs)⟩
  unfold take
  rw [bind_of_ok (checkSlot_of_lt hs)]
  simp only [hb, hx]
  rcases x with _ | b
  · exact ⟨_, _, rfl⟩
  · rcases MaybeStack.takeItems (some b.borrowedStack) count with ⟨inner, obtained⟩
    exact ⟨_, _, rfl⟩

theorem put_of_fillsGrid (hf : view.FillsGrid) (hs : slot < view.dimensions.1 * view.dimensions.2)
    (stack : BorrowedStack) : ∃ r m', view.put slot stack m = .ok r m' := by
  obtain ⟨contents, hb, hl⟩ := hf
  obtain ⟨x, hx⟩ : ∃ x, contents[slot]? = some x :=
    ⟨_, List.getElem?_eq_getElem (by rw [hl]; exact hs)⟩
  unfold put
  rw [bind_of_ok (checkSlot_of_lt hs)]
  simp only [hb, hx]
  rcases x with _ | b <;> exact ⟨_, _, rfl⟩

/-- **A transient view's check covers its unwrap.** A view `new_transient` built keeps as many
slots as its grid has over any sequence of `take` and `put` calls, whatever each returned; so at
every slot of the grid the next `take` and `put` return. -/
theorem transient_view_ops_return {dimensions : Nat × Nat}
    {initialContents : List (Option BorrowedStack)} {canPlace canTake : Bool} {id : Nat}
    (h : newTransient dimensions initialContents canPlace canTake id = .ok view) (ops : List ViewOp)
    (m : InventoryManager) (hs : slot < dimensions.1 * dimensions.2) :
    (∀ count, ∃ r m', (runOps ops view m).1.take slot count (runOps ops view m).2 = .ok r m') ∧
      ∀ stack, ∃ r m', (runOps ops view m).1.put slot stack (runOps ops view m).2 = .ok r m' := by
  obtain ⟨hf₀, hd₀⟩ := newTransient_fillsGrid h
  obtain ⟨hf, hd⟩ := runOps_fillsGrid ops hf₀ m
  rw [← hd₀, ← hd] at hs
  exact ⟨take_of_fillsGrid hf hs, put_of_fillsGrid hf hs⟩

/-- The empty `1 × 1` transient view `new_transient` builds. -/
def emptyOneView : InventoryView := ⟨(1, 1), true, true, .transient [none], 0⟩

/-- A `put` of one `dirt` into slot `0`, then a `take` of it. -/
def dirtOps : List ViewOp := [.put 0 ⟨none, dirt 1⟩, .take 0 none]

/-- After those calls on the empty `1 × 1` view, slot `0` still returns. -/
theorem transient_view_ops_return_dirt :
    (∀ count, ∃ r m', (runOps dirtOps emptyOneView ⟨.inMem, []⟩).1.take 0 count
        (runOps dirtOps emptyOneView ⟨.inMem, []⟩).2 = .ok r m') ∧
      ∀ stack, ∃ r m', (runOps dirtOps emptyOneView ⟨.inMem, []⟩).1.put 0 stack
        (runOps dirtOps emptyOneView ⟨.inMem, []⟩).2 = .ok r m' :=
  transient_view_ops_return (show newTransient (1, 1) [] true true 0 = .ok emptyOneView from rfl)
    dirtOps ⟨.inMem, []⟩ (by decide)

end InventoryView

end Cuberef
