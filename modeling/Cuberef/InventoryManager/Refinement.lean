import Cuberef.InventoryManager.Atomicity

/-!
# The manager refines a map from keys to inventories

What `InventoryManager` is for, said without the store: a map from keys to inventories, which
`make_inventory` extends, `get` reads, and the two mutation entry points overwrite. This module
states that map (`InventoryMap`, `Call.spec`) and proves that the manager's calls, run on a store
that does not fail, give the replies the map gives.

## The abstract map

A key holds a `Stored` inventory: dimensions and slots in a shape `from_proto` accepts, with only
named stacks. The shape is a field of the structure, so the map holds nothing that `get` could not
read back. The map's steps are defined for the calls the abstraction covers: a mutator that returns
`Ok` with an inventory of the dimensions *and number of slots* it was handed, holding only named
stacks, and, for the many-key call, the key it was handed at each position. Elsewhere (`none`)
the map says nothing. A mutator's `Err` is written back all the same
(`Cuberef.InventoryManager.Atomicity`), and an inventory of another shape is written but cannot be
read back: the mutator may replace the whole inventory (`*inv = other`) or assign its public
`dimensions` (`replaced_inventory_breaks_get`, `dimensions_assignment_bricks_inventory`).

The many-key step writes the mutator's inventories back in order, as the loop of the source does,
so a key listed twice holds the last copy written. With distinct keys that is the inventory at the
key's position.

## Main results

* `Refines`: the abstraction relation. The store never fails, and the record under every inventory
  key is the encoding of what the map holds there.
* `Call.run_refines`: one call of the manager simulates one step of the map.
* `runCalls_refines`: by induction, so does every sequence of calls, from any related pair; and
  `manager_refines_inventory_map` from the empty in-memory store and the empty map.
-/

namespace Cuberef

/-! ### The abstract map -/

/-- What a key holds in the abstract map: an inventory's dimensions and slots, in a shape
`from_proto` accepts, with only named stacks. -/
structure Stored where
  dimensions : Nat × Nat
  contents : List (Option ItemStack)
  /-- The record of these dimensions and slots passes the shape checks of `from_proto`. -/
  shape : ShapeOk dimensions contents.length
  /-- Every stack survives `to_proto` and `from_proto`. -/
  named : ∀ s ∈ contents, Named s

namespace Stored

/-- The inventory under `key` that holds `a`. -/
def withKey (a : Stored) (key : InventoryKey) : Inventory := ⟨key, a.dimensions, a.contents⟩

theorem readable_withKey (a : Stored) (key : InventoryKey) : (a.withKey key).Readable :=
  ⟨a.shape, a.named⟩

/-- A new `height × width` inventory, every slot empty. -/
def empty (height width : Nat) (h : 0 < height ∧ 0 < width ∧ height * width < 2 ^ 32) :
    Stored where
  dimensions := (height, width)
  contents := List.replicate (height * width) none
  shape := ⟨by simpa [Nat.mul_comm] using h.2.2, by simp [Nat.mul_comm],
    by simpa using Nat.mul_pos h.1 h.2.1⟩
  named := fun s hs ↦ (List.mem_replicate.mp hs).2 ▸ trivial

/-- What a mutator left in place of `a`, when it kept `a`'s dimensions and number of slots and
holds only named stacks. -/
def replace (a : Stored) (inv : Inventory) : Option Stored :=
  if h : inv.dimensions = a.dimensions ∧ inv.contents.length = a.contents.length ∧
      ∀ s ∈ inv.contents, Named s then
    some ⟨inv.dimensions, inv.contents, by rw [h.1, h.2.1]; exact a.shape, h.2.2⟩
  else none

/-- A replacement holds what the mutator left, so its record is the one the manager writes. -/
theorem toProto_withKey_of_replace {a a' : Stored} {inv : Inventory} (h : a.replace inv = some a')
    (key : InventoryKey) : (a'.withKey key).toProto = inv.toProto := by
  unfold replace at h
  split_ifs at h
  cases h
  rfl

end Stored

/-- **The abstract store**: the inventory each key holds, if any. -/
abbrev InventoryMap := InventoryKey → Option Stored

namespace InventoryMap

/-- The inventories under `keys`, in order, or `none` when one is missing. -/
def lookupAll (M : InventoryMap) : List InventoryKey → Option (List (InventoryKey × Stored))
  | [] => some []
  | key :: keys =>
    match M key, M.lookupAll keys with
    | some a, some rest => some ((key, a) :: rest)
    | _, _ => none

/-- The map after the many-key write-back: each inventory the mutator left replaces, in order, the
one handed to it at the same position, under the same key. -/
def replaceAll (M : InventoryMap) : List (InventoryKey × Stored) → List Inventory → Option InventoryMap
  | [], [] => some M
  | (key, a) :: loaded, inv :: invs =>
    if inv.key = key then
      match a.replace inv with
      | some a' => replaceAll (Function.update M key (some a')) loaded invs
      | none => none
    else none
  | _, _ => none

theorem lookupAll_cons_eq_some {M : InventoryMap} {key : InventoryKey} {keys}
    {loaded : List (InventoryKey × Stored)} (h : M.lookupAll (key :: keys) = some loaded) :
    ∃ a rest, M key = some a ∧ M.lookupAll keys = some rest ∧ loaded = (key, a) :: rest := by
  simp only [lookupAll] at h
  split at h
  · cases h; exact ⟨_, _, ‹_›, ‹_›, rfl⟩
  · cases h

theorem lookupAll_cons_eq_none {M : InventoryMap} {key : InventoryKey} {keys}
    (h : M.lookupAll (key :: keys) = none) :
    M key = none ∨ ∃ a, M key = some a ∧ M.lookupAll keys = none := by
  cases ha : M key with
  | none => exact .inl rfl
  | some a =>
    cases hr : M.lookupAll keys with
    | none => exact .inr ⟨a, rfl, rfl⟩
    | some rest => simp [lookupAll, ha, hr] at h

end InventoryMap

/-! ### Calls, and one step of each side -/

/-- What a call returns to its caller, when it returns. -/
inductive Reply
  | key (key : InventoryKey)
  | inventory (inv : Option Inventory)
  | done
deriving DecidableEq

/-- A call on the manager. -/
inductive Call : Type 1
  | makeInventory (height width : Nat) (id : Uuid)
  | get (key : InventoryKey)
  | mutateInventoryAtomically {T : Type} (key : InventoryKey) (mutator : Mutator T)
  | mutateInventoriesAtomically {T : Type} (keys : List InventoryKey) (mutator : MultiMutator T)

namespace InventoryManager

variable {α : Type}

/-- Run a computation, keeping what its caller sees: the reply when it returns, `none` on an
error. -/
def observe (x : EStateM Error InventoryManager α) (reply : α → Reply) (m : InventoryManager) :
    Option Reply × InventoryManager :=
  match x m with
  | .ok a m' => (some (reply a), m')
  | .error _ m' => (none, m')

theorem observe_of_ok {x : EStateM Error InventoryManager α} {reply : α → Reply}
    {m m' : InventoryManager} {a : α} (h : x m = .ok a m') : observe x reply m = (some (reply a), m') := by
  simp only [observe, h]

theorem observe_of_error {x : EStateM Error InventoryManager α} {reply : α → Reply}
    {m m' : InventoryManager} {e : Error} (h : x m = .error e m') : observe x reply m = (none, m') := by
  simp only [observe, h]

end InventoryManager

namespace Call

open InventoryManager in
/-- A call, run by the manager. -/
def run : Call → InventoryManager → Option Reply × InventoryManager
  | makeInventory height width id => observe (InventoryManager.makeInventory height width id) .key
  | get key => observe (InventoryManager.get key) .inventory
  | mutateInventoryAtomically key mutator =>
    observe (InventoryManager.mutateInventoryAtomically key mutator) fun _ ↦ .done
  | mutateInventoriesAtomically keys mutator =>
    observe (InventoryManager.mutateInventoriesAtomically keys mutator) fun _ ↦ .done

/-- **One step of the abstract map.** `make_inventory` maps the new key to an empty inventory,
`get` reads the map, a mutation replaces what it was handed by what its mutator left and fails on a
missing key; `none` where the abstraction says nothing. -/
def spec : Call → InventoryMap → Option (Option Reply × InventoryMap)
  | makeInventory height width id, M =>
    if h : 0 < height ∧ 0 < width ∧ height * width < 2 ^ 32 then
      some (some (.key ⟨id⟩), Function.update M ⟨id⟩ (some (Stored.empty height width h)))
    else some (none, M)
  | get key, M => some (some (.inventory ((M key).map (·.withKey key))), M)
  | mutateInventoryAtomically key mutator, M =>
    match M key with
    | none => some (none, M)
    | some a =>
      match mutator (a.withKey key) with
      | some (inv, .ok _) => (a.replace inv).map fun a' ↦ (some .done, Function.update M key (some a'))
      | _ => none
  | mutateInventoriesAtomically keys mutator, M =>
    match M.lookupAll keys with
    | none => some (none, M)
    | some loaded =>
      match mutator (loaded.map fun p ↦ p.2.withKey p.1) with
      | some (invs, .ok _) => (M.replaceAll loaded invs).map fun M' ↦ (some .done, M')
      | _ => none

end Call

/-- A sequence of calls, run by the manager: the replies, and the state reached. -/
def runCalls : List Call → InventoryManager → List (Option Reply) × InventoryManager
  | [], m => ([], m)
  | c :: cs, m => ((c.run m).1 :: (runCalls cs (c.run m).2).1, (runCalls cs (c.run m).2).2)

/-- A sequence of calls on the abstract map, where the abstraction covers every one of them. -/
def specCalls : List Call → InventoryMap → Option (List (Option Reply) × InventoryMap)
  | [], M => some ([], M)
  | c :: cs, M =>
    match c.spec M with
    | some (r, M₁) => (specCalls cs M₁).map fun p ↦ (r :: p.1, p.2)
    | none => none

/-! ### The abstraction relation -/

/-- **The abstraction relation.** The store never fails, and under every inventory key it holds
the encoding of what the map holds there, and nothing where the map holds nothing. -/
structure Refines (m : InventoryManager) (M : InventoryMap) : Prop where
  reliable : ∀ n, m.db.faults n = false
  data : ∀ key, m.db.data key.toDbKey = (M key).map fun a ↦ .inventory (a.withKey key).toProto

/-- The empty in-memory store holds the empty map. -/
theorem refines_empty : Refines ⟨.inMem, []⟩ fun _ ↦ none :=
  ⟨fun _ ↦ rfl, fun _ ↦ rfl⟩

namespace Refines

variable {m m' : InventoryManager} {M : InventoryMap}

theorem dbReliable (h : Refines m M) : m.db.Reliable := fun n _ ↦ h.reliable n

/-- A read of the store keeps the relation. -/
theorem tick (h : Refines m M) : Refines { m with db := m.db.tick } M :=
  ⟨h.reliable, h.data⟩

/-- Writing the record of `a` under `key` refines writing `a` into the map there. -/
theorem update (h : Refines m M) (key : InventoryKey) (a : Stored)
    (hf : m'.db.faults = m.db.faults)
    (hd : m'.db.data = Function.update m.db.data key.toDbKey (some (.inventory (a.withKey key).toProto))) :
    Refines m' (Function.update M key (some a)) := by
  refine ⟨fun n ↦ hf ▸ h.reliable n, fun k ↦ ?_⟩
  rw [hd]
  by_cases hk : k = key
  · subst hk
    simp
  · rw [Function.update_noteq (mt (@InventoryKey.toDbKey_injective k key) hk),
      Function.update_noteq hk, h.data]

end Refines

/-! ### Each entry point on a related store -/

namespace InventoryManager

variable {T : Type} {m : InventoryManager} {M M' : InventoryMap} {key : InventoryKey} {a : Stored}

/-- The record of a stored inventory decodes back to it. -/
theorem decodeAt_withKey (a : Stored) (key : InventoryKey) :
    decodeAt key (.inventory (a.withKey key).toProto) = .ok (a.withKey key) :=
  Inventory.fromProto_toProto (a.readable_withKey key) key

theorem get_of_refines (h : Refines m M) (key : InventoryKey) :
    get key m = .ok ((M key).map (·.withKey key)) { m with db := m.db.tick } := by
  unfold get
  rw [bind_of_ok (withDb_of_ok (GameDatabase.get_of_reliable h.dbReliable)), h.data key]
  cases M key with
  | none => rfl
  | some a =>
    show (ofExcept (decodeAt key _) >>= fun inv ↦ pure (some inv)) _ = _
    rw [decodeAt_withKey]
    rfl

theorem load_of_refines_some (h : Refines m M) (hk : M key = some a) :
    load key m = .ok (a.withKey key) { m with db := m.db.tick } := by
  unfold load
  rw [bind_of_ok (withDb_of_ok (GameDatabase.get_of_reliable h.dbReliable)), h.data key, hk]
  show ofExcept (decodeAt key _) _ = _
  rw [decodeAt_withKey]
  rfl

theorem load_of_refines_none (h : Refines m M) (hk : M key = none) :
    load key m = .error (.msg "Inventory ID not found") { m with db := m.db.tick } := by
  unfold load
  rw [bind_of_ok (withDb_of_ok (GameDatabase.get_of_reliable h.dbReliable)), h.data key, hk]
  rfl

theorem loadAll_of_lookupAll_some {keys : List InventoryKey} {loaded : List (InventoryKey × Stored)}
    (h : Refines m M) (hl : M.lookupAll keys = some loaded) :
    ∃ m', Refines m' M ∧ loadAll keys m = .ok (loaded.map fun p ↦ p.2.withKey p.1) m' := by
  induction keys generalizing m loaded with
  | nil => cases hl; exact ⟨m, h, rfl⟩
  | cons key keys ih =>
    obtain ⟨a, rest, hk, hr, rfl⟩ := InventoryMap.lookupAll_cons_eq_some hl
    obtain ⟨m', h', hrest⟩ := ih h.tick hr
    refine ⟨m', h', ?_⟩
    simp only [loadAll]
    rw [bind_of_ok (load_of_refines_some h hk), bind_of_ok hrest]
    rfl

theorem loadAll_of_lookupAll_none {keys : List InventoryKey} (h : Refines m M)
    (hl : M.lookupAll keys = none) : ∃ m' e, Refines m' M ∧ loadAll keys m = .error e m' := by
  induction keys generalizing m with
  | nil => cases hl
  | cons key keys ih =>
    simp only [loadAll]
    rcases InventoryMap.lookupAll_cons_eq_none hl with hk | ⟨a, hk, hr⟩
    · exact ⟨_, _, h.tick, bind_of_error (load_of_refines_none h hk)⟩
    · obtain ⟨m', e, h', hrest⟩ := ih h.tick hr
      rw [bind_of_ok (load_of_refines_some h hk), bind_of_error hrest]
      exact ⟨m', e, h', rfl⟩

theorem writeBack_of_replace (key : InventoryKey) {a' : Stored} {inv : Inventory} (h : Refines m M)
    (hr : a.replace inv = some a') :
    ∃ m', Refines m' (Function.update M key (some a')) ∧ writeBack key inv m = .ok () m' := by
  refine ⟨_, ?_, writeBack_of_reliable h.dbReliable⟩
  exact h.update key a' rfl (by rw [Stored.toProto_withKey_of_replace hr])

theorem writeBackAll_of_replaceAll {loaded : List (InventoryKey × Stored)} {invs : List Inventory}
    (h : Refines m M) (hr : M.replaceAll loaded invs = some M') :
    ∃ m', Refines m' M' ∧ writeBackAll invs m = .ok () m' := by
  induction loaded generalizing m M invs with
  | nil => cases invs <;> cases hr; exact ⟨m, h, rfl⟩
  | cons p loaded ih =>
    obtain ⟨k, a⟩ := p
    cases invs with
    | nil => cases hr
    | cons inv invs =>
      simp only [InventoryMap.replaceAll] at hr
      split_ifs at hr with hkey
      split at hr
      · rename_i a' ha'
        subst hkey
        obtain ⟨m₁, h₁, hw⟩ := writeBack_of_replace _ h ha'
        obtain ⟨m', h', hrest⟩ := ih h₁ hr
        exact ⟨m', h', by simp only [writeBackAll]; rw [bind_of_ok hw, hrest]⟩
      · cases hr

/-- On a store that does not fail, `make_inventory` of a valid shape persists the empty inventory
under the key made from `id`. -/
theorem makeInventory_of_valid {height width : Nat} (id : Uuid) (h : m.db.Reliable)
    (hc : 0 < height ∧ 0 < width ∧ height * width < 2 ^ 32) :
    makeInventory height width id m = .ok ⟨id⟩
      { db := { m.db.tick with
                  data := Function.update m.db.data (InventoryKey.toDbKey ⟨id⟩)
                    (some (.inventory ((Stored.empty height width hc).withKey ⟨id⟩).toProto)) },
        updates := m.updates } := by
  have hnew : Inventory.new (height, width) id = .ok ((Stored.empty height width hc).withKey ⟨id⟩) :=
    Inventory.new_eq_ok.mpr ⟨hc.1, hc.2.1, hc.2.2, rfl⟩
  unfold makeInventory
  rw [hnew, bind_of_ok ofExcept_ok, bind_of_ok (withDb_of_ok (GameDatabase.put_of_reliable h))]
  rfl

/-- `make_inventory` of an invalid shape fails before it touches the store. -/
theorem makeInventory_of_invalid {height width : Nat} (id : Uuid)
    (hc : ¬ (0 < height ∧ 0 < width ∧ height * width < 2 ^ 32)) :
    ∃ e, makeInventory height width id m = .error e m := by
  cases hn : Inventory.new (height, width) id with
  | ok inv => exact absurd (Inventory.new_isOk_iff.mp ⟨inv, hn⟩) hc
  | error e =>
    unfold makeInventory
    rw [hn]
    exact ⟨e, bind_of_error ofExcept_error⟩

theorem makeInventory_of_refines {height width : Nat} (id : Uuid) (h : Refines m M)
    (hc : 0 < height ∧ 0 < width ∧ height * width < 2 ^ 32) :
    ∃ m', Refines m' (Function.update M ⟨id⟩ (some (Stored.empty height width hc))) ∧
      makeInventory height width id m = .ok ⟨id⟩ m' := by
  refine ⟨_, ?_, makeInventory_of_valid id h.dbReliable hc⟩
  exact h.update ⟨id⟩ _ rfl rfl

end InventoryManager

/-! ### The simulation -/

namespace Call

open InventoryManager

variable {m : InventoryManager} {M M' : InventoryMap} {r : Option Reply}

/-- **One call simulates one step of the map.** Where the map takes a step, the manager gives the
reply the map gives, and its store holds the map the step leaves. -/
theorem run_refines (c : Call) (h : Refines m M) (hs : c.spec M = some (r, M')) :
    (c.run m).1 = r ∧ Refines (c.run m).2 M' := by
  cases c with
  | makeInventory height width id =>
    by_cases hc : 0 < height ∧ 0 < width ∧ height * width < 2 ^ 32
    · rw [spec, dif_pos hc] at hs
      cases hs
      obtain ⟨m', h', hrun⟩ := makeInventory_of_refines id h hc
      rw [run, observe_of_ok hrun]
      exact ⟨rfl, h'⟩
    · rw [spec, dif_neg hc] at hs
      cases hs
      obtain ⟨e, hrun⟩ := makeInventory_of_invalid (m := m) id hc
      rw [run, observe_of_error hrun]
      exact ⟨rfl, h⟩
  | get key =>
    cases hs
    rw [run, observe_of_ok (get_of_refines h key)]
    exact ⟨rfl, h.tick⟩
  | mutateInventoryAtomically key mutator =>
    cases hk : M key with
    | none =>
      simp only [spec, hk] at hs
      cases hs
      have hrun : InventoryManager.mutateInventoryAtomically key mutator m = .error _ _ :=
        bind_of_error (load_of_refines_none h hk)
      rw [run, observe_of_error hrun]
      exact ⟨rfl, h.tick⟩
    | some a =>
      simp only [spec, hk] at hs
      split at hs
      · rename_i inv t hmut
        obtain ⟨a', ha', ⟨⟩⟩ := Option.map_eq_some'.mp hs
        obtain ⟨m', h', hw⟩ := writeBack_of_replace key h.tick ha'
        have hrun : InventoryManager.mutateInventoryAtomically key mutator m = .ok t m' := by
          unfold InventoryManager.mutateInventoryAtomically
          rw [bind_of_ok (load_of_refines_some h hk), hmut, runMutator_some_bind]
          exact bind_of_ok hw
        rw [run, observe_of_ok hrun]
        exact ⟨rfl, h'⟩
      · cases hs
  | mutateInventoriesAtomically keys mutator =>
    cases hl : M.lookupAll keys with
    | none =>
      simp only [spec, hl] at hs
      cases hs
      obtain ⟨m', e, h', hload⟩ := loadAll_of_lookupAll_none h hl
      have hrun : InventoryManager.mutateInventoriesAtomically keys mutator m = .error _ _ :=
        bind_of_error hload
      rw [run, observe_of_error hrun]
      exact ⟨rfl, h'⟩
    | some loaded =>
      simp only [spec, hl] at hs
      split at hs
      · rename_i invs t hmut
        obtain ⟨M₁, hr, ⟨⟩⟩ := Option.map_eq_some'.mp hs
        obtain ⟨m₁, h₁, hload⟩ := loadAll_of_lookupAll_some h hl
        obtain ⟨m', h', hw⟩ := writeBackAll_of_replaceAll h₁ hr
        have hrun : InventoryManager.mutateInventoriesAtomically keys mutator m = .ok t m' := by
          unfold InventoryManager.mutateInventoriesAtomically
          rw [bind_of_ok hload, hmut, runMutator_some_bind]
          exact bind_of_ok hw
        rw [run, observe_of_ok hrun]
        exact ⟨rfl, h'⟩
      · cases hs

end Call

/-- **Every sequence of calls simulates the map.** From a store related to a map, wherever the map
takes every step of a sequence, the manager gives the same replies and ends related to the map
reached. -/
theorem runCalls_refines (calls : List Call) {m : InventoryManager} {M M' : InventoryMap}
    {replies : List (Option Reply)} (h : Refines m M) (hs : specCalls calls M = some (replies, M')) :
    (runCalls calls m).1 = replies ∧ Refines (runCalls calls m).2 M' := by
  induction calls generalizing m M replies with
  | nil => cases hs; exact ⟨rfl, h⟩
  | cons c cs ih =>
    simp only [specCalls] at hs
    split at hs
    · rename_i r M₁ hc
      obtain ⟨⟨rs, M₂⟩, hrest, hs⟩ := Option.map_eq_some'.mp hs
      cases hs
      obtain ⟨hr, h₁⟩ := c.run_refines h hc
      obtain ⟨hrs, h'⟩ := ih h₁ hrest
      exact ⟨by simp only [runCalls, hr, hrs], h'⟩
    · cases hs

/-- **The manager refines the map**, from the empty in-memory store: over every sequence of calls
the abstract map covers, each call returns what the map gives (`get` of a key returns what the map
holds there), and the store ends holding the map reached. -/
theorem manager_refines_inventory_map (calls : List Call) {M : InventoryMap}
    {replies : List (Option Reply)} (hs : specCalls calls (fun _ ↦ none) = some (replies, M)) :
    (runCalls calls ⟨.inMem, []⟩).1 = replies ∧ Refines (runCalls calls ⟨.inMem, []⟩).2 M :=
  runCalls_refines calls refines_empty hs

/-! ### Sample calls -/

/-- A second key, sixteen bytes of `1`. -/
def freshId : Uuid := ⟨List.replicate 16 1, rfl⟩

/-- A mutator that puts five `dirt` in slot 0. -/
def fillFirst : Mutator Unit := fun inv ↦
  some ({ inv with contents := inv.contents.set 0 (some (dirt 5)) }, .ok ())

/-- A mutator that replaces the whole inventory by another one the closure owns
(`*inv = other` after `other.dimensions = (1, 1)`): the `1 × 2` inventory of `sampleInventory`,
its dimensions reassigned. -/
def swapIn : Mutator Unit := fun _ ↦ some ({ sampleInventory with dimensions := (1, 1) }, .ok ())

/-- A mutator that assigns the public `dimensions` and returns `Ok`. -/
def widen : Mutator Unit := fun inv ↦ some ({ inv with dimensions := (2, 1) }, .ok ())

/-- `make_inventory(1, 2)`, a mutation filling slot 0, and a `get`: the map and the store agree. -/
theorem manager_refines_inventory_map_fill :
    specCalls [.makeInventory 1 2 sampleKey.id, .mutateInventoryAtomically sampleKey fillFirst,
        .get sampleKey] (fun _ ↦ none) =
      some ([some (.key sampleKey), some .done,
          some (.inventory (some ⟨sampleKey, (1, 2), [some (dirt 5), none]⟩))],
        Function.update (Function.update (fun _ ↦ none) ⟨sampleKey.id⟩
            (some (Stored.empty 1 2 (by decide))))
          sampleKey (some ⟨(1, 2), [some (dirt 5), none], by decide, by decide⟩)) ∧
    ((runCalls [.makeInventory 1 2 sampleKey.id, .mutateInventoryAtomically sampleKey fillFirst,
        .get sampleKey] ⟨.inMem, []⟩).1 =
      [some (.key sampleKey), some .done,
        some (.inventory (some ⟨sampleKey, (1, 2), [some (dirt 5), none]⟩))] ∧
    Refines (runCalls [.makeInventory 1 2 sampleKey.id,
        .mutateInventoryAtomically sampleKey fillFirst, .get sampleKey] ⟨.inMem, []⟩).2
      (Function.update (Function.update (fun _ ↦ none) ⟨sampleKey.id⟩
          (some (Stored.empty 1 2 (by decide))))
        sampleKey (some ⟨(1, 2), [some (dirt 5), none], by decide, by decide⟩))) :=
  ⟨rfl, manager_refines_inventory_map _ rfl⟩

/-- An in-memory store whose second call fails. -/
def failingRead : GameDatabase := { GameDatabase.inMem with faults := fun n ↦ n == 1 }

/-- **A mutator may replace the whole inventory, and a store may fail.** On every `1 × 1`
inventory `swapIn` returns `Ok` with the dimensions it was handed and only named stacks; but it
leaves two slots, so the record written under the new key does not read back, and the `get` that
follows fails where the map would hold the mutator's inventory. And on `failingRead`, the `get`
after `make_inventory(1, 2)` fails on the store's error where the map holds the new inventory. -/
theorem replaced_inventory_breaks_get :
    (∀ inv : Inventory, inv.dimensions = (1, 1) →
      ∃ inv', swapIn inv = some (inv', .ok ()) ∧ inv'.dimensions = inv.dimensions ∧
        ∀ s ∈ inv'.contents, Named s) ∧
    (runCalls [.makeInventory 1 1 freshId, .mutateInventoryAtomically ⟨freshId⟩ swapIn,
        .get ⟨freshId⟩] ⟨.inMem, []⟩).1 = [some (.key ⟨freshId⟩), some .done, none] ∧
    (specCalls [.makeInventory 1 2 sampleKey.id, .get sampleKey] (fun _ ↦ none)).map (·.1) =
      some [some (.key sampleKey), some (.inventory (some ⟨sampleKey, (1, 2), [none, none]⟩))] ∧
    (runCalls [.makeInventory 1 2 sampleKey.id, .get sampleKey] ⟨failingRead, []⟩).1 =
      [some (.key sampleKey), none] :=
  ⟨fun _ h ↦ ⟨_, rfl, h.symm, by decide⟩, rfl, rfl, rfl⟩

/-! ### The shape invariant -/

/-- **Under shape-keeping mutators every record reads back.** Over every sequence of calls the
abstract map covers, from the empty store, `get` of any key returns, and what it returns has
`dimensions.0 * dimensions.1` slots, a positive number. -/
theorem reachable_records_readable (calls : List Call) {M : InventoryMap}
    {replies : List (Option Reply)} (hs : specCalls calls (fun _ ↦ none) = some (replies, M))
    (key : InventoryKey) :
    ∃ r m', InventoryManager.get key (runCalls calls ⟨.inMem, []⟩).2 = .ok r m' ∧
      ∀ inv, r = some inv →
        inv.dimensions.1 * inv.dimensions.2 = inv.contents.length ∧ 0 < inv.contents.length := by
  refine ⟨_, _, InventoryManager.get_of_refines (runCalls_refines calls refines_empty hs).2 key, ?_⟩
  intro inv hinv
  obtain ⟨a, -, rfl⟩ := Option.map_eq_some'.mp hinv
  exact ⟨(Nat.mul_comm _ _).trans a.shape.2.1, a.shape.2.2⟩

/-- `make_inventory(1, 2)`, a mutation filling slot 0, and a `get`: the map covers the three
calls. -/
theorem reachable_records_readable_filled :
    specCalls [.makeInventory 1 2 sampleKey.id, .mutateInventoryAtomically sampleKey fillFirst,
        .get sampleKey] (fun _ ↦ none) =
      some ([some (.key sampleKey), some .done,
          some (.inventory (some ⟨sampleKey, (1, 2), [some (dirt 5), none]⟩))],
        Function.update (Function.update (fun _ ↦ none) ⟨sampleKey.id⟩
            (some (Stored.empty 1 2 (by decide))))
          sampleKey (some ⟨(1, 2), [some (dirt 5), none], by decide, by decide⟩)) ∧
      ∃ r m', InventoryManager.get sampleKey
          (runCalls [.makeInventory 1 2 sampleKey.id, .mutateInventoryAtomically sampleKey fillFirst,
            .get sampleKey] ⟨.inMem, []⟩).2 = .ok r m' ∧
        ∀ inv, r = some inv →
          inv.dimensions.1 * inv.dimensions.2 = inv.contents.length ∧ 0 < inv.contents.length :=
  ⟨rfl, reachable_records_readable [.makeInventory 1 2 sampleKey.id,
    .mutateInventoryAtomically sampleKey fillFirst, .get sampleKey] rfl sampleKey⟩

/-- **Assigning `dimensions` bricks an inventory.** `widen` keeps the key and the slots, as a
mutator that only writes through `contents_mut` and `dimensions` does, and returns `Ok`; after
`make_inventory(1, 1)` and a mutation by `widen`, the record under the key claims `2 × 1` slots
over one, and `get` fails on the shape check. -/
theorem dimensions_assignment_bricks_inventory :
    (∀ inv, ∃ inv', widen inv = some (inv', .ok ()) ∧ inv'.key = inv.key ∧
      inv'.contents = inv.contents) ∧
    (runCalls [.makeInventory 1 1 freshId, .mutateInventoryAtomically ⟨freshId⟩ widen]
        ⟨.inMem, []⟩).1 = [some (.key ⟨freshId⟩), some .done] ∧
    (InventoryManager.get ⟨freshId⟩
        (runCalls [.makeInventory 1 1 freshId, .mutateInventoryAtomically ⟨freshId⟩ widen]
          ⟨.inMem, []⟩).2).toExcept =
      .error (.msg "Condition failed: `size as usize == proto.contents.len()`") :=
  ⟨fun _ ↦ ⟨_, rfl, rfl, rfl⟩, rfl, rfl⟩

end Cuberef
