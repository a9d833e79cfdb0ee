import Cuberef.InventoryManager

/-!
# What a mutation does when it fails, and what it conserves

The two mutation entry points hold the database lock across the whole load-mutate-store cycle,
but they are not transactions. This module says exactly what a failed call leaves behind, and
when a successful many-key call conserves items.

## Failed calls

An error raised *before* the mutator runs (a store failure on read, an unknown key, a record that
does not decode) leaves every entry as it was and broadcasts nothing, and so does a panicking
mutator. Once the mutator has returned, its result does not gate the write-back: the inventories
it leaves are written and broadcast one by one, and the call returns the mutator's `Err` only
afterwards (`mutate_error_effect`). A failed `put` stops the write-back of the many-key call
half way, the writes before it staying.

## Conservation

A successful many-key call conserves, for each item name, the items stored under the listed keys,
when the mutator only moves items between the slots it was handed and the keys are distinct
(`mutate_many_conserves_items`). With a key listed twice, the mutator works on two independent
copies and the last one written wins, so items are created or lost
(`repeated_key_duplicates_items`).
-/

namespace Cuberef

/-! ### A sample store -/

/-- A key of sixteen zero bytes. -/
def sampleKey : InventoryKey := ⟨⟨List.replicate 16 0, rfl⟩⟩

/-- `n` units of `dirt`, stack limit 256. -/
def dirt (n : Nat) : ItemStack := ⟨"dirt", n, 256, true⟩

/-- An in-memory store holding one 1 × 2 inventory under `sampleKey`: five `dirt`, then an
empty slot. -/
def sampleManager : InventoryManager where
  db := { GameDatabase.inMem with
          data := Function.update GameDatabase.inMem.data sampleKey.toDbKey
            (some (.inventory ⟨1, 2, [dirt 5, ItemStack.sentinel]⟩)) }
  updates := []

/-- The inventory `sampleManager` holds, as a load returns it. -/
def sampleInventory : Inventory := ⟨sampleKey, (1, 2), [some (dirt 5), none]⟩

/-- A mutator moving the stack in slot 0 of the first inventory into slot 1 of the second. -/
def moveBetweenCopies : MultiMutator Unit
  | [a, b] =>
    some ([{ a with contents := a.contents.set 0 none },
      { b with contents := b.contents.set 1 (a.contents.getD 0 none) }], .ok ())
  | invs => some (invs, .ok ())

/-- A second key, of sixteen bytes `1`. -/
def secondKey : InventoryKey := ⟨⟨List.replicate 16 1, rfl⟩⟩

/-- `sampleManager` with a second, empty, 1 × 2 inventory under `secondKey`. -/
def twoInventories : InventoryManager where
  db := { sampleManager.db with
          data := Function.update sampleManager.db.data secondKey.toDbKey
            (some (.inventory ⟨1, 2, [ItemStack.sentinel, ItemStack.sentinel]⟩)) }
  updates := []

/-- A mutator that puts one `dirt` in slot 1 and then returns an error. -/
def addThenFail : Mutator Unit := fun inv ↦
  some ({ inv with contents := inv.contents.set 1 (some (dirt 1)) }, .error (.msg "refused"))

namespace InventoryManager

variable {T : Type} {m m' : InventoryManager} {key : InventoryKey} {e : Error}

/-- A failed single-key mutation changed nothing, or it is the mutator's own `Err`, returned
after the mutated inventory was written and broadcast. -/
theorem mutateInventoryAtomically_of_error {mutator : Mutator T}
    (h : mutateInventoryAtomically key mutator m = .error e m') :
    Untouched m m' ∨
      ∃ inv m₁ inv', load key m = .ok inv m₁ ∧ mutator inv = some (inv', .error e) ∧
        m'.db.data = Function.update m.db.data key.toDbKey (some (.inventory inv'.toProto)) ∧
        m'.updates = m.updates ++ [key] := by
  unfold mutateInventoryAtomically at h
  rcases bind_eq_error h with hl | ⟨inv, m₁, hl, h⟩
  · exact .inl (by simpa [hl] using load_untouched m key)
  · have hu : Untouched m m₁ := (load_of_ok hl).2
    cases hm : mutator inv with
    | none => rw [hm, runMutator_none_bind] at h; cases h; exact .inl hu
    | some p =>
      obtain ⟨inv', r⟩ := p
      rw [hm, runMutator_some_bind] at h
      rcases bind_eq_error h with hw | ⟨u, m₂, hw, hr⟩
      · exact .inl (hu.trans (writeBack_of_error hw).1)
      · obtain ⟨hd, hupd⟩ := writeBack_of_ok hw
        cases r with
        | ok t => cases hr
        | error e' =>
          cases hr
          exact .inr ⟨inv, m₁, inv', hl, hm, by rw [hd, hu.1], by rw [hupd, hu.2]⟩

/-- A failed many-key mutation changed nothing, or the mutator returned a vector of which a
non-empty prefix was written and broadcast in order; the error is the mutator's when the whole
vector was written, and the store's otherwise. -/
theorem mutateInventoriesAtomically_of_error {keys : List InventoryKey} {mutator : MultiMutator T}
    (h : mutateInventoriesAtomically keys mutator m = .error e m') :
    Untouched m m' ∨
      ∃ loaded m₁ invs r n, loadAll keys m = .ok loaded m₁ ∧ mutator loaded = some (invs, r) ∧
        0 < n ∧ n ≤ invs.length ∧ m'.db.data = written m.db.data (invs.take n) ∧
        m'.updates = m.updates ++ (invs.take n).map (·.key) ∧
        (n = invs.length → r = .error e) ∧ (n < invs.length → e = .store) := by
  unfold mutateInventoriesAtomically at h
  rcases bind_eq_error h with hl | ⟨loaded, m₁, hl, h⟩
  · exact .inl (by simpa [hl] using loadAll_untouched (m := m) keys)
  · have hu : Untouched m m₁ := (loadAll_of_ok hl).2
    cases hm : mutator loaded with
    | none => rw [hm, runMutator_none_bind] at h; cases h; exact .inl hu
    | some p =>
      obtain ⟨invs, r⟩ := p
      rw [hm, runMutator_some_bind] at h
      dsimp only at h
      obtain ⟨n, hn, hd, hupd, hres⟩ := writeBackAll_effect (m := m₁) invs
      have hm' : m' = (writeBackAll invs m₁).state ∧
          (n = invs.length → r = .error e) ∧ (n < invs.length → e = .store) := by
        rcases hres with ⟨hok, rfl⟩ | ⟨herr, hlt⟩
        · cases hw : writeBackAll invs m₁ with
          | error e' m₂ => rw [hw] at hok; cases hok
          | ok u m₂ =>
            rw [bind_of_ok hw] at h
            cases r with
            | ok t => cases h
            | error e' => cases h; exact ⟨rfl, fun _ ↦ rfl, fun h ↦ absurd h (Nat.lt_irrefl _)⟩
        · cases hw : writeBackAll invs m₁ with
          | ok u m₂ => rw [hw] at herr; cases herr
          | error e' m₂ =>
            rw [hw] at herr
            cases herr
            rw [bind_of_error hw] at h
            cases h
            exact ⟨rfl, fun h ↦ absurd h (Nat.ne_of_lt hlt), fun _ ↦ rfl⟩
      obtain ⟨rfl, hr₁, hr₂⟩ := hm'
      rcases Nat.eq_zero_or_pos n with rfl | hpos
      · exact .inl (hu.trans ⟨by simpa using hd, by simpa using hupd⟩)
      · exact .inr ⟨loaded, m₁, invs, r, n, hl, hm, hpos, hn, by rw [hd, hu.1],
          by rw [hupd, hu.2], hr₁, hr₂⟩

/-- A successful many-key mutation loaded the keys, its mutator returned `Ok`, and the whole
vector it returned was written and broadcast, in order. -/
theorem mutateInventoriesAtomically_of_ok {keys : List InventoryKey} {mutator : MultiMutator T}
    {t : T} (h : mutateInventoriesAtomically keys mutator m = .ok t m') :
    ∃ loaded m₁ invs, loadAll keys m = .ok loaded m₁ ∧ mutator loaded = some (invs, .ok t) ∧
      m'.db.data = written m.db.data invs ∧ m'.updates = m.updates ++ invs.map (·.key) := by
  unfold mutateInventoriesAtomically at h
  obtain ⟨loaded, m₁, hl, h⟩ := bind_eq_ok h
  have hu : Untouched m m₁ := (loadAll_of_ok hl).2
  cases hm : mutator loaded with
  | none => rw [hm, runMutator_none_bind] at h; cases h
  | some p =>
    obtain ⟨invs, r⟩ := p
    rw [hm, runMutator_some_bind] at h
    obtain ⟨u, m₂, hw, hr⟩ := bind_eq_ok h
    obtain ⟨hd, hupd⟩ := writeBackAll_of_ok hw
    cases r with
    | error e => cases hr
    | ok t' =>
      cases hr
      exact ⟨loaded, m₁, invs, hl, hm, by rw [hd, hu.1], by rw [hupd, hu.2]⟩

/-- **What a failed mutation leaves behind.** For both entry points: an `Err` either left every
entry as it was and broadcast nothing, or comes after the mutator returned, in which case what the
mutator left was written and broadcast (all of it when the error is the mutator's own, a prefix
when a store write failed). -/
theorem mutate_error_effect :
    (∀ (m m' : InventoryManager) (key : InventoryKey) (mutator : Mutator T) (e : Error),
      mutateInventoryAtomically key mutator m = .error e m' →
        Untouched m m' ∨
          ∃ inv m₁ inv', load key m = .ok inv m₁ ∧ mutator inv = some (inv', .error e) ∧
            m'.db.data = Function.update m.db.data key.toDbKey (some (.inventory inv'.toProto)) ∧
            m'.updates = m.updates ++ [key]) ∧
    (∀ (m m' : InventoryManager) (keys : List InventoryKey) (mutator : MultiMutator T) (e : Error),
      mutateInventoriesAtomically keys mutator m = .error e m' →
        Untouched m m' ∨
          ∃ loaded m₁ invs r n, loadAll keys m = .ok loaded m₁ ∧ mutator loaded = some (invs, r) ∧
            0 < n ∧ n ≤ invs.length ∧ m'.db.data = written m.db.data (invs.take n) ∧
            m'.updates = m.updates ++ (invs.take n).map (·.key) ∧
            (n = invs.length → r = .error e) ∧ (n < invs.length → e = .store)) :=
  ⟨fun _ _ _ _ _ h ↦ mutateInventoryAtomically_of_error h,
    fun _ _ _ _ _ h ↦ mutateInventoriesAtomically_of_error h⟩

/-- The mutator's `Err` is returned, yet its change is stored and the key was broadcast. -/
theorem mutator_error_still_persists :
    (mutateInventoryAtomically sampleKey addThenFail sampleManager).toExcept =
        .error (.msg "refused") ∧
      (mutateInventoryAtomically sampleKey addThenFail sampleManager).state.updates = [sampleKey] ∧
      (mutateInventoryAtomically sampleKey addThenFail sampleManager).state.db.data
          sampleKey.toDbKey = some (.inventory ⟨1, 2, [dirt 5, dirt 1]⟩) :=
  ⟨rfl, rfl, rfl⟩

/-! ### Conservation -/

/-- Items named `name` over a vector of inventories. -/
def vectorCount (name : String) (invs : List Inventory) : Nat :=
  (invs.map fun inv ↦ itemCount name inv.contents).sum

/-- Items named `name` in the record under `key`, as a read decodes its slots. -/
def storedCount (name : String) (data : List UInt8 → Option Record) (key : InventoryKey) : Nat :=
  match data key.toDbKey with
  | some (.inventory p) => itemCount name (p.contents.map ItemStack.fromProto)
  | _ => 0

/-- The mutator only rewrote slots: position by position, the same key, dimensions and number
of slots. -/
def SlotsOnly (before after : List Inventory) : Prop :=
  List.Forall₂
    (fun a b ↦ b.key = a.key ∧ b.dimensions = a.dimensions ∧ b.contents.length = a.contents.length)
    before after

variable {data : List UInt8 → Option Record} {inv : Inventory} {name : String}

theorem storedCount_empty (data : List UInt8 → Option Record) (key : InventoryKey) :
    storedCount "" data key = 0 := by
  unfold storedCount
  split
  · exact itemCount_empty_fromProto _
  · rfl

theorem storedCount_of_loaded (h : Loaded data key inv) :
    storedCount name data key = itemCount name inv.contents := by
  obtain ⟨x, hx, hd⟩ := h
  rcases x with p | p | b
  · obtain ⟨-, rfl⟩ := Inventory.fromProto_eq_ok.mp hd
    simp [storedCount, hx]
  · cases hd
  · cases hd

theorem sum_map_of_forall₂ {α β : Type} {R : α → β → Prop} {f : α → Nat} {g : β → Nat}
    {l₁ : List α} {l₂ : List β} (h : List.Forall₂ R l₁ l₂) (hfg : ∀ a b, R a b → f a = g b) :
    (l₁.map f).sum = (l₂.map g).sum := by
  induction h with
  | nil => rfl
  | cons hab _ ih => simp [hfg _ _ hab, ih]

/-- The vector a slots-only mutator leaves carries the keys that were loaded. -/
theorem map_key_of_slotsOnly {keys : List InventoryKey} {loaded invs : List Inventory}
    (hl : List.Forall₂ (Loaded data) keys loaded) (hs : SlotsOnly loaded invs) :
    invs.map (·.key) = keys := by
  induction hl generalizing invs with
  | nil => cases hs; rfl
  | cons hkey _ ih =>
    cases hs with
    | cons hab hs' => simp [hab.1, hkey.key_eq, ih hs']

/-- **Distinct keys conserve items.** A successful many-key mutation with distinct keys, whose
mutator only rewrites the slots of the vector it is handed and keeps each name's total over it,
keeps each name's total over the stored inventories of the keys. -/
theorem mutate_many_conserves_items {keys : List InventoryKey} (hk : keys.Nodup)
    {mutator : MultiMutator T} {t : T} (h : mutateInventoriesAtomically keys mutator m = .ok t m')
    (hmut : ∀ loaded m₁ invs r, loadAll keys m = .ok loaded m₁ → mutator loaded = some (invs, r) →
      SlotsOnly loaded invs ∧ ∀ name, vectorCount name invs = vectorCount name loaded)
    (name : String) :
    (keys.map (storedCount name m'.db.data)).sum = (keys.map (storedCount name m.db.data)).sum := by
  by_cases hname : name = ""
  · subst hname
    have h0 : ∀ d, storedCount "" d = fun _ ↦ 0 := fun d ↦ funext (storedCount_empty d)
    simp [h0]
  obtain ⟨loaded, m₁, invs, hl, hm, hdata, -⟩ := mutateInventoriesAtomically_of_ok h
  obtain ⟨hls, -⟩ := loadAll_of_ok hl
  obtain ⟨hs, hc⟩ := hmut loaded m₁ invs (.ok t) hl hm
  have hkeys := map_key_of_slotsOnly hls hs
  have hnodup : (invs.map (·.key)).Nodup := hkeys ▸ hk
  calc (keys.map (storedCount name m'.db.data)).sum
      = vectorCount name invs := by
        rw [← hkeys, List.map_map, hdata, vectorCount]
        congr 1
        refine List.map_congr_left fun inv hinv ↦ ?_
        simp only [Function.comp_apply, storedCount, written_of_mem hnodup hinv]
        exact itemCount_fromProto_slotToProto hname _
    _ = vectorCount name loaded := hc name
    _ = (keys.map (storedCount name m.db.data)).sum :=
        (sum_map_of_forall₂ hls fun _ _ hl ↦ storedCount_of_loaded hl).symm

/-- Conservation at a call on `sampleKey` and `secondKey` that moves the five `dirt` of the first
inventory into the second. -/
theorem mutate_many_conserves_items_two_keys :
    [sampleKey, secondKey].Nodup ∧
      mutateInventoriesAtomically [sampleKey, secondKey] moveBetweenCopies twoInventories =
        .ok () (mutateInventoriesAtomically [sampleKey, secondKey] moveBetweenCopies
          twoInventories).state ∧
      storedCount "dirt" (mutateInventoriesAtomically [sampleKey, secondKey] moveBetweenCopies
        twoInventories).state.db.data sampleKey = 0 ∧
      storedCount "dirt" (mutateInventoriesAtomically [sampleKey, secondKey] moveBetweenCopies
        twoInventories).state.db.data secondKey = 5 ∧
      ([sampleKey, secondKey].map (storedCount "dirt" (mutateInventoriesAtomically
        [sampleKey, secondKey] moveBetweenCopies twoInventories).state.db.data)).sum =
        ([sampleKey, secondKey].map (storedCount "dirt" twoInventories.db.data)).sum := by
  have hk : [sampleKey, secondKey].Nodup := by decide
  have h : mutateInventoriesAtomically [sampleKey, secondKey] moveBetweenCopies twoInventories =
      .ok () (mutateInventoriesAtomically [sampleKey, secondKey] moveBetweenCopies
        twoInventories).state := rfl
  refine ⟨hk, h, rfl, rfl, mutate_many_conserves_items hk h ?_ "dirt"⟩
  intro loaded m₁ invs r hl hm
  cases hl
  cases hm
  refine ⟨.cons ⟨rfl, rfl, rfl⟩ (.cons ⟨rfl, rfl, rfl⟩ .nil), fun name ↦ ?_⟩
  simp [vectorCount, ItemStack.sentinel, ItemStack.fromProto]
  omega

/-- `sampleKey` listed twice: both copies load as `sampleInventory`, the mutator moves the five
`dirt` from one copy to the other, keeping every name's total over the vector and touching only
slots, and the call succeeds, yet the store ends with ten `dirt` where it held five. -/
theorem repeated_key_duplicates_items :
    (loadAll [sampleKey, sampleKey] sampleManager).toExcept = .ok [sampleInventory, sampleInventory] ∧
      SlotsOnly [sampleInventory, sampleInventory]
        (moveBetweenCopies [sampleInventory, sampleInventory]).get!.1 ∧
      (∀ name, vectorCount name (moveBetweenCopies [sampleInventory, sampleInventory]).get!.1 =
        vectorCount name [sampleInventory, sampleInventory]) ∧
      (mutateInventoriesAtomically [sampleKey, sampleKey] moveBetweenCopies sampleManager).toExcept =
        .ok () ∧
      storedCount "dirt" sampleManager.db.data sampleKey = 5 ∧
      storedCount "dirt"
        (mutateInventoriesAtomically [sampleKey, sampleKey] moveBetweenCopies sampleManager).state.db.data
        sampleKey = 10 := by
  refine ⟨rfl, ?_, fun name ↦ ?_, rfl, rfl, rfl⟩
  · exact .cons ⟨rfl, rfl, rfl⟩ (.cons ⟨rfl, rfl, rfl⟩ .nil)
  · simp [vectorCount, moveBetweenCopies, sampleInventory]
    omega

end InventoryManager

end Cuberef
