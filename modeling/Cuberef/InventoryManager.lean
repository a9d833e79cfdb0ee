import Cuberef.Inventory
import Mathlib.Data.List.Forall2

/-!
# The inventory manager

`InventoryManager` of `game_state/inventory.rs`: allocation, reads, and the two atomic-mutation
entry points, over the shared store.

The manager's state is the store and the log of keys sent on `update_sender`. The database
mutex serialises every call, so each call is one step of this state. A call that fails keeps the
state it reached: a write made before a later `?` stays.

A mutator is the closure handed to the mutation entry points. Through `&mut Inventory` it may
rewrite slots, assign the public `dimensions`, or replace the whole value with another inventory
it owns (`*inv = other`); through `&mut Vec<Inventory>` it may also reorder, drop or push
inventories. The model therefore lets a mutator return any inventory (or list), with its return
value, or `none` where it panics; a panic unwinds before anything is written.

The load of one key is written once (`load`) and used by both entry points, which the source
spells out twice; the write-back of one inventory (`writeBack`) likewise. The single-key entry
point writes under the key it was given, the many-key one under each inventory's own key.
-/

namespace Cuberef

/-- The state the inventory manager owns: the shared store, and every key broadcast on
`update_sender`, oldest first. -/
structure InventoryManager where
  db : GameDatabase
  updates : List InventoryKey

/-- A mutator `FnOnce(&mut Inventory) -> Result<T>`: the inventory it leaves, and its return
value; `none` when it panics. -/
abbrev Mutator (T : Type) := Inventory → Option (Inventory × Except Error T)

/-- A mutator `FnOnce(&mut Vec<Inventory>) -> Result<T>`. -/
abbrev MultiMutator (T : Type) := List Inventory → Option (List Inventory × Except Error T)

namespace InventoryManager

variable {T α : Type}

/-- A call on the shared store. -/
def withDb (x : EStateM Error GameDatabase α) : EStateM Error InventoryManager α :=
  focus (·.db) (fun m db ↦ { m with db }) x

/-- `broadcast_update`: the key goes out on the channel (with no receiver, only a warning is
logged). -/
def broadcastUpdate (key : InventoryKey) : EStateM Error InventoryManager Unit := fun m ↦
  .ok () { m with updates := m.updates ++ [key] }

/-- **`make_inventory`**: allocate, then persist the empty inventory under its fresh key. -/
def makeInventory (height width : Nat) (id : Uuid) : EStateM Error InventoryManager InventoryKey :=
  do
  let inventory ← ofExcept (Inventory.new (height, width) id)
  withDb (GameDatabase.put inventory.key.toDbKey (.inventory inventory.toProto))
  pure inventory.key

/-- Decode a stored record and check its shape: `Inventory::from_proto(decode(x)?, *key)?`. -/
def decodeAt (key : InventoryKey) (x : Record) : Except Error Inventory :=
  x.decodeInventory >>= (Inventory.fromProto · key)

/-- **`get`**: read and decode the record, `none` when there is none. -/
def get (key : InventoryKey) : EStateM Error InventoryManager (Option Inventory) := do
  match ← withDb (GameDatabase.get key.toDbKey) with
  | some x => do
    let inv ← ofExcept (decodeAt key x)
    pure (some inv)
  | none => pure none

/-- The load step of both mutation entry points: read, decode, and fail on a missing key. -/
def load (key : InventoryKey) : EStateM Error InventoryManager Inventory := do
  match ← withDb (GameDatabase.get key.toDbKey) with
  | some x => ofExcept (decodeAt key x)
  | none => throw (.msg "Inventory ID not found")

/-- The loading loop of `mutate_inventories_atomically`, pushing each inventory in order. -/
def loadAll : List InventoryKey → EStateM Error InventoryManager (List Inventory)
  | [] => pure []
  | key :: keys => do
    let inv ← load key
    let invs ← loadAll keys
    pure (inv :: invs)

/-- The write-back step of both entry points: persist under `key`, then broadcast it. -/
def writeBack (key : InventoryKey) (inv : Inventory) : EStateM Error InventoryManager Unit := do
  withDb (GameDatabase.put key.toDbKey (.inventory inv.toProto))
  broadcastUpdate key

/-- The write-back loop of `mutate_inventories_atomically`: each inventory under its own key. -/
def writeBackAll : List Inventory → EStateM Error InventoryManager Unit
  | [] => pure ()
  | inv :: invs => do
    writeBack inv.key inv
    writeBackAll invs

/-- Call the mutator; a panic unwinds. -/
def runMutator (r : Option (α × Except Error T)) :
    EStateM Error InventoryManager (α × Except Error T) :=
  match r with
  | some p => pure p
  | none => throw (.panic "mutator panicked")

/-- **`mutate_inventory_atomically`.** Load, run the mutator, write back and broadcast, then
return the mutator's result — an `Err` from the mutator included. -/
def mutateInventoryAtomically (key : InventoryKey) (mutator : Mutator T) :
    EStateM Error InventoryManager T := do
  let inv ← load key
  let (inv, result) ← runMutator (mutator inv)
  writeBack key inv
  ofExcept result

/-- **`mutate_inventories_atomically`.** Load every listed key in order, run the mutator on the
vector, write back every inventory of the vector it leaves, then return its result. -/
def mutateInventoriesAtomically (keys : List InventoryKey) (mutator : MultiMutator T) :
    EStateM Error InventoryManager T := do
  let inventories ← loadAll keys
  let (inventories, result) ← runMutator (mutator inventories)
  writeBackAll inventories
  ofExcept result

/-! ### What each step does to the state -/

/-- Nothing observable changed: the same entries, and nothing broadcast. -/
def Untouched (m m' : InventoryManager) : Prop := m'.db.data = m.db.data ∧ m'.updates = m.updates

theorem Untouched.refl (m : InventoryManager) : Untouched m m := ⟨rfl, rfl⟩

theorem Untouched.trans {m₁ m₂ m₃ : InventoryManager} (h₁ : Untouched m₁ m₂)
    (h₂ : Untouched m₂ m₃) : Untouched m₁ m₃ :=
  ⟨h₂.1.trans h₁.1, h₂.2.trans h₁.2⟩

/-- The entries after writing each inventory under its own key, in order. -/
def written (data : List UInt8 → Option Record) : List Inventory → List UInt8 → Option Record
  | [] => data
  | inv :: invs => written (Function.update data inv.key.toDbKey (some (.inventory inv.toProto))) invs

@[simp] theorem written_nil (data : List UInt8 → Option Record) : written data [] = data := rfl

@[simp] theorem written_cons (data : List UInt8 → Option Record) (inv : Inventory) (invs) :
    written data (inv :: invs) =
      written (Function.update data inv.key.toDbKey (some (.inventory inv.toProto))) invs := rfl

variable {m m' m₁ : InventoryManager} {key : InventoryKey} {inv : Inventory} {e : Error}

theorem withDb_of_ok {x : EStateM Error GameDatabase α} {a : α} {db : GameDatabase}
    (h : x m.db = .ok a db) : withDb x m = .ok a { m with db } :=
  focus_of_ok h

theorem withDb_of_error {x : EStateM Error GameDatabase α} {db : GameDatabase}
    (h : x m.db = .error e db) : withDb x m = .error e { m with db } :=
  focus_of_error h

/-- A read through the store is untouched by it. -/
theorem withDb_get_untouched (k : List UInt8) : Untouched m (withDb (GameDatabase.get k) m).state := by
  have hd := @GameDatabase.get_data k m.db
  cases h : GameDatabase.get k m.db with
  | ok a db => rw [withDb_of_ok h]; rw [h] at hd; exact ⟨hd, rfl⟩
  | error e db => rw [withDb_of_error h]; rw [h] at hd; exact ⟨hd, rfl⟩

/-- A load ends in the state its read ended in. -/
theorem load_state : (load key m).state = (withDb (GameDatabase.get key.toDbKey) m).state := by
  unfold load
  cases h : withDb (GameDatabase.get key.toDbKey) m with
  | error e m₁ => rw [bind_of_error h]; rfl
  | ok x m₁ =>
    rw [bind_of_ok h]
    rcases x with _ | x
    · rfl
    · show (ofExcept (decodeAt key x) m₁).state = m₁
      cases decodeAt key x <;> rfl

/-- **A load writes nothing and broadcasts nothing**, whatever its outcome. -/
theorem load_untouched (m : InventoryManager) (key : InventoryKey) :
    Untouched m (load key m).state := by
  rw [load_state]
  exact withDb_get_untouched _

theorem loadAll_untouched (keys : List InventoryKey) : Untouched m (loadAll keys m).state := by
  induction keys generalizing m with
  | nil => exact Untouched.refl m
  | cons key keys ih =>
    have h₁ := load_untouched m key
    simp only [loadAll]
    cases h : load key m with
    | error e m₁ => rw [bind_of_error h]; simpa [h] using h₁
    | ok inv m₁ =>
      rw [bind_of_ok h]
      rw [h] at h₁
      cases h' : loadAll keys m₁ with
      | error e m₂ => rw [bind_of_error h']; simpa [h'] using h₁.trans (ih (m := m₁))
      | ok invs m₂ => rw [bind_of_ok h']; simpa [h'] using h₁.trans (ih (m := m₁))

/-- A write-back that returned wrote the record and broadcast the key. -/
theorem writeBack_of_ok {u : Unit} (h : writeBack key inv m = .ok u m') :
    m'.db.data = Function.update m.db.data key.toDbKey (some (.inventory inv.toProto)) ∧
      m'.updates = m.updates ++ [key] := by
  unfold writeBack at h
  obtain ⟨_, m₁, h₁, h₂⟩ := bind_eq_ok h
  cases hp : GameDatabase.put key.toDbKey (.inventory inv.toProto) m.db with
  | error e db => rw [withDb_of_error hp] at h₁; cases h₁
  | ok u db =>
    rw [withDb_of_ok hp] at h₁
    cases h₁
    cases h₂
    exact ⟨GameDatabase.put_ok_data hp, rfl⟩

/-- A write-back that failed wrote nothing and broadcast nothing; its error is the store's. -/
theorem writeBack_of_error (h : writeBack key inv m = .error e m') : Untouched m m' ∧ e = .store := by
  unfold writeBack at h
  rcases bind_eq_error h with h₁ | ⟨_, m₁, _, h₂⟩
  · cases hp : GameDatabase.put key.toDbKey (.inventory inv.toProto) m.db with
    | error e' db =>
      rw [withDb_of_error hp] at h₁
      cases h₁
      unfold GameDatabase.put at hp
      split at hp <;> cases hp
      exact ⟨⟨rfl, rfl⟩, rfl⟩
    | ok u db => rw [withDb_of_ok hp] at h₁; cases h₁
  · cases h₂

/-- On a store that does not fail, a write-back returns. -/
theorem writeBack_of_reliable (h : m.db.Reliable) :
    writeBack key inv m = .ok ()
      { db := { m.db.tick with
                  data := Function.update m.db.data key.toDbKey (some (.inventory inv.toProto)) },
        updates := m.updates ++ [key] } := by
  unfold writeBack
  rw [bind_of_ok (withDb_of_ok (GameDatabase.put_of_reliable h))]
  rfl

/-- **The write-back loop** writes a prefix of the list, broadcasting each key written; it
covers the whole list unless a store failure stops it. -/
theorem writeBackAll_effect (invs : List Inventory) :
    ∃ n ≤ invs.length,
      (writeBackAll invs m).state.db.data = written m.db.data (invs.take n) ∧
      (writeBackAll invs m).state.updates = m.updates ++ (invs.take n).map (·.key) ∧
      ((writeBackAll invs m).toExcept = .ok () ∧ n = invs.length ∨
        (writeBackAll invs m).toExcept = .error .store ∧ n < invs.length) := by
  induction invs generalizing m with
  | nil => exact ⟨0, Nat.le_refl _, rfl, by simp [writeBackAll], .inl ⟨rfl, rfl⟩⟩
  | cons inv invs ih =>
    simp only [writeBackAll]
    cases h : writeBack inv.key inv m with
    | error e m₁ =>
      obtain ⟨⟨hd, hu⟩, rfl⟩ := writeBack_of_error h
      rw [bind_of_error h]
      exact ⟨0, Nat.zero_le _, hd, by simpa using hu, .inr ⟨rfl, Nat.succ_pos _⟩⟩
    | ok u m₁ =>
      obtain ⟨hd, hu⟩ := writeBack_of_ok h
      rw [bind_of_ok h]
      obtain ⟨n, hn, hd', hu', hr⟩ := ih (m := m₁)
      refine ⟨n + 1, Nat.succ_le_succ hn, ?_, ?_, ?_⟩
      · rw [hd', hd]; rfl
      · rw [hu', hu]; simp
      · rcases hr with ⟨hr, rfl⟩ | ⟨hr, hlt⟩
        · exact .inl ⟨hr, rfl⟩
        · exact .inr ⟨hr, Nat.succ_lt_succ hlt⟩

/-- A write-back loop that returned wrote and broadcast the whole list, in order. -/
theorem writeBackAll_of_ok {invs : List Inventory} {u : Unit} (h : writeBackAll invs m = .ok u m') :
    m'.db.data = written m.db.data invs ∧ m'.updates = m.updates ++ invs.map (·.key) := by
  obtain ⟨n, -, hd, hu, hr⟩ := writeBackAll_effect (m := m) invs
  rw [h] at hd hu hr
  rcases hr with ⟨-, rfl⟩ | ⟨hr, -⟩
  · rw [List.take_length] at hd hu
    exact ⟨hd, hu⟩
  · cases hr

@[simp] theorem runMutator_some_bind {β : Type} {p : α × Except Error T}
    {f : α × Except Error T → EStateM Error InventoryManager β} :
    (runMutator (some p) >>= f) m = f p m := rfl

@[simp] theorem runMutator_none_bind {β : Type}
    {f : α × Except Error T → EStateM Error InventoryManager β} :
    (runMutator (none : Option (α × Except Error T)) >>= f) m =
      .error (.panic "mutator panicked") m := rfl

/-- The record at `key` reads back as `inv`. -/
def Loaded (data : List UInt8 → Option Record) (key : InventoryKey) (inv : Inventory) : Prop :=
  ∃ x, data key.toDbKey = some x ∧ decodeAt key x = .ok inv

/-- The entries a read served: a `get` returns the entry at its key. -/
theorem withDb_get_of_ok {k : List UInt8} {x : Option Record}
    (h : withDb (GameDatabase.get k) m = .ok x m₁) : m.db.data k = x := by
  cases hq : GameDatabase.get k m.db with
  | error e db => rw [withDb_of_error hq] at h; cases h
  | ok a db =>
    rw [withDb_of_ok hq] at h
    cases h
    unfold GameDatabase.get at hq
    split at hq <;> cases hq
    rfl

/-- A load that returned read a record that decodes to what it returned. -/
theorem load_of_ok (h : load key m = .ok inv m₁) : Loaded m.db.data key inv ∧ Untouched m m₁ := by
  have hu : Untouched m m₁ := by simpa [h] using load_untouched m key
  refine ⟨?_, hu⟩
  unfold load at h
  obtain ⟨x, m₂, hg, h⟩ := bind_eq_ok h
  rcases x with _ | x
  · cases h
  · refine ⟨x, withDb_get_of_ok hg, ?_⟩
    change ofExcept (decodeAt key x) m₂ = .ok inv m₁ at h
    cases hr : decodeAt key x with
    | error e => rw [hr] at h; cases h
    | ok i => rw [hr] at h; cases h; rfl

/-- A `get` that returned an inventory read a record that decodes to it. -/
theorem get_of_ok_some (h : get key m = .ok (some inv) m₁) : Loaded m.db.data key inv := by
  unfold get at h
  obtain ⟨x, m₂, hg, h⟩ := bind_eq_ok h
  rcases x with _ | x
  · cases h
  · refine ⟨x, withDb_get_of_ok hg, ?_⟩
    change (ofExcept (decodeAt key x) >>= fun inv ↦ pure (some inv)) m₂ = .ok (some inv) m₁ at h
    cases hr : decodeAt key x with
    | error e => rw [hr] at h; cases h
    | ok i => rw [hr] at h; cases h; rfl

theorem loadAll_of_ok {keys : List InventoryKey} {loaded : List Inventory}
    (h : loadAll keys m = .ok loaded m₁) :
    List.Forall₂ (Loaded m.db.data) keys loaded ∧ Untouched m m₁ := by
  induction keys generalizing m loaded with
  | nil => cases h; exact ⟨.nil, Untouched.refl _⟩
  | cons key keys ih =>
    simp only [loadAll] at h
    obtain ⟨inv, m₂, h₁, h⟩ := bind_eq_ok h
    obtain ⟨invs, m₃, h₂, h⟩ := bind_eq_ok h
    cases h
    obtain ⟨hl, hu⟩ := load_of_ok h₁
    obtain ⟨hls, hu'⟩ := ih h₂
    rw [hu.1] at hls
    exact ⟨.cons hl hls, hu.trans hu'⟩

/-- Writes under other keys leave an entry alone. -/
theorem written_of_not_mem {data : List UInt8 → Option Record} {invs : List Inventory}
    (h : key ∉ invs.map (·.key)) : written data invs key.toDbKey = data key.toDbKey := by
  induction invs generalizing data with
  | nil => rfl
  | cons x invs ih =>
    simp only [List.map_cons, List.mem_cons, not_or] at h
    rw [written_cons, ih h.2, Function.update_noteq]
    exact fun h' ↦ h.1 (InventoryKey.toDbKey_injective h')

/-- With distinct keys, every inventory written is what its key holds at the end. -/
theorem written_of_mem {data : List UInt8 → Option Record} {invs : List Inventory}
    (hk : (invs.map (·.key)).Nodup) (hinv : inv ∈ invs) :
    written data invs inv.key.toDbKey = some (.inventory inv.toProto) := by
  induction invs generalizing data with
  | nil => cases hinv
  | cons x invs ih =>
    rw [List.map_cons, List.nodup_cons] at hk
    rcases List.mem_cons.mp hinv with rfl | hinv
    · rw [written_cons, written_of_not_mem hk.1, Function.update_same]
    · exact ih hk.2 hinv

/-- A loaded inventory carries the key it was loaded from. -/
theorem Loaded.key_eq {data : List UInt8 → Option Record} (h : Loaded data key inv) :
    inv.key = key := by
  obtain ⟨x, -, hx⟩ := h
  rcases x with p | p | b
  · exact ((Inventory.fromProto_eq_ok.mp hx).2 ▸ rfl : inv.key = key)
  · cases hx
  · cases hx

end InventoryManager

end Cuberef
