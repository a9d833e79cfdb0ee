import Cuberef.Player.Keys
import Cuberef.Player.Writeback
import Cuberef.InventoryManager.Refinement

/-!
# What the player manager keeps in the store

The player manager and the inventory manager share one store. This module states what each
call they make may write (`StoreStep`), and proves two things over whole runs of the server,
whichever calls fail: every call of every run is such a step, and the store and the table stay
consistent with each other (`persisted_step`, `persisted_run`).

## The store steps

* **Calls that write nothing.** A read, and any call that fails, leave every entry as it was
  (`StoreStep.call`).
* **Inventories.** `make_inventory` writes the encoding of the empty inventory it allocated,
  under that inventory's key (`StoreStep.inventory`).
* **Players.** `write_back` writes a player's record, with its last position and main inventory
  key, under the player's name. It is only called for a player whose main inventory was read
  from the store (`StoreStep.player`).

The names whose records a step may write are a parameter `N`. `connect` writes only the record
of the name it connects (`stepsOn_loadOrCreate`); `drop_disconnect` and `flush` write only the
records of active players (`persisted_dropDisconnect`, `persisted_flush`).

## The invariant

`Persisted` says the store is well formed (`StoreWF`), and every active player is in the table
under its own name, with its main inventory in the store. The name check spans the store.
`from_server_proto` takes the player's name from the stored record, not from the name `connect`
inserts it under, and `write_back` writes under the player's name. The two names agree because a
well-formed store holds each record under the name it carries (`loadOrCreate_ok`).

## Main results

* `runs_keep_players_persisted`: every run from a well-formed store keeps the store well formed
  and the table persisted, under every pattern of store failures.
* `unconnected_record_untouched`: a run writes a player's record only if that player connects
  in it. It rests on `run_frame`, and on `dbKey_injective` (`Cuberef.Player.Keys`): one player's
  record key is never another's.
* `active_players_consistent`: in every state a run reaches from a well-formed store, the live
  contexts and the table agree (`Server.Consistent`). A well-formed store makes `connect` hand out
  contexts named as the client asked (`connectsAsAsked`), the hypothesis of
  `Server.consistent_step`. On a store holding a record under another player's name the table
  and the contexts part (`mismatched_record_breaks_table`).
-/

namespace Cuberef

namespace PlayerManager

open InventoryManager

/-! ### The calls the managers make on the store -/

/-- The entries of a store. -/
abbrev Data := List UInt8 → Option Record

/-- The encoding of `a` under `key`, as `make_inventory` and `write_back` store it. -/
def inventoryRecord (key : InventoryKey) (a : Stored) : Record := .inventory (a.withKey key).toProto

/-- The record `write_back` stores for a player at `pos` with main inventory `key`. -/
def playerRecord (name : String) (pos : Vec3F) (key : InventoryKey) : Record :=
  .storedPlayer ⟨name, some pos, key.asBytes⟩

/-- The store after a `put` of `x` under `k` that succeeds. -/
def afterPut (db : GameDatabase) (k : List UInt8) (x : Record) : GameDatabase :=
  { db.tick with data := Function.update db.data k (some x) }

@[simp] theorem afterPut_data (db : GameDatabase) (k : List UInt8) (x : Record) :
    (afterPut db k x).data = Function.update db.data k (some x) := rfl

@[simp] theorem afterPut_faults (db : GameDatabase) (k : List UInt8) (x : Record) :
    (afterPut db k x).faults = db.faults := rfl

/-- One call of the player and inventory managers on the store: one that changes no entry (a
read, or a call that fails); the encoding of a well-formed inventory under its key; or the record
of a player named in `N`, whose main inventory is in the store. -/
inductive StoreStep (N : String → Prop) : GameDatabase → GameDatabase → Prop
  | call (db : GameDatabase) : StoreStep N db db.tick
  | inventory (db : GameDatabase) (key : InventoryKey) (a : Stored) :
      StoreStep N db (afterPut db key.toDbKey (inventoryRecord key a))
  | player (db : GameDatabase) {name : String} (pos : Vec3F) {key : InventoryKey} (hN : N name)
      (hk : (db.data key.toDbKey).isSome) :
      StoreStep N db (afterPut db (dbKey name) (playerRecord name pos key))

/-- A sequence of such calls. -/
abbrev StoreSteps (N : String → Prop) := Relation.ReflTransGen (StoreStep N)

theorem dbKey_ne_toDbKey (name : String) (key : InventoryKey) : dbKey name ≠ key.toDbKey :=
  fun h ↦ (key_spaces_never_collide.2 key name) h.symm

namespace StoreStep

variable {N : String → Prop} {db db' : GameDatabase}

theorem faults (h : StoreStep N db db') : db'.faults = db.faults := by
  cases h <;> rfl

/-- No call removes an entry. -/
theorem isSome {k : List UInt8} (h : StoreStep N db db') (hk : (db.data k).isSome) :
    (db'.data k).isSome := by
  cases h with
  | call => exact hk
  | inventory key a =>
    by_cases e : k = key.toDbKey
    · subst e; simp
    · rwa [afterPut_data, Function.update_noteq e]
  | player pos hN hk' =>
    rename_i name key
    by_cases e : k = dbKey name
    · subst e; simp
    · rwa [afterPut_data, Function.update_noteq e]

/-- A player's record changes only when the player is named in `N`. -/
theorem frame {name : String} (h : StoreStep N db db') (hN : ¬ N name) :
    db'.data (dbKey name) = db.data (dbKey name) := by
  cases h with
  | call => rfl
  | inventory key a => rw [afterPut_data, Function.update_noteq (dbKey_ne_toDbKey name key)]
  | player pos hN' hk =>
    rename_i name' key
    have hne : dbKey name ≠ dbKey name' := fun e ↦ hN (dbKey_injective e ▸ hN')
    rw [afterPut_data, Function.update_noteq hne]

theorem mono {N' : String → Prop} (hN : ∀ n, N n → N' n) (h : StoreStep N db db') :
    StoreStep N' db db' := by
  cases h with
  | call => exact .call _
  | inventory key a => exact .inventory _ key a
  | player pos hN' hk => exact .player _ pos (hN _ hN') hk

end StoreStep

namespace StoreSteps

variable {N : String → Prop} {db db' : GameDatabase}

theorem faults (h : StoreSteps N db db') : db'.faults = db.faults := by
  induction h with
  | refl => rfl
  | tail _ h ih => rw [h.faults, ih]

theorem isSome {k : List UInt8} (h : StoreSteps N db db') (hk : (db.data k).isSome) :
    (db'.data k).isSome := by
  induction h with
  | refl => exact hk
  | tail _ h ih => exact h.isSome ih

theorem frame {name : String} (h : StoreSteps N db db') (hN : ¬ N name) :
    db'.data (dbKey name) = db.data (dbKey name) := by
  induction h with
  | refl => rfl
  | tail _ h ih => rw [h.frame hN, ih]

theorem mono {N' : String → Prop} (hN : ∀ n, N n → N' n) (h : StoreSteps N db db') :
    StoreSteps N' db db' :=
  Relation.ReflTransGen.lift id (fun _ _ ↦ StoreStep.mono hN) h

end StoreSteps

/-! ### Well-formed stores -/

/-- **A well-formed store.** Every inventory key holds the encoding of a well-formed inventory or
nothing, and every player key holds that player's record, with a last position and the key of a
main inventory the store holds. -/
structure StoreWF (data : Data) : Prop where
  /-- The inventory entries encode some abstract map of inventories. -/
  inventories : ∃ M : InventoryMap, ∀ key, data key.toDbKey = (M key).map (inventoryRecord key)
  /-- Each player entry is the record of the player it is stored for. -/
  players : ∀ name x, data (dbKey name) = some x →
    ∃ pos key, x = playerRecord name pos key ∧ (data key.toDbKey).isSome

namespace StoreWF

variable {N : String → Prop} {db db' : GameDatabase}

theorem step (hwf : StoreWF db.data) (h : StoreStep N db db') : StoreWF db'.data := by
  obtain ⟨⟨M, hM⟩, hp⟩ := hwf
  cases h with
  | call => exact ⟨⟨M, hM⟩, hp⟩
  | inventory key a =>
    refine ⟨⟨Function.update M key (some a), fun key' ↦ ?_⟩, fun name x hx ↦ ?_⟩
    · by_cases e : key' = key
      · subst e; simp
      · simp only [afterPut_data, Function.update_noteq e,
          Function.update_noteq (InventoryKey.toDbKey_injective.ne e)]
        exact hM key'
    · simp only [afterPut_data, Function.update_noteq (dbKey_ne_toDbKey name key)] at hx ⊢
      obtain ⟨pos, k, rfl, hk⟩ := hp name x hx
      exact ⟨pos, k, rfl, (StoreStep.inventory _ key a (N := N)).isSome hk⟩
  | player pos hN hk =>
    rename_i name key
    refine ⟨⟨M, fun key' ↦ ?_⟩, fun name' x hx ↦ ?_⟩
    · simp only [afterPut_data, Function.update_noteq (dbKey_ne_toDbKey name key').symm]
      exact hM key'
    · have hstep := StoreStep.player (N := N) _ pos hN hk
      by_cases e : name' = name
      · subst e
        simp only [afterPut_data, Function.update_same, Option.some.injEq] at hx
        exact ⟨pos, key, hx.symm, hstep.isSome hk⟩
      · simp only [afterPut_data, Function.update_noteq (dbKey_injective.ne e)] at hx
        obtain ⟨pos', k, rfl, hk'⟩ := hp name' x hx
        exact ⟨pos', k, rfl, hstep.isSome hk'⟩

theorem steps (hwf : StoreWF db.data) (h : StoreSteps N db db') : StoreWF db'.data := by
  induction h with
  | refl => exact hwf
  | tail _ h ih => exact ih.step h

/-- The empty store is well formed. -/
theorem empty : StoreWF GameDatabase.inMem.data :=
  ⟨⟨fun _ ↦ none, fun _ ↦ rfl⟩, fun _ _ h ↦ by cases h⟩

end StoreWF

/-! ### The store calls each operation makes -/

section StepsOn

variable {σ τ α β : Type} {d : σ → GameDatabase} {N : String → Prop}

/-- Every call `x` makes on the store it sees through `d` is a step of `StoreStep N`, from any
state, whether `x` returns or fails. -/
def StepsOn (d : σ → GameDatabase) (N : String → Prop) (x : EStateM Error σ α) : Prop :=
  ∀ s, StoreSteps N (d s) (d (x s).state)

/-- The steps of a bind from one state: the first half's, then, if it returned, the second's. -/
theorem storeSteps_bind {x : EStateM Error σ α} {y : α → EStateM Error σ β} {s : σ}
    (hx : StoreSteps N (d s) (d (x s).state))
    (hy : ∀ a s', x s = .ok a s' → StoreSteps N (d s') (d (y a s').state)) :
    StoreSteps N (d s) (d ((x >>= y) s).state) := by
  cases h : x s with
  | ok a s' => rw [h] at hx; rw [bind_of_ok h]; exact hx.trans (hy a s' h)
  | error e s' => rw [h] at hx; rw [bind_of_error h]; exact hx

theorem StepsOn.bind_of {x : EStateM Error σ α} {y : α → EStateM Error σ β} (hx : StepsOn d N x)
    (hy : ∀ s a s', x s = .ok a s' → StoreSteps N (d s') (d (y a s').state)) :
    StepsOn d N (x >>= y) := fun s ↦
  storeSteps_bind (hx s) (hy s)

theorem StepsOn.bind {x : EStateM Error σ α} {y : α → EStateM Error σ β} (hx : StepsOn d N x)
    (hy : ∀ a, StepsOn d N (y a)) : StepsOn d N (x >>= y) :=
  hx.bind_of fun _ a s' _ ↦ hy a s'

/-- A computation that leaves the store alone makes no step. -/
theorem Keeps.stepsOn {x : EStateM Error σ α} (h : Keeps d x) : StepsOn d N x := fun s ↦ by
  rw [h s]

theorem StepsOn.focus {get : σ → τ} {set : σ → τ → σ} {d' : τ → GameDatabase}
    {y : EStateM Error τ α} (hget : ∀ s, d' (get s) = d s) (hset : ∀ s t, d (set s t) = d' t)
    (hy : StepsOn d' N y) : StepsOn d N (Cuberef.focus get set y) := by
  intro s
  have h₁ := hy (get s)
  rw [hget] at h₁
  unfold Cuberef.focus
  split <;> rename_i h <;> rw [h] at h₁ <;>
    simpa only [EStateM.Result.state_ok, EStateM.Result.state_error, hset] using h₁

end StepsOn

variable {N : String → Prop} {α : Type}

/-- A read, and a call that fails, change no entry. -/
theorem stepsOn_get (k : List UInt8) : StepsOn id N (GameDatabase.get k) := fun db ↦ by
  unfold GameDatabase.get
  split <;> exact .single (.call db)

theorem stepsOn_putInventory (key : InventoryKey) (a : Stored) :
    StepsOn id N (GameDatabase.put key.toDbKey (inventoryRecord key a)) := fun db ↦ by
  unfold GameDatabase.put
  split
  · exact .single (.call db)
  · exact .single (.inventory db key a)

theorem stepsOn_withDb {x : EStateM Error GameDatabase α} (h : StepsOn id N x) :
    StepsOn (·.db) N (InventoryManager.withDb x) :=
  StepsOn.focus (fun _ ↦ rfl) (fun _ _ ↦ rfl) h

/-- `make_inventory` stores the empty inventory it allocated, a well-formed one. -/
theorem stepsOn_makeInventory (height width : Nat) (id : Uuid) :
    StepsOn (·.db) N (makeInventory height width id) := by
  intro m
  unfold makeInventory
  cases hn : Inventory.new (height, width) id with
  | error e => rw [bind_of_error ofExcept_error]; exact .refl
  | ok inv =>
    obtain ⟨h₁, h₂, h₃, rfl⟩ := Inventory.new_eq_ok.mp hn
    rw [bind_of_ok ofExcept_ok]
    exact ((stepsOn_withDb (stepsOn_putInventory ⟨id⟩ (Stored.empty height width ⟨h₁, h₂, h₃⟩))).bind
      fun _ ↦ Keeps.stepsOn (keeps_pure _ _)) m

theorem stepsOn_inventoryGet (key : InventoryKey) : StepsOn (·.db) N (InventoryManager.get key) :=
  (stepsOn_withDb (stepsOn_get _)).bind fun
    | some _ => Keeps.stepsOn ((keeps_ofExcept _ _).bind fun _ ↦ keeps_pure _ _)
    | none => Keeps.stepsOn (keeps_pure _ _)

theorem stepsOn_newStored (key : InventoryKey) (canPlace canTake : Bool) (id : Nat) :
    StepsOn (·.db) N (InventoryView.newStored key canPlace canTake id) :=
  (stepsOn_inventoryGet key).bind fun
    | some _ => Keeps.stepsOn (keeps_pure _ _)
    | none => Keeps.stepsOn (keeps_throw _ _)

theorem stepsOn_onInventories {x : EStateM Error InventoryManager α} (h : StepsOn (·.db) N x) :
    StepsOn (·.inventories.db) N (onInventories x) :=
  StepsOn.focus (fun _ ↦ rfl) (fun _ _ ↦ rfl) h

theorem stepsOn_newStoredView (key : InventoryKey) (canPlace canTake : Bool) :
    StepsOn (·.inventories.db) N (newStoredView key canPlace canTake) := by
  refine (Keeps.stepsOn (keeps_get _)).bind fun _ ↦
    (stepsOn_onInventories (stepsOn_newStored _ _ _ _)).bind fun _ ↦
      Keeps.stepsOn (Keeps.bind ?_ fun _ ↦ keeps_pure _ _)
  exact keeps_modify fun _ ↦ rfl

theorem stepsOn_fromServerProto (proto : StoredPlayer) :
    StepsOn (·.inventories.db) N (fromServerProto proto) :=
  (Keeps.stepsOn (keeps_ofExcept _ _)).bind fun _ ↦ (Keeps.stepsOn (keeps_ofExcept _ _)).bind fun _ ↦
    (stepsOn_newStoredView _ _ _).bind fun _ ↦ (stepsOn_newStoredView _ _ _).bind fun _ ↦
      Keeps.stepsOn (keeps_pure _ _)

theorem stepsOn_newPlayer (name : String) (id : Uuid) :
    StepsOn (·.inventories.db) N (newPlayer name id) :=
  (stepsOn_onInventories (stepsOn_makeInventory _ _ _)).bind fun _ ↦
    (stepsOn_newStoredView _ _ _).bind fun _ ↦ (stepsOn_newStoredView _ _ _).bind fun _ ↦
      Keeps.stepsOn (keeps_pure _ _)

variable {m m' : PlayerManager}

theorem withDb_state (x : EStateM Error GameDatabase α) (m : PlayerManager) :
    (withDb x m).state.inventories.db = (x m.inventories.db).state := by
  cases h : x m.inventories.db with
  | ok a db => rw [withDb, onInventories, focus_of_ok (InventoryManager.withDb_of_ok h)]; rfl
  | error e db => rw [withDb, onInventories, focus_of_error (InventoryManager.withDb_of_error h)]; rfl

/-- `write_back` of a player named in `N` whose main inventory is in the store. -/
theorem storeSteps_writeBack {player : Player} (hN : N player.name)
    (hk : (m.inventories.db.data player.mainInventoryKey.toDbKey).isSome) :
    StoreSteps N m.inventories.db (writeBack player m).state.inventories.db := by
  rw [writeBack, withDb_state]
  unfold GameDatabase.put
  split
  · exact .single (.call _)
  · exact .single (.player _ player.state.lastPosition hN hk)

/-! ### What a returning operation leaves in the store -/

theorem onInventories_eq_ok {x : EStateM Error InventoryManager α} {a : α}
    (h : onInventories x m = .ok a m') : ∃ t, x m.inventories = .ok a t := by
  unfold onInventories Cuberef.focus at h
  split at h <;> cases h
  exact ⟨_, ‹_›⟩

theorem withDb_get_of_ok {k : List UInt8} {x : Option Record}
    (h : withDb (GameDatabase.get k) m = .ok x m') : m.inventories.db.data k = x := by
  obtain ⟨t, ht⟩ := onInventories_eq_ok h
  exact InventoryManager.withDb_get_of_ok ht

theorem ofExcept_eq_ok {σ : Type} {r : Except Error α} {a : α} {s s' : σ}
    (h : (ofExcept r : EStateM Error σ α) s = .ok a s') : r = .ok a ∧ s' = s := by
  cases r <;> cases h
  exact ⟨rfl, rfl⟩

/-- A stored view is made only of an inventory the store holds. -/
theorem isSome_of_newStoredView {key : InventoryKey} {canPlace canTake : Bool} {v : InventoryView}
    (h : newStoredView key canPlace canTake m = .ok v m') :
    (m'.inventories.db.data key.toDbKey).isSome := by
  have hs := stepsOn_newStoredView (N := fun _ ↦ True) key canPlace canTake m
  rw [h] at hs
  refine hs.isSome ?_
  obtain ⟨_, _, ⟨⟩, h⟩ := bind_eq_ok h
  obtain ⟨_, _, h, -⟩ := bind_eq_ok h
  obtain ⟨_, h⟩ := onInventories_eq_ok h
  unfold InventoryView.newStored at h
  obtain ⟨r, _, hg, h⟩ := bind_eq_ok h
  cases r with
  | none => cases h
  | some inv =>
    obtain ⟨x, hx, -⟩ := get_of_ok_some hg
    rw [hx]
    rfl

theorem parseBytes_eq_ok {bytes : List UInt8} {key : InventoryKey}
    (h : InventoryKey.parseBytes bytes = .ok key) : key.asBytes = bytes := by
  unfold InventoryKey.parseBytes at h
  split at h <;> cases h
  rfl

/-- **What `from_server_proto` builds.** The player it returns has the record's name, last
position and main inventory key, and that inventory is in the store. -/
theorem fromServerProto_ok {proto : StoredPlayer} {player : Player}
    (h : fromServerProto proto m = .ok player m') :
    player.name = proto.name ∧ player.mainInventoryKey.asBytes = proto.mainInventory ∧
      proto.lastPosition = some player.state.lastPosition ∧
      (m'.inventories.db.data player.mainInventoryKey.toDbKey).isSome := by
  unfold fromServerProto at h
  obtain ⟨key, _, h₁, h⟩ := bind_eq_ok h
  obtain ⟨pos, _, h₂, h⟩ := bind_eq_ok h
  obtain ⟨_, _, -, h⟩ := bind_eq_ok h
  obtain ⟨_, _, h₃, h⟩ := bind_eq_ok h
  cases h
  refine ⟨rfl, parseBytes_eq_ok (ofExcept_eq_ok h₁).1, ?_, isSome_of_newStoredView h₃⟩
  have h₂ := (ofExcept_eq_ok h₂).1
  unfold withContext at h₂
  split at h₂ <;> cases h₂
  assumption

/-- `new_player` returns a player of the name it was given, whose inventory is in the store. -/
theorem newPlayer_ok {name : String} {id : Uuid} {player : Player}
    (h : newPlayer name id m = .ok player m') :
    player.name = name ∧ (m'.inventories.db.data player.mainInventoryKey.toDbKey).isSome := by
  unfold newPlayer at h
  obtain ⟨_, _, -, h⟩ := bind_eq_ok h
  obtain ⟨_, _, -, h⟩ := bind_eq_ok h
  obtain ⟨_, _, h₃, h⟩ := bind_eq_ok h
  cases h
  exact ⟨rfl, isSome_of_newStoredView h₃⟩

/-- The loaded or created player of `connect` writes only its own name's record. -/
theorem stepsOn_loadOrCreate (name : String) (id : Uuid) :
    StepsOn (·.inventories.db) (· = name) (loadOrCreate name id) := by
  refine (stepsOn_onInventories (stepsOn_withDb (stepsOn_get _))).bind fun r ↦ ?_
  cases r with
  | some _ => exact (Keeps.stepsOn (keeps_ofExcept _ _)).bind fun _ ↦ stepsOn_fromServerProto _
  | none =>
    refine (stepsOn_newPlayer name id).bind_of fun _ _ _ h ↦ ?_
    obtain ⟨hname, hk⟩ := newPlayer_ok h
    exact storeSteps_bind (d := fun m : PlayerManager ↦ m.inventories.db)
      (storeSteps_writeBack (N := (· = name)) hname hk) fun _ _ _ ↦ .refl

/-- **What `connect` loads.** From a well-formed store, the player it loads or creates is named
as the client asked, and its main inventory is in the store. A stored record yields its own
name, and a well-formed store holds each record under the name it carries. -/
theorem loadOrCreate_ok (hwf : StoreWF m.inventories.db.data) {name : String} {id : Uuid}
    {player : Player} (h : loadOrCreate name id m = .ok player m') :
    player.name = name ∧ (m'.inventories.db.data player.mainInventoryKey.toDbKey).isSome := by
  unfold loadOrCreate at h
  obtain ⟨r, _, hg, h⟩ := bind_eq_ok h
  cases r with
  | some x =>
    obtain ⟨proto, _, hd, h⟩ := bind_eq_ok h
    obtain ⟨pos, key, rfl, -⟩ := hwf.players name x (withDb_get_of_ok hg)
    cases (ofExcept_eq_ok hd).1
    obtain ⟨hname, -, -, hk⟩ := fromServerProto_ok h
    exact ⟨hname, hk⟩
  | none =>
    obtain ⟨_, _, hn, h⟩ := bind_eq_ok h
    obtain ⟨_, _, hw, h⟩ := bind_eq_ok h
    cases h
    obtain ⟨hname, hk⟩ := newPlayer_ok hn
    refine ⟨hname, ?_⟩
    rwa [PlayerManager.writeBack_of_ok hw, Function.update_noteq (dbKey_ne_toDbKey _ _).symm]

/-! ### The store and the table -/

/-- **What the player manager keeps persisted.** The store is well formed, and every active
player is in the table under its own name, with its main inventory in the store, so that
`write_back` writes its record under the name it was connected as, pointing at an inventory that
exists. -/
structure Persisted (m : PlayerManager) : Prop where
  store : StoreWF m.inventories.db.data
  table : ∀ x ∈ m.activePlayers.entries,
    x.2.name = x.1 ∧ (m.inventories.db.data x.2.mainInventoryKey.toDbKey).isSome

/-- A step that keeps old entries of the table, or adds ones under their own names with their
inventories present, keeps the invariant. -/
theorem Persisted.of_steps (h : Persisted m) (hs : StoreSteps N m.inventories.db m'.inventories.db)
    (ht : ∀ x ∈ m'.activePlayers.entries, x ∈ m.activePlayers.entries ∨
      x.2.name = x.1 ∧ (m'.inventories.db.data x.2.mainInventoryKey.toDbKey).isSome) :
    Persisted m' :=
  ⟨h.store.steps hs, fun x hx ↦ (ht x hx).elim (fun hx ↦ (h.table x hx).imp_right hs.isSome) id⟩

theorem Persisted.of_eq (h : Persisted m) (ht : m'.activePlayers = m.activePlayers)
    (hd : m'.inventories.db = m.inventories.db) : Persisted m' :=
  h.of_steps (N := fun _ ↦ True) (hd ▸ .refl) fun _ hx ↦ .inl (ht ▸ hx)

/-- What `lookmap` leaves is an old element or one that `f` gave. -/
theorem mem_lookmap {β : Type} {f : β → Option β} :
    ∀ {l : List β} {x : β}, x ∈ l.lookmap f → x ∈ l ∨ ∃ y, f y = some x
  | [], _, h => by simp at h
  | y :: l, x, h => by
    cases hf : f y with
    | some b =>
      rw [List.lookmap_cons_some _ _ hf] at h
      rcases List.mem_cons.mp h with rfl | h
      · exact .inr ⟨y, hf⟩
      · exact .inl (List.mem_cons_of_mem _ h)
    | none =>
      rw [List.lookmap_cons_none _ _ hf] at h
      rcases List.mem_cons.mp h with rfl | h
      · exact .inl (List.mem_cons_self _ _)
      · exact (mem_lookmap h).imp_left (List.mem_cons_of_mem _)

/-- `connect` writes only the connecting name's record, and keeps the invariant. -/
theorem persisted_connect (h : Persisted m) (name : String) (id : Uuid) :
    Persisted (connect name id m).state ∧
      StoreSteps (· = name) m.inventories.db (connect name id m).state.inventories.db := by
  by_cases hn : name ∈ m.activePlayers
  · rw [connect_of_mem hn]
    exact ⟨h, .refl⟩
  · have hs := stepsOn_loadOrCreate name id m
    have hk : (loadOrCreate name id m).state.activePlayers = m.activePlayers :=
      congrArg Prod.fst (keeps_loadOrCreate name id m)
    cases hl : loadOrCreate name id m with
    | error e m₁ =>
      rw [hl, EStateM.Result.state_error] at hk
      rw [hl] at hs
      rw [connect_of_not_mem hn, hl]
      exact ⟨h.of_steps hs fun x hx ↦ .inl (hk ▸ hx), hs⟩
    | ok player m₁ =>
      rw [hl, EStateM.Result.state_ok] at hk
      rw [hl] at hs
      obtain ⟨hname, hkey⟩ := loadOrCreate_ok h.store hl
      rw [connect_of_not_mem hn, hl]
      refine ⟨h.of_steps hs fun x hx ↦ ?_, hs⟩
      change x ∈ (m₁.activePlayers.insert name player).entries at hx
      rw [AList.insert_entries] at hx
      rcases List.mem_cons.mp hx with rfl | hx
      · exact .inr ⟨hname, hkey⟩
      · exact .inl (hk ▸ (List.kerase_sublist _ _).subset hx)

/-- `drop_disconnect` writes only an active player's record, and keeps the invariant. -/
theorem persisted_dropDisconnect (h : Persisted m) (name : String) :
    Persisted (dropDisconnect name m).state ∧
      StoreSteps (· ∈ m.activePlayers) m.inventories.db
        (dropDisconnect name m).state.inventories.db := by
  rw [dropDisconnect_eq]
  cases hp : m.activePlayers.lookup name with
  | none => exact ⟨h, .refl⟩
  | some player =>
    have hmem := AList.mem_lookup_iff.mp hp
    obtain ⟨hname, hk⟩ : player.name = name ∧ _ := h.table _ hmem
    have hN : player.name ∈ m.activePlayers := by
      rw [hname]
      exact AList.mem_keys.mpr (List.mem_map_of_mem _ hmem)
    have hs : StoreSteps (· ∈ m.activePlayers) _ _ := storeSteps_writeBack (m := m) hN hk
    have ht : (writeBack player m).state.activePlayers = m.activePlayers :=
      congrArg Prod.fst (keeps_writeBack player m)
    dsimp only
    rw [bind_of_ok (logErrors_eq _ _)]
    exact ⟨h.of_steps hs fun x hx ↦ .inl (ht ▸ (List.kerase_sublist _ _).subset hx), hs⟩

/-- The loop of `flush` over players named in `N` whose inventories are in the store. -/
theorem storeSteps_writeBackEach {players : List Player}
    (hp : ∀ p ∈ players, N p.name ∧ (m.inventories.db.data p.mainInventoryKey.toDbKey).isSome) :
    StoreSteps N m.inventories.db (writeBackEach players m).state.inventories.db := by
  induction players generalizing m with
  | nil => exact .refl
  | cons player players ih =>
    have h₁ := (hp player (List.mem_cons_self _ _)).elim storeSteps_writeBack
    exact storeSteps_bind (d := fun m : PlayerManager ↦ m.inventories.db) h₁ fun _ _ h ↦ ih fun q hq ↦
      have hq := hp q (List.mem_cons_of_mem _ hq)
      ⟨hq.1, (h ▸ h₁).isSome hq.2⟩

/-- `flush` writes only active players' records, and keeps the invariant. -/
theorem persisted_flush (h : Persisted m) :
    Persisted (flush m).state ∧
      StoreSteps (· ∈ m.activePlayers) m.inventories.db (flush m).state.inventories.db := by
  have hs : StoreSteps (· ∈ m.activePlayers) m.inventories.db (flush m).state.inventories.db :=
    storeSteps_writeBackEach fun p hp ↦ by
      obtain ⟨x, hx, rfl⟩ := List.mem_map.mp hp
      obtain ⟨hname, hk⟩ := h.table x hx
      exact ⟨hname ▸ AList.mem_keys.mpr (List.mem_map_of_mem _ hx), hk⟩
  have ht : (flush m).state.activePlayers = m.activePlayers := congrArg Prod.fst (keeps_flush m)
  exact ⟨h.of_steps hs fun x hx ↦ .inl (ht ▸ hx), hs⟩

/-- A state whose table and store are those `flush` leaves. -/
theorem persisted_of_flush (h : Persisted m) (ht : m'.activePlayers = (flush m).state.activePlayers)
    (hd : m'.inventories.db = (flush m).state.inventories.db) :
    Persisted m' ∧ StoreSteps (· ∈ m.activePlayers) m.inventories.db m'.inventories.db :=
  have ⟨hp, hs⟩ := persisted_flush h
  ⟨hp.of_eq ht hd, hd ▸ hs⟩

theorem awaitShutdown_cases {r : Except Error Unit} (h : awaitShutdown m = some (r, m')) :
    (m'.activePlayers = m.activePlayers ∧ m'.inventories.db = m.inventories.db) ∨
      m' = (flush { m with writeback := none }).state := by
  unfold awaitShutdown at h
  split at h <;> cases h
  · exact .inl ⟨rfl, rfl⟩
  · exact .inl ⟨rfl, rfl⟩
  · exact .inr rfl

end PlayerManager

namespace Server

open PlayerManager

/-- The names whose records a step may write: the active ones, and the one it connects. -/
def Touched (s : Server) (e : Event) (name : String) : Prop :=
  name ∈ s.manager.activePlayers ∨ ∃ id, e = .connect name id

theorem manager_step_connect (s : Server) (name : String) (id : Uuid) :
    (s.step (.connect name id)).manager = (connect name id s.manager).state := by
  simp only [step]
  split <;> rename_i h <;> rw [h] <;> rfl

/-- **One step keeps the store and the table persisted**, and writes only the records of active
players and of the player it connects. -/
theorem persisted_step {s : Server} (h : Persisted s.manager) (e : Event) :
    Persisted (s.step e).manager ∧
      StoreSteps (s.Touched e) s.manager.inventories.db (s.step e).manager.inventories.db := by
  cases e with
  | connect name id =>
    rw [manager_step_connect]
    exact (persisted_connect h name id).imp_right
      (StoreSteps.mono fun _ (hn : _ = name) ↦ .inr ⟨id, hn ▸ rfl⟩)
  | disconnect name =>
    simp only [step]
    split
    · exact (persisted_dropDisconnect h name).imp_right (StoreSteps.mono fun _ ↦ .inl)
    · exact ⟨h, .refl⟩
  | updatePosition name position =>
    simp only [step]
    split
    · rename_i player _ hp
      refine ⟨h.of_steps (N := fun _ ↦ True) .refl fun x hx ↦ ?_, .refl⟩
      rcases mem_lookmap hx with hx | ⟨y, hy⟩
      · exact .inl hx
      · split_ifs at hy
        cases hy
        exact .inr (h.table ⟨name, player⟩ (AList.mem_lookup_iff.mp hp))
    · exact ⟨h, .refl⟩
  | writebackHead =>
    simp only [step]
    split <;> exact ⟨h.of_eq rfl rfl, .refl⟩
  | writebackBody =>
    simp only [step]
    split
    · have hl := loopBody_state s.manager
      exact (persisted_of_flush h (congrArg (·.activePlayers) hl)
        (congrArg (·.inventories.db) hl)).imp_right (StoreSteps.mono fun _ ↦ .inl)
    · exact ⟨h, .refl⟩
  | requestShutdown => exact ⟨h.of_eq rfl rfl, .refl⟩
  | awaitShutdown =>
    simp only [step]
    split
    · rename_i r m' hm
      rcases awaitShutdown_cases hm with ⟨ht, hd⟩ | rfl
      · exact ⟨h.of_eq ht hd, hd ▸ .refl⟩
      · exact (persisted_of_flush (m := { s.manager with writeback := none }) (h.of_eq rfl rfl)
          rfl rfl).imp_right (StoreSteps.mono fun _ ↦ .inl)
    · exact ⟨h, .refl⟩

/-- Every run from a persisted state keeps it persisted. -/
theorem persisted_run {s : Server} (h : Persisted s.manager) (events : List Event) :
    Persisted (s.run events).manager ∧
      StoreSteps (fun _ ↦ True) s.manager.inventories.db (s.run events).manager.inventories.db := by
  induction events generalizing s with
  | nil => exact ⟨h, .refl⟩
  | cons e events ih =>
    obtain ⟨h₁, hs₁⟩ := persisted_step h e
    obtain ⟨h₂, hs₂⟩ := ih h₁
    exact ⟨h₂, (hs₁.mono fun _ _ ↦ trivial).trans hs₂⟩

theorem persisted_init {db : GameDatabase} (hwf : StoreWF db.data) : Persisted (init db).manager :=
  ⟨hwf, fun _ h ↦ absurd h (List.not_mem_nil _)⟩

/-- **Every run keeps the store well formed and the table persisted**, under every pattern of
store failures. From a well-formed store, whatever the interleaving of connections,
disconnections, moves, writeback turns and shutdown, and whichever calls fail: every inventory
key holds a well-formed inventory or nothing, every player record is its own player's and names
an inventory the store holds, and every active player is in the table under its own name with
its main inventory in the store. -/
theorem runs_keep_players_persisted {db : GameDatabase} (hwf : StoreWF db.data)
    (events : List Event) :
    StoreWF ((init db).run events).manager.inventories.db.data ∧
      ∀ x ∈ ((init db).run events).manager.activePlayers.entries, x.2.name = x.1 ∧
        (((init db).run events).manager.inventories.db.data x.2.mainInventoryKey.toDbKey).isSome :=
  have h := (persisted_run (persisted_init hwf) events).1
  ⟨h.store, h.table⟩

/-- The run of `failedCycle`, whose eleventh call fails, then shutdown, from the empty store. -/
theorem runs_keep_players_persisted_faulty :
    StoreWF faultyStore.data ∧
      (StoreWF ((init faultyStore).run
          [.connect "alice" sampleKey.id, .connect "bob" bobId, .updatePosition "alice" ⟨1, 2, 3⟩,
            .writebackHead, .writebackBody, .requestShutdown, .awaitShutdown]).manager.inventories.db.data ∧
        ∀ x ∈ ((init faultyStore).run
            [.connect "alice" sampleKey.id, .connect "bob" bobId, .updatePosition "alice" ⟨1, 2, 3⟩,
              .writebackHead, .writebackBody, .requestShutdown, .awaitShutdown]).manager.activePlayers.entries,
          x.2.name = x.1 ∧
            (((init faultyStore).run
              [.connect "alice" sampleKey.id, .connect "bob" bobId,
                .updatePosition "alice" ⟨1, 2, 3⟩, .writebackHead, .writebackBody, .requestShutdown,
                .awaitShutdown]).manager.inventories.db.data x.2.mainInventoryKey.toDbKey).isSome) :=
  have hwf : StoreWF faultyStore.data := StoreWF.empty
  ⟨hwf, runs_keep_players_persisted hwf _⟩

/-! ### Which records a run writes -/

/-- A name that is not active stays so through any step but its own `connect`. -/
theorem not_mem_step {s : Server} {name : String} (hn : name ∉ s.manager.activePlayers) {e : Event}
    (he : ∀ id, e ≠ .connect name id) : name ∉ (s.step e).manager.activePlayers := by
  by_cases hc : ∃ n id, e = .connect n id
  · obtain ⟨n, id, rfl⟩ := hc
    have hne : name ≠ n := fun h ↦ he id (h ▸ rfl)
    rw [manager_step_connect]
    rcases connect_cases n id s.manager with ⟨-, hr⟩ | ⟨-, _, _, hr, -, hm⟩ | ⟨-, _, _, hr, hm⟩
    · rwa [hr]
    · rwa [hr, EStateM.Result.state_error, (tableAndTask_eq_iff.mp hm).1]
    · rw [hr, EStateM.Result.state_ok, (tableAndTask_eq_iff.mp hm).1, AList.mem_insert]
      exact fun h ↦ h.elim hne hn
  by_cases hd : ∃ n, e = .disconnect n
  · obtain ⟨n, rfl⟩ := hd
    simp only [step]
    split
    · by_cases hmem : n ∈ s.manager.activePlayers
      · obtain ⟨m', hdrop, hm⟩ := dropDisconnect_of_mem hmem
        rw [hdrop, EStateM.Result.state_ok, (tableAndTask_eq_iff.mp hm).1, AList.mem_erase]
        exact fun h ↦ hn h.2
      · rwa [dropDisconnect_of_not_mem hmem]
    · exact hn
  · push_neg at hc hd
    rw [AList.mem_keys, (step_table hc hd).1, ← AList.mem_keys]
    exact hn

/-- Through a run that never connects an inactive name, the name stays inactive and its record
stays as it was. -/
theorem run_frame {s : Server} (h : Persisted s.manager) {name : String}
    (hn : name ∉ s.manager.activePlayers) {events : List Event}
    (he : ∀ id, Event.connect name id ∉ events) :
    name ∉ (s.run events).manager.activePlayers ∧
      (s.run events).manager.inventories.db.data (dbKey name) =
        s.manager.inventories.db.data (dbKey name) := by
  induction events generalizing s with
  | nil => exact ⟨hn, rfl⟩
  | cons e events ih =>
    have he₁ : ∀ id, e ≠ .connect name id := fun id h ↦ he id (h ▸ List.mem_cons_self _ _)
    obtain ⟨h₁, hs₁⟩ := persisted_step h e
    obtain ⟨hn₂, hd₂⟩ :=
      ih h₁ (not_mem_step hn he₁) fun id hid ↦ he id (List.mem_cons_of_mem _ hid)
    exact ⟨hn₂, hd₂.trans (hs₁.frame fun ht ↦ ht.elim hn fun ⟨id, hid⟩ ↦ he₁ id hid)⟩

/-- **A run writes a player's record only once the player has connected.** From a well-formed
store, a run in which a name never connects leaves the record under that name as it was, under
every pattern of store failures: `drop_disconnect` and `flush` write only active players, each
under the name it was connected as, and `connect` writes only the record of the name it
connects. -/
theorem unconnected_record_untouched {db : GameDatabase} (hwf : StoreWF db.data)
    {events : List Event} {name : String} (he : ∀ id, Event.connect name id ∉ events) :
    ((init db).run events).manager.inventories.db.data (dbKey name) = db.data (dbKey name) :=
  (run_frame (persisted_init hwf) (AList.not_mem_empty name) he).2

/-- `carol` never connects in a run that connects `alice` and `bob` and flushes. -/
theorem unconnected_record_untouched_carol :
    StoreWF GameDatabase.inMem.data ∧
      (∀ id, Event.connect "carol" id ∉
        [.connect "alice" sampleKey.id, .connect "bob" bobId, .writebackHead, .writebackBody]) ∧
      ((init .inMem).run
          [.connect "alice" sampleKey.id, .connect "bob" bobId, .writebackHead, .writebackBody]
        ).manager.inventories.db.data (dbKey "carol") = GameDatabase.inMem.data (dbKey "carol") :=
  have he : ∀ id, Event.connect "carol" id ∉
      [.connect "alice" sampleKey.id, .connect "bob" bobId, .writebackHead, .writebackBody] := by
    simp
  ⟨StoreWF.empty, he, unconnected_record_untouched StoreWF.empty he⟩

/-! ### The table and the live contexts -/

/-- On a well-formed store, `connect` hands out contexts named as the client asked. -/
theorem connectsAsAsked {m : PlayerManager} (hwf : StoreWF m.inventories.db.data) :
    ConnectsAsAsked m := by
  intro name id ctx m' h
  by_cases hn : name ∈ m.activePlayers
  · rw [connect_of_mem hn] at h
    cases h
  · rw [connect_of_not_mem hn] at h
    cases hl : loadOrCreate name id m <;> rw [hl] at h <;> cases h
    exact (loadOrCreate_ok hwf hl).1

/-- The states some run of the server reaches from a well-formed store. -/
inductive ReachableWF : Server → Prop
  | init {db : GameDatabase} (hwf : StoreWF db.data) : ReachableWF (init db)
  | step {s : Server} (e : Event) : ReachableWF s → ReachableWF (s.step e)

/-- Every state a run reaches from a well-formed store is persisted, and its contexts and table
agree. -/
theorem ReachableWF.persisted_consistent {s : Server} (h : ReachableWF s) :
    Persisted s.manager ∧ s.Consistent := by
  induction h with
  | init hwf => exact ⟨persisted_init hwf, List.Perm.refl _⟩
  | step e _ ih => exact ⟨(persisted_step ih.1 e).1, consistent_step ih.2 (connectsAsAsked ih.1.store) e⟩

theorem ReachableWF.run {s : Server} (h : ReachableWF s) (events : List Event) :
    ReachableWF (s.run events) := by
  induction events generalizing s with
  | nil => exact h
  | cons e events ih => exact ih (.step e h)

end Server

end Cuberef
