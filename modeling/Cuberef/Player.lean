import Cuberef.View
import Mathlib.Data.List.AList

/-!
# Players and the player manager

`game_state/player.rs`: a player's persisted record, the table of connected players, the
`connect` / `drop_disconnect` pair, and the background writeback task with its shutdown.

## How the manager is modelled

* **State.** `PlayerManager` holds the store it shares with the inventory manager (the same
  `Arc<dyn GameDatabase>`, here with the inventory manager's broadcast log), the counter behind
  `next_id`, the table `active_players`, the cancellation token and the slot of the writeback
  task's join handle. The table is an `AList`: a `HashMap` has one entry per key, and the list's
  order stands for the map's iteration order, which the source leaves unspecified.
* **Atomic steps.** `connect` holds the table lock for its whole body, `drop_disconnect` for the
  whole match, and `flush` while it iterates: each is one step of the state. The writeback task
  takes two kinds of step: the test at the head of its loop, and the flush after the `select!`,
  which returns on the deadline or on cancellation alike.
* **What is left out.** A player's `PlayerPositionUpdate` is kept as its position (`tick`,
  `velocity` and `face_direction` are never persisted), and the position conversions of
  `cuberef_core` are taken as the identity. The inventory popup, whose type lives outside this
  source, is kept as its one stored view (`inventory_view_stored("main", key, true, true)`);
  `active_popups` starts empty and nothing here reads it. `Arc::strong_count` only feeds a log
  line.
-/

namespace Cuberef

/-- The parts of `PlayerState` the modelled code reads or writes. -/
structure PlayerState where
  /-- The position of `last_position`. -/
  lastPosition : Vec3F
  /-- The `main` view of the inventory popup. -/
  inventoryPopup : InventoryView
  hotbarInventoryView : InventoryView

/-- `Player`: the name, the key of the main inventory, and the mutable state. -/
structure Player where
  name : String
  mainInventoryKey : InventoryKey
  state : PlayerState

/-- `PlayerContext`, held by a client: of the `Arc<Player>` it holds, the player's name, by which
its `Drop` disconnects (`drop_disconnect(&self.player.name)`). `from_server_proto` copies that
name from the stored record, so it need not be the name `connect` was called with. -/
structure PlayerContext where
  name : String
deriving DecidableEq

/-- Where the writeback task is. -/
inductive WritebackTask
  /-- At the head of the loop, about to test the cancellation token. -/
  | atHead
  /-- In the `select!` between the deadline and the cancellation, then the flush. -/
  | waiting
  /-- Returned from `writeback_loop`. -/
  | finished (result : Except Error Unit)

/-- An error raised below the table check of `connect`: none is a message beginning with `P`,
as the already-connected error is. -/
def Error.BelowTable : Error → Prop
  | .msg text => text.data.head? ≠ some 'P'
  | _ => True

instance : DecidablePred Error.BelowTable
  | .msg text => inferInstanceAs (Decidable (text.data.head? ≠ some 'P'))
  | .inventoryNotFound _ => isTrue trivial
  | .inventoryInViewNotFound _ _ => isTrue trivial
  | .store => isTrue trivial
  | .decode => isTrue trivial
  | .panic _ => isTrue trivial

/-- The state of `PlayerManager`, with the store and view counter it shares. -/
structure PlayerManager where
  inventories : InventoryManager
  nextViewId : Nat
  activePlayers : AList fun _ : String ↦ Player
  /-- The cancellation token `shutdown`. -/
  shutdown : Bool
  /-- The join handle of the writeback task, until `await_shutdown` takes it. -/
  writeback : Option WritebackTask

namespace Player

/-- `Player::to_server_proto`. -/
def toServerProto (self : Player) : StoredPlayer where
  name := self.name
  lastPosition := some self.state.lastPosition
  mainInventory := self.mainInventoryKey.asBytes

end Player

namespace PlayerManager

variable {α : Type}

/-- `PlayerManager::db_key`: the player key space over the bytes of the name. -/
def dbKey (player : String) : List UInt8 := KeySpace.player.makeKey player.toUTF8.data.toList

/-- **The key spaces never collide.** A made key determines its domain and its raw bytes, so in
particular no inventory's key is a player's key, whatever the player's name. -/
theorem key_spaces_never_collide :
    (∀ (s₁ s₂ : KeySpace) (k₁ k₂ : List UInt8), s₁.makeKey k₁ = s₂.makeKey k₂ → s₁ = s₂ ∧ k₁ = k₂) ∧
      ∀ (key : InventoryKey) (name : String), key.toDbKey ≠ dbKey name :=
  ⟨fun _ _ _ _ ↦ KeySpace.makeKey_inj.mp, fun _ _ h ↦ absurd (KeySpace.makeKey_inj.mp h).1 (by decide)⟩

/-- A computation of the inventory manager, on the shared store. -/
def onInventories (x : EStateM Error InventoryManager α) : EStateM Error PlayerManager α :=
  focus (·.inventories) (fun m inventories ↦ { m with inventories }) x

/-- A call on the shared store. -/
def withDb (x : EStateM Error GameDatabase α) : EStateM Error PlayerManager α :=
  onInventories (InventoryManager.withDb x)

/-- A `Result` whose error is only logged. -/
def logErrors (x : EStateM Error PlayerManager Unit) : EStateM Error PlayerManager Unit := fun m ↦
  match x m with
  | .ok _ m' => .ok () m'
  | .error _ m' => .ok () m'

/-- `InventoryView::new_stored`, with the id `next_id()` draws once the inventory was read. -/
def newStoredView (key : InventoryKey) (canPlace canTake : Bool) :
    EStateM Error PlayerManager InventoryView := do
  let view ← onInventories (InventoryView.newStored key canPlace canTake (← get).nextViewId)
  modify fun m ↦ { m with nextViewId := m.nextViewId + 1 }
  pure view

/-- `make_inventory_popup`: the popup's `main` view, stored, with place and take allowed. -/
def makeInventoryPopup (mainInventoryKey : InventoryKey) : EStateM Error PlayerManager InventoryView :=
  newStoredView mainInventoryKey true true

/-- `Option::with_context(|| text)?`: the value, or an error with the text. -/
def withContext (o : Option α) (text : String) : Except Error α :=
  match o with
  | some a => .ok a
  | none => .error (.msg text)

/-- `Player::from_server_proto`. -/
def fromServerProto (proto : StoredPlayer) : EStateM Error PlayerManager Player := do
  let mainInventoryKey ← ofExcept (InventoryKey.parseBytes proto.mainInventory)
  let position ← ofExcept (withContext proto.lastPosition "Missing last_position in StoredPlayer")
  let inventoryPopup ← makeInventoryPopup mainInventoryKey
  let hotbarInventoryView ← newStoredView mainInventoryKey false false
  pure ⟨proto.name, mainInventoryKey, ⟨position, inventoryPopup, hotbarInventoryView⟩⟩

/-- `Player::new_player`: a fresh `4 × 8` main inventory (`id` is its `Uuid::new_v4()`), at the
spawn position. -/
def newPlayer (name : String) (id : Uuid) : EStateM Error PlayerManager Player := do
  let mainInventoryKey ← onInventories (InventoryManager.makeInventory 4 8 id)
  let inventoryPopup ← makeInventoryPopup mainInventoryKey
  let hotbarInventoryView ← newStoredView mainInventoryKey false false
  pure ⟨name, mainInventoryKey, ⟨⟨5, 10, 5⟩, inventoryPopup, hotbarInventoryView⟩⟩

/-- `write_back`: persist the player's record under its name. -/
def writeBack (player : Player) : EStateM Error PlayerManager Unit :=
  withDb (GameDatabase.put (dbKey player.name) (.storedPlayer player.toServerProto))

/-- The body of `connect` between the check and the insertion: the stored player, or a new one,
persisted. -/
def loadOrCreate (name : String) (id : Uuid) : EStateM Error PlayerManager Player := do
  match ← withDb (GameDatabase.get (dbKey name)) with
  | some playerProto => fromServerProto (← ofExcept playerProto.decodeStoredPlayer)
  | none => do
    let player ← newPlayer name id
    writeBack player
    pure player

/-- The error of `connect` for a name already in the table. -/
def alreadyConnected (name : String) : Error := .msg ("Player " ++ name ++ " already connected")

/-- **`connect`**, under the table lock: refuse an active name, load or create the player, insert
it under the name, and hand out a context for the player. -/
def connect (name : String) (id : Uuid) : EStateM Error PlayerManager PlayerContext := do
  if name ∈ (← get).activePlayers then throw (alreadyConnected name)
  else
    let player ← loadOrCreate name id
    modify fun m ↦ { m with activePlayers := m.activePlayers.insert name player }
    pure ⟨player.name⟩

/-- The panic of `drop_disconnect` on a missing name (in a debug build; a release build only
logs). -/
def notPresent (name : String) : Error :=
  .panic ("Trying to disconnect player " ++ name ++
    " but they're not present. This is a sign of a serious inconsistency.")

/-- **`drop_disconnect`**, under the table lock: write the player back (a failure is only
logged) and remove it. -/
def dropDisconnect (name : String) : EStateM Error PlayerManager Unit := do
  match (← get).activePlayers.lookup name with
  | some player => do
    logErrors (writeBack player)
    modify fun m ↦ { m with activePlayers := m.activePlayers.erase name }
  | none => throw (notPresent name)

/-- The loop of `flush`: write each player back, stopping at the first error (`?`). -/
def writeBackEach : List Player → EStateM Error PlayerManager Unit
  | [] => pure ()
  | player :: players => do
    writeBack player
    writeBackEach players

/-- **`flush`**: write back every active player, under the table lock. -/
def flush : EStateM Error PlayerManager Unit := do
  writeBackEach ((← get).activePlayers.entries.map (·.2))

/-- The test at the head of `writeback_loop`: leave with `Ok` once cancelled. -/
def loopHead (m : PlayerManager) : WritebackTask :=
  if m.shutdown then .finished (.ok ()) else .waiting

/-- The rest of one turn of `writeback_loop`: flush; an error ends the task (`?`). -/
def loopBody (m : PlayerManager) : WritebackTask × PlayerManager :=
  match flush m with
  | .ok _ m' => (.atHead, m')
  | .error e m' => (.finished (.error e), m')

/-- `request_shutdown`: cancel the token. -/
def requestShutdown (m : PlayerManager) : PlayerManager := { m with shutdown := true }

/-- **`await_shutdown`**, once the task has returned: take the join handle (`unwrap` panics when
it was taken already), return the task's error (`??`), and otherwise flush one last time. `none`
while the task is still running: the call is waiting on it. -/
def awaitShutdown (m : PlayerManager) : Option (Except Error Unit × PlayerManager) :=
  match m.writeback with
  | none => some (.error (.panic unwrapNone), m)
  | some (.finished (.error e)) => some (.error e, { m with writeback := none })
  | some (.finished (.ok ())) =>
    let r := flush { m with writeback := none }
    some (r.toExcept, r.state)
  | some _ => none

/-! ### What the steps on the store leave alone -/

/-- The part of the state only the table lock and the writeback task touch: the table, the token
and the task slot. -/
def tableAndTask (m : PlayerManager) :
    (AList fun _ : String ↦ Player) × Bool × Option WritebackTask :=
  (m.activePlayers, m.shutdown, m.writeback)

@[simp] theorem tableAndTask_eq_iff {m : PlayerManager} {a : AList fun _ : String ↦ Player}
    {b : Bool} {c : Option WritebackTask} :
    tableAndTask m = (a, b, c) ↔ m.activePlayers = a ∧ m.shutdown = b ∧ m.writeback = c := by
  simp [tableAndTask]

theorem keeps_onInventories (x : EStateM Error InventoryManager α) :
    Keeps tableAndTask (onInventories x) := by
  apply Keeps.focus
  intro _ _
  rfl

theorem keeps_newStoredView (key : InventoryKey) (canPlace canTake : Bool) :
    Keeps tableAndTask (newStoredView key canPlace canTake) := by
  refine (keeps_get _).bind fun _ ↦ (keeps_onInventories _).bind fun _ ↦ Keeps.bind ?_ fun _ ↦
    keeps_pure _ _
  exact keeps_modify fun _ ↦ rfl

theorem keeps_fromServerProto (proto : StoredPlayer) : Keeps tableAndTask (fromServerProto proto) :=
  (keeps_ofExcept _ _).bind fun _ ↦ (keeps_ofExcept _ _).bind fun _ ↦
    (keeps_newStoredView _ _ _).bind fun _ ↦ (keeps_newStoredView _ _ _).bind fun _ ↦ keeps_pure _ _

theorem keeps_newPlayer (name : String) (id : Uuid) : Keeps tableAndTask (newPlayer name id) :=
  (keeps_onInventories _).bind fun _ ↦ (keeps_newStoredView _ _ _).bind fun _ ↦
    (keeps_newStoredView _ _ _).bind fun _ ↦ keeps_pure _ _

theorem keeps_writeBack (player : Player) : Keeps tableAndTask (writeBack player) :=
  keeps_onInventories _

theorem keeps_loadOrCreate (name : String) (id : Uuid) : Keeps tableAndTask (loadOrCreate name id) :=
  (keeps_onInventories _).bind fun
    | some _ => (keeps_ofExcept _ _).bind fun _ ↦ keeps_fromServerProto _
    | none => (keeps_newPlayer _ _).bind fun _ ↦ (keeps_writeBack _).bind fun _ ↦ keeps_pure _ _

theorem keeps_logErrors {x : EStateM Error PlayerManager Unit} (hx : Keeps tableAndTask x) :
    Keeps tableAndTask (logErrors x) := by
  intro m
  have := hx m
  unfold logErrors
  split <;> simp_all

theorem keeps_writeBackEach (players : List Player) : Keeps tableAndTask (writeBackEach players) := by
  induction players with
  | nil => exact keeps_pure _ _
  | cons player players ih => exact (keeps_writeBack player).bind fun _ ↦ ih

theorem keeps_flush : Keeps tableAndTask flush :=
  (keeps_get _).bind fun _ ↦ keeps_writeBackEach _

theorem loopBody_state (m : PlayerManager) : (loopBody m).2 = (flush m).state := by
  cases h : flush m <;> simp [loopBody, h]

/-- `await_shutdown` leaves the table alone. -/
theorem activePlayers_of_awaitShutdown {m m' : PlayerManager} {r : Except Error Unit}
    (h : awaitShutdown m = some (r, m')) : m'.activePlayers = m.activePlayers := by
  unfold awaitShutdown at h
  split at h <;> cases h
  · rfl
  · rfl
  · exact congrArg Prod.fst (keeps_flush { m with writeback := none })

/-! ### What can fail below the table check -/

theorem raises_dbGet (k : List UInt8) : Raises Error.BelowTable (GameDatabase.get k) := by
  intro db e db' h
  unfold GameDatabase.get at h
  split at h <;> cases h
  trivial

theorem raises_dbPut (k : List UInt8) (v : Record) : Raises Error.BelowTable (GameDatabase.put k v) := by
  intro db e db' h
  unfold GameDatabase.put at h
  split at h <;> cases h
  trivial

theorem belowTable_of_decodeAt {key : InventoryKey} {x : Record} {e : Error}
    (h : InventoryManager.decodeAt key x = .error e) : e.BelowTable := by
  cases x with
  | inventory proto =>
    change Inventory.fromProto proto key = .error e at h
    unfold Inventory.fromProto at h
    split at h
    · cases h; decide
    · split_ifs at h <;> cases h <;> decide
  | storedPlayer _ => cases h; trivial
  | other _ => cases h; trivial

theorem raises_inventoryGet (key : InventoryKey) :
    Raises Error.BelowTable (InventoryManager.get key) :=
  (Raises.focus (raises_dbGet _)).bind fun
    | some _ => (raises_ofExcept fun _ ↦ belowTable_of_decodeAt).bind fun _ ↦ raises_pure _ _
    | none => raises_pure _ _

theorem raises_makeInventory (height width : Nat) (id : Uuid) :
    Raises Error.BelowTable (InventoryManager.makeInventory height width id) := by
  refine (raises_ofExcept fun e h ↦ ?_).bind fun _ ↦ (Raises.focus (raises_dbPut _ _)).bind fun _ ↦
    raises_pure _ _
  unfold Inventory.new at h
  split_ifs at h <;> (try split at h) <;> cases h <;> decide

theorem raises_newStored (key : InventoryKey) (canPlace canTake : Bool) (id : Nat) :
    Raises Error.BelowTable (InventoryView.newStored key canPlace canTake id) := by
  unfold InventoryView.newStored
  exact (raises_inventoryGet key).bind fun
    | some _ => raises_pure _ _
    | none => raises_throw trivial

theorem raises_newStoredView (key : InventoryKey) (canPlace canTake : Bool) :
    Raises Error.BelowTable (newStoredView key canPlace canTake) := by
  refine (raises_get _).bind fun _ ↦ Raises.bind ?_ fun _ ↦ Raises.bind ?_ fun _ ↦ raises_pure _ _
  · exact Raises.focus (raises_newStored _ _ _ _)
  · exact raises_modify _ _

theorem raises_fromServerProto (proto : StoredPlayer) :
    Raises Error.BelowTable (fromServerProto proto) := by
  refine (raises_ofExcept fun e h ↦ ?_).bind fun _ ↦ (raises_ofExcept fun e h ↦ ?_).bind fun _ ↦
    (raises_newStoredView _ _ _).bind fun _ ↦ (raises_newStoredView _ _ _).bind fun _ ↦
      raises_pure _ _
  · unfold InventoryKey.parseBytes at h
    split at h <;> cases h
    decide
  · unfold withContext at h
    split at h <;> cases h
    decide

theorem raises_newPlayer (name : String) (id : Uuid) : Raises Error.BelowTable (newPlayer name id) :=
  (Raises.focus (raises_makeInventory _ _ _)).bind fun _ ↦ (raises_newStoredView _ _ _).bind
    fun _ ↦ (raises_newStoredView _ _ _).bind fun _ ↦ raises_pure _ _

theorem raises_writeBack (player : Player) : Raises Error.BelowTable (writeBack player) :=
  Raises.focus (Raises.focus (raises_dbPut _ _))

theorem raises_loadOrCreate (name : String) (id : Uuid) :
    Raises Error.BelowTable (loadOrCreate name id) :=
  (Raises.focus (Raises.focus (raises_dbGet _))).bind fun
    | some _ => (raises_ofExcept fun e h ↦ by
        rename_i x
        cases x <;> cases h <;> trivial).bind fun _ ↦ raises_fromServerProto _
    | none => (raises_newPlayer _ _).bind fun _ ↦ (raises_writeBack _).bind fun _ ↦ raises_pure _ _

/-! ### `connect` and `drop_disconnect`, step by step -/

variable {m : PlayerManager} {name : String} {id : Uuid}

theorem connect_eq (name : String) (id : Uuid) (m : PlayerManager) :
    connect name id m =
      (if name ∈ m.activePlayers then throw (alreadyConnected name)
      else loadOrCreate name id >>= fun player ↦
        modify (fun (m : PlayerManager) ↦
          { m with activePlayers := m.activePlayers.insert name player }) >>= fun _ ↦
        pure ⟨player.name⟩ : EStateM Error PlayerManager PlayerContext) m := rfl

theorem connect_of_mem (h : name ∈ m.activePlayers) :
    connect name id m = .error (alreadyConnected name) m := by
  rw [connect_eq, if_pos h]
  rfl

theorem connect_of_not_mem (h : name ∉ m.activePlayers) :
    connect name id m =
      match loadOrCreate name id m with
      | .ok player m' =>
        .ok ⟨player.name⟩ { m' with activePlayers := m'.activePlayers.insert name player }
      | .error e m' => .error e m' := by
  rw [connect_eq, if_neg h]
  cases hl : loadOrCreate name id m with
  | ok player m' => rw [bind_of_ok hl]; rfl
  | error e m' => exact bind_of_error hl

/-- **What `connect` does to the table.** It fails with the already-connected error exactly on
an active name; any other failure leaves the table, token and task as they were; a success
inserts the loaded player under the (inactive) name and hands out a context for that player. -/
theorem connect_cases (name : String) (id : Uuid) (m : PlayerManager) :
    (name ∈ m.activePlayers ∧ connect name id m = .error (alreadyConnected name) m) ∨
      (name ∉ m.activePlayers ∧ ∃ e m', connect name id m = .error e m' ∧ e.BelowTable ∧
        tableAndTask m' = tableAndTask m) ∨
      (name ∉ m.activePlayers ∧ ∃ player m', connect name id m = .ok ⟨player.name⟩ m' ∧
        tableAndTask m' = (m.activePlayers.insert name player, m.shutdown, m.writeback)) := by
  by_cases h : name ∈ m.activePlayers
  · exact .inl ⟨h, connect_of_mem h⟩
  · have hc := keeps_loadOrCreate name id m
    rw [connect_of_not_mem h]
    cases hl : loadOrCreate name id m with
    | ok player m' =>
      rw [hl] at hc
      refine .inr (.inr ⟨h, player, _, rfl, ?_⟩)
      simp only [tableAndTask, EStateM.Result.state, Prod.mk.injEq] at hc ⊢
      rw [hc.1]
      exact ⟨rfl, hc.2⟩
    | error e m' =>
      rw [hl] at hc
      exact .inr (.inl ⟨h, e, m', rfl, raises_loadOrCreate name id m e m' hl, hc⟩)

theorem logErrors_eq (x : EStateM Error PlayerManager Unit) (m : PlayerManager) :
    logErrors x m = .ok () (x m).state := by
  unfold logErrors
  split <;> simp_all

theorem dropDisconnect_eq (name : String) (m : PlayerManager) :
    dropDisconnect name m =
      (match m.activePlayers.lookup name with
        | some player => logErrors (writeBack player) >>= fun _ ↦
            modify fun (m : PlayerManager) ↦ { m with activePlayers := m.activePlayers.erase name }
        | none => throw (notPresent name) : EStateM Error PlayerManager Unit) m := rfl

/-- **What `drop_disconnect` does to the table.** An active name is written back (a failure only
logged) and removed, and the call returns; a missing name is the inconsistency panic. -/
theorem dropDisconnect_of_mem (h : name ∈ m.activePlayers) :
    ∃ m', dropDisconnect name m = .ok () m' ∧
      tableAndTask m' = (m.activePlayers.erase name, m.shutdown, m.writeback) := by
  obtain ⟨player, hp⟩ := Option.isSome_iff_exists.mp (AList.lookup_isSome.mpr h)
  have hc := keeps_writeBack player m
  rw [dropDisconnect_eq, hp]
  refine ⟨_, bind_of_ok (logErrors_eq _ _), ?_⟩
  simp only [tableAndTask, Prod.mk.injEq] at hc ⊢
  rw [hc.1]
  exact ⟨rfl, hc.2⟩

theorem dropDisconnect_of_not_mem (h : name ∉ m.activePlayers) :
    dropDisconnect name m = .error (notPresent name) m := by
  rw [dropDisconnect_eq, AList.lookup_eq_none.mpr h]
  rfl

end PlayerManager

end Cuberef
