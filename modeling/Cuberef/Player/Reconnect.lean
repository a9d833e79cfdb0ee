import Cuberef.Player.Persistence

/-!
# Connecting, disconnecting and reconnecting on a store that does not fail

What `connect` returns once the store never fails, and what a player finds on reconnecting.

On a well-formed store that never fails, `connect` of a name that is not active always returns
`Ok`. The player it inserts resumes the last position and main inventory of the name's record
when the store holds one. Otherwise it is a new player at the spawn point `(5, 10, 5)`, with a
fresh `4 × 8` inventory under the key of the `Uuid` it was given, and its record is written
before it joins (`connect_on_reliable_store`).

A player who disconnects and reconnects, with any steps of other threads in between that do not
reconnect them, finds the position and main inventory they left with
(`reconnect_restores_player`). `drop_disconnect` writes their record back under their own name
(`Persisted`). No later step writes it again (`Server.run_frame`), and `connect` reads it back
through `from_server_proto`.

## What each result rests on

* `newStoredView_of_refines`, `fromServerProto_of_refines` and `newPlayer_of_refines` run the
  player's constructors on a store that refines an `InventoryMap`, with the inventory present.
* `loadOrCreate_of_reliable` reads a well-formed store. A record there is its own player's and
  names an inventory the store holds (`StoreWF`), so the stored branch never fails.
-/

namespace Cuberef

namespace PlayerManager

open InventoryManager

variable {m : PlayerManager} {M : InventoryMap} {key : InventoryKey} {a : Stored}

theorem parseBytes_asBytes (key : InventoryKey) : InventoryKey.parseBytes key.asBytes = .ok key := by
  unfold InventoryKey.parseBytes
  rw [dif_pos (show key.asBytes.length = 16 from key.id.length_bytes)]
  rfl

theorem asBytes_injective : Function.Injective InventoryKey.asBytes := fun k k' h ↦
  Except.ok.inj ((parseBytes_asBytes k).symm.trans (h ▸ parseBytes_asBytes k'))

/-- A player's record determines its name, position and main inventory key. -/
theorem playerRecord_inj {name name' : String} {pos pos' : Vec3F} {key key' : InventoryKey}
    (h : playerRecord name pos key = playerRecord name' pos' key') :
    name = name' ∧ pos = pos' ∧ key = key' := by
  simp only [playerRecord, Record.storedPlayer.injEq, StoredPlayer.mk.injEq, Option.some.injEq] at h
  exact ⟨h.1, h.2.1, asBytes_injective h.2.2⟩

/-- A well-formed store that never fails refines the map its inventory entries encode. -/
theorem refines_of_storeWF {im : InventoryManager} (hwf : StoreWF im.db.data)
    (hrel : ∀ n, im.db.faults n = false) : ∃ M, Refines im M :=
  have ⟨M, hM⟩ := hwf.inventories
  ⟨M, hrel, hM⟩

theorem exists_of_refines_isSome {im : InventoryManager} (h : Refines im M)
    (hk : (im.db.data key.toDbKey).isSome) : ∃ a, M key = some a := by
  rw [h.data, Option.isSome_map'] at hk
  exact Option.isSome_iff_exists.mp hk

theorem newStoredView_eq (key : InventoryKey) (canPlace canTake : Bool) (m : PlayerManager) :
    newStoredView key canPlace canTake m =
      (onInventories (InventoryView.newStored key canPlace canTake m.nextViewId) >>= fun view ↦
        modify (fun m : PlayerManager ↦ { m with nextViewId := m.nextViewId + 1 }) >>= fun _ ↦
          pure view : EStateM Error PlayerManager InventoryView) m := rfl

/-- A stored view of a present inventory, made with the next view id. -/
theorem newStoredView_of_refines (h : Refines m.inventories M) (hk : M key = some a)
    (canPlace canTake : Bool) :
    newStoredView key canPlace canTake m =
      .ok ⟨a.dimensions, canPlace, canTake, .stored key, m.nextViewId⟩
        { m with inventories := { m.inventories with db := m.inventories.db.tick },
                 nextViewId := m.nextViewId + 1 } := by
  have hn : InventoryView.newStored key canPlace canTake m.nextViewId m.inventories =
      .ok ⟨a.dimensions, canPlace, canTake, .stored key, m.nextViewId⟩
        { m.inventories with db := m.inventories.db.tick } := by
    unfold InventoryView.newStored
    rw [bind_of_ok (get_of_refines h key), hk]
    rfl
  rw [newStoredView_eq, onInventories, bind_of_ok (focus_of_ok hn)]
  rfl

/-- `from_server_proto` of a record naming a present inventory returns the player the record
describes. -/
theorem fromServerProto_of_refines (h : Refines m.inventories M) (hk : M key = some a)
    (name : String) (pos : Vec3F) :
    ∃ player m', fromServerProto ⟨name, some pos, key.asBytes⟩ m = .ok player m' ∧
      player.name = name ∧ player.state.lastPosition = pos ∧ player.mainInventoryKey = key ∧
      Refines m'.inventories M := by
  have hv₁ := newStoredView_of_refines h hk true true
  have hv₂ := newStoredView_of_refines (m := { m with
      inventories := { m.inventories with db := m.inventories.db.tick },
      nextViewId := m.nextViewId + 1 }) h.tick hk false false
  unfold fromServerProto makeInventoryPopup
  simp only [parseBytes_asBytes, withContext]
  rw [bind_of_ok ofExcept_ok, bind_of_ok ofExcept_ok, bind_of_ok hv₁, bind_of_ok hv₂]
  exact ⟨_, _, rfl, rfl, rfl, rfl, h.tick.tick⟩

/-- `new_player` allocates the `4 × 8` inventory of `id` and spawns the player at `(5, 10, 5)`. -/
theorem newPlayer_of_refines (h : Refines m.inventories M) (name : String) (id : Uuid) :
    ∃ player m', newPlayer name id m = .ok player m' ∧
      player.name = name ∧ player.state.lastPosition = ⟨5, 10, 5⟩ ∧
      player.mainInventoryKey = ⟨id⟩ ∧
      Refines m'.inventories (Function.update M ⟨id⟩ (some (Stored.empty 4 8 (by decide)))) := by
  obtain ⟨im, him, hmk⟩ := makeInventory_of_refines id h (show 0 < 4 ∧ 0 < 8 ∧ 4 * 8 < 2 ^ 32 by decide)
  have hk := Function.update_same (⟨id⟩ : InventoryKey) (some (Stored.empty 4 8 (by decide))) M
  have hv₁ := newStoredView_of_refines (m := { m with inventories := im }) him hk true true
  have hv₂ := newStoredView_of_refines (m := { m with
      inventories := { im with db := im.db.tick }, nextViewId := m.nextViewId + 1 })
    him.tick hk false false
  unfold newPlayer makeInventoryPopup onInventories
  rw [bind_of_ok (focus_of_ok hmk), bind_of_ok hv₁, bind_of_ok hv₂]
  exact ⟨_, _, rfl, rfl, rfl, rfl, him.tick.tick⟩

/-- `write_back` on a store that never fails. -/
theorem writeBack_eq_of_reliable (hrel : ∀ n, m.inventories.db.faults n = false) (player : Player) :
    writeBack player m =
      .ok () { m with inventories := { m.inventories with
        db := afterPut m.inventories.db (dbKey player.name) (.storedPlayer player.toServerProto) } } := by
  rw [writeBack, withDb, onInventories,
    focus_of_ok (InventoryManager.withDb_of_ok (GameDatabase.put_of_reliable fun n _ ↦ hrel n))]
  rfl

/-- **What `connect` loads, on a well-formed store that never fails.** It returns a player of
the name asked for: the one the name's record describes, or a new one at the spawn point with
the inventory of `id`, whose record it has written. -/
theorem loadOrCreate_of_reliable (hwf : StoreWF m.inventories.db.data)
    (hrel : ∀ n, m.inventories.db.faults n = false) (name : String) (id : Uuid) :
    ∃ player m', loadOrCreate name id m = .ok player m' ∧ player.name = name ∧
      ((∃ pos key, m.inventories.db.data (dbKey name) = some (playerRecord name pos key) ∧
          player.state.lastPosition = pos ∧ player.mainInventoryKey = key) ∨
        (m.inventories.db.data (dbKey name) = none ∧ player.state.lastPosition = ⟨5, 10, 5⟩ ∧
          player.mainInventoryKey = ⟨id⟩ ∧
          m'.inventories.db.data (dbKey name) = some (playerRecord name ⟨5, 10, 5⟩ ⟨id⟩))) := by
  obtain ⟨M, h⟩ := refines_of_storeWF hwf hrel
  have hg : withDb (GameDatabase.get (dbKey name)) m =
      .ok (m.inventories.db.data (dbKey name))
        { m with inventories := { m.inventories with db := m.inventories.db.tick } } := by
    rw [withDb, onInventories]
    exact focus_of_ok (InventoryManager.withDb_of_ok (GameDatabase.get_of_reliable h.dbReliable))
  unfold loadOrCreate
  rw [bind_of_ok hg]
  cases hr : m.inventories.db.data (dbKey name) with
  | some x =>
    obtain ⟨pos, key, rfl, hk⟩ := hwf.players name x hr
    obtain ⟨a, ha⟩ := exists_of_refines_isSome h hk
    obtain ⟨player, m', hf, hname, hpos, hkey, -⟩ := fromServerProto_of_refines (m := { m with
      inventories := { m.inventories with db := m.inventories.db.tick } }) h.tick ha name pos
    refine ⟨player, m', ?_, hname, .inl ⟨pos, key, rfl, hpos, hkey⟩⟩
    exact (bind_of_ok ofExcept_ok).trans hf
  | none =>
    obtain ⟨player, m₁, hp, hname, hpos, hkey, h₁⟩ := newPlayer_of_refines (m := { m with
      inventories := { m.inventories with db := m.inventories.db.tick } }) h.tick name id
    dsimp only
    rw [bind_of_ok hp, bind_of_ok (writeBack_eq_of_reliable h₁.reliable player)]
    refine ⟨player, _, rfl, hname, .inr ⟨rfl, hpos, hkey, ?_⟩⟩
    simp only [afterPut_data, hname, Function.update_same]
    rw [← hpos, ← hkey, ← hname]
    rfl

/-- `connect` of an inactive name on a well-formed store that never fails. -/
theorem connect_of_reliable (hwf : StoreWF m.inventories.db.data)
    (hrel : ∀ n, m.inventories.db.faults n = false) {name : String}
    (hn : name ∉ m.activePlayers) (id : Uuid) :
    ∃ player m', connect name id m = .ok ⟨name⟩ m' ∧
      m'.activePlayers = m.activePlayers.insert name player ∧ player.name = name ∧
      ((∃ pos key, m.inventories.db.data (dbKey name) = some (playerRecord name pos key) ∧
          player.state.lastPosition = pos ∧ player.mainInventoryKey = key) ∨
        (m.inventories.db.data (dbKey name) = none ∧ player.state.lastPosition = ⟨5, 10, 5⟩ ∧
          player.mainInventoryKey = ⟨id⟩ ∧
          m'.inventories.db.data (dbKey name) = some (playerRecord name ⟨5, 10, 5⟩ ⟨id⟩))) := by
  obtain ⟨player, m₁, hl, hname, hcases⟩ := loadOrCreate_of_reliable hwf hrel name id
  have ht : m₁.activePlayers = m.activePlayers := by
    simpa only [hl] using congrArg Prod.fst (keeps_loadOrCreate name id m)
  subst hname
  rw [connect_of_not_mem hn, hl]
  exact ⟨player, _, rfl, by rw [← ht], rfl, hcases⟩

/-- `drop_disconnect` of an active player on a store that never fails writes the player's record
back under its name, and removes it. -/
theorem dropDisconnect_of_reliable (h : Persisted m) (hrel : ∀ n, m.inventories.db.faults n = false)
    {name : String} {player : Player} (hp : m.activePlayers.lookup name = some player) :
    ∃ m', dropDisconnect name m = .ok () m' ∧ m'.activePlayers = m.activePlayers.erase name ∧
      m'.inventories.db.data (dbKey name) =
        some (playerRecord name player.state.lastPosition player.mainInventoryKey) := by
  obtain ⟨hname, -⟩ : player.name = name ∧ _ := h.table _ (AList.mem_lookup_iff.mp hp)
  rw [dropDisconnect_eq, hp]
  dsimp only
  rw [bind_of_ok (logErrors_eq _ _), writeBack_eq_of_reliable hrel]
  refine ⟨_, rfl, rfl, ?_⟩
  simp only [EStateM.Result.state_ok, afterPut_data, hname, Function.update_same]
  rw [← hname]
  rfl

end PlayerManager

namespace Server

open PlayerManager

/-- A run from a well-formed store that never fails reaches a persisted state whose store never
fails. -/
theorem persisted_run_reliable {db : GameDatabase} (hwf : StoreWF db.data)
    (hrel : ∀ n, db.faults n = false) (events : List Event) :
    Persisted ((init db).run events).manager ∧
      ∀ n, ((init db).run events).manager.inventories.db.faults n = false :=
  have ⟨h, hs⟩ := persisted_run (persisted_init hwf) events
  ⟨h, fun n ↦ hs.faults ▸ hrel n⟩

/-- **`connect` returns on a store that does not fail.** In every state a run reaches from a
well-formed store that never fails, `connect` of a name that is not active returns `Ok` and
inserts a player of that name. The player resumes the last position and main inventory of the
name's record when there is one. Otherwise it is new, at `(5, 10, 5)` with the inventory of
the given `Uuid`, and its record has been written. -/
theorem connect_on_reliable_store {db : GameDatabase} (hwf : StoreWF db.data)
    (hrel : ∀ n, db.faults n = false) {events : List Event} {s : Server}
    (hs : s = (init db).run events) {name : String} (hn : name ∉ s.manager.activePlayers)
    (id : Uuid) :
    ∃ player m', connect name id s.manager = .ok ⟨name⟩ m' ∧
      m'.activePlayers = s.manager.activePlayers.insert name player ∧ player.name = name ∧
      ((∃ pos key, s.manager.inventories.db.data (dbKey name) = some (playerRecord name pos key) ∧
          player.state.lastPosition = pos ∧ player.mainInventoryKey = key) ∨
        (s.manager.inventories.db.data (dbKey name) = none ∧
          player.state.lastPosition = ⟨5, 10, 5⟩ ∧ player.mainInventoryKey = ⟨id⟩ ∧
          m'.inventories.db.data (dbKey name) = some (playerRecord name ⟨5, 10, 5⟩ ⟨id⟩))) := by
  subst hs
  obtain ⟨h, hrel'⟩ := persisted_run_reliable hwf hrel events
  exact connect_of_reliable h.store hrel' hn id

/-- `carol` connects after `alice` has connected and moved, on the empty in-memory store. -/
theorem connect_on_reliable_store_carol :
    StoreWF GameDatabase.inMem.data ∧ (∀ n, GameDatabase.inMem.faults n = false) ∧
      "carol" ∉ ((init .inMem).run
        [.connect "alice" sampleKey.id, .updatePosition "alice" ⟨1, 2, 3⟩]).manager.activePlayers ∧
      ∃ player m', connect "carol" bobId ((init .inMem).run
          [.connect "alice" sampleKey.id, .updatePosition "alice" ⟨1, 2, 3⟩]).manager =
          .ok ⟨"carol"⟩ m' ∧
        m'.activePlayers = ((init .inMem).run
          [.connect "alice" sampleKey.id, .updatePosition "alice" ⟨1, 2, 3⟩]).manager.activePlayers.insert
            "carol" player ∧ player.name = "carol" ∧
        ((∃ pos key, ((init .inMem).run [.connect "alice" sampleKey.id,
              .updatePosition "alice" ⟨1, 2, 3⟩]).manager.inventories.db.data (dbKey "carol") =
                some (playerRecord "carol" pos key) ∧
            player.state.lastPosition = pos ∧ player.mainInventoryKey = key) ∨
          (((init .inMem).run [.connect "alice" sampleKey.id,
              .updatePosition "alice" ⟨1, 2, 3⟩]).manager.inventories.db.data (dbKey "carol") = none ∧
            player.state.lastPosition = ⟨5, 10, 5⟩ ∧ player.mainInventoryKey = ⟨bobId⟩ ∧
            m'.inventories.db.data (dbKey "carol") =
              some (playerRecord "carol" ⟨5, 10, 5⟩ ⟨bobId⟩))) :=
  have hn : "carol" ∉ ((init .inMem).run
      [.connect "alice" sampleKey.id, .updatePosition "alice" ⟨1, 2, 3⟩]).manager.activePlayers := by
    decide
  ⟨StoreWF.empty, fun _ ↦ rfl, hn,
    connect_on_reliable_store StoreWF.empty (fun _ ↦ rfl) rfl hn bobId⟩

theorem mem_contexts_of_active {s : Server} (h : ReachableWF s) {name : String}
    (hn : name ∈ s.manager.activePlayers) : ⟨name⟩ ∈ s.contexts := by
  obtain ⟨ctx, hctx, rfl⟩ :=
    List.mem_map.mp (h.persisted_consistent.2.mem_iff.mpr (AList.mem_keys.mp hn))
  exact hctx

/-- **A player who reconnects finds what they left.** On a well-formed store that never fails,
take a state some run reaches, in which `name` is active as `player`. Let the player disconnect,
let other threads take any steps that do not connect `name` again, and let `name` connect: the
player it is connected as has the position and main inventory `player` had at the disconnect. -/
theorem reconnect_restores_player {db : GameDatabase} (hwf : StoreWF db.data)
    (hrel : ∀ n, db.faults n = false) {events rest : List Event} {name : String} {player : Player}
    (hp : ((init db).run events).manager.activePlayers.lookup name = some player)
    (hrest : ∀ id, Event.connect name id ∉ rest) (id : Uuid) :
    ∃ player', ((init db).run (events ++ .disconnect name :: rest ++ [.connect name id])
        ).manager.activePlayers.lookup name = some player' ∧
      player'.state.lastPosition = player.state.lastPosition ∧
      player'.mainInventoryKey = player.mainInventoryKey := by
  rw [run_append, run_append]
  simp only [run]
  obtain ⟨h, hrel₀⟩ := persisted_run_reliable hwf hrel events
  have hctx := mem_contexts_of_active ((ReachableWF.init hwf).run events)
    (AList.lookup_isSome.mp (by rw [hp]; rfl))
  obtain ⟨m₁, hd, ht, hrec⟩ := dropDisconnect_of_reliable h hrel₀ hp
  -- the disconnect writes the record back and leaves the name inactive
  obtain ⟨h₁, hs₁⟩ := persisted_step h (.disconnect name)
  have hm₁ : (((init db).run events).step (.disconnect name)).manager = m₁ := by
    simp only [step, if_pos hctx, hd, EStateM.Result.state_ok]
  have hn₁ : name ∉ m₁.activePlayers := by
    rw [ht, AList.mem_erase]
    exact fun h ↦ h.1 rfl
  -- the other threads neither reactivate the name nor write its record
  obtain ⟨hn₂, hd₂⟩ := run_frame h₁ (hm₁ ▸ hn₁) hrest
  obtain ⟨h₂, hs₂⟩ := persisted_run h₁ rest
  have hrel₂ := fun n ↦ hs₂.faults ▸ hs₁.faults ▸ hrel₀ n
  -- the reconnection reads the record back
  obtain ⟨player', m₃, hc, ht₃, -, hcases⟩ := connect_of_reliable h₂.store hrel₂ hn₂ id
  rw [manager_step_connect, hc, EStateM.Result.state_ok, ht₃, AList.lookup_insert]
  rw [hd₂, hm₁, hrec] at hcases
  rcases hcases with ⟨pos, key, hr, hpos, hkey⟩ | ⟨hr, -⟩
  · obtain ⟨-, hpos', hkey'⟩ := playerRecord_inj (Option.some.inj hr)
    exact ⟨player', rfl, hpos.trans hpos'.symm, hkey.trans hkey'.symm⟩
  · cases hr

/-- A player who disconnected.-/
def aliceMoved : Player :=
  ⟨"alice", sampleKey,
    ⟨⟨1, 2, 3⟩, ⟨(4, 8), true, true, .stored sampleKey, 1⟩, ⟨(4, 8), false, false, .stored sampleKey, 2⟩⟩⟩

/-- `alice` connects and moves, disconnects while `bob` connects, a writeback turn runs and `bob`
leaves, and `alice` reconnects: she is back at `(1, 2, 3)` with her inventory. -/
theorem reconnect_restores_player_alice :
    StoreWF GameDatabase.inMem.data ∧ (∀ n, GameDatabase.inMem.faults n = false) ∧
      ((init .inMem).run [.connect "alice" sampleKey.id, .updatePosition "alice" ⟨1, 2, 3⟩]
        ).manager.activePlayers.lookup "alice" = some aliceMoved ∧
      (∀ id, Event.connect "alice" id ∉
        [.connect "bob" bobId, .writebackHead, .writebackBody, .disconnect "bob"]) ∧
      ∃ player', ((init .inMem).run
          ([.connect "alice" sampleKey.id, .updatePosition "alice" ⟨1, 2, 3⟩] ++
            .disconnect "alice" :: [.connect "bob" bobId, .writebackHead, .writebackBody,
              .disconnect "bob"] ++ [.connect "alice" freshId])).manager.activePlayers.lookup
            "alice" = some player' ∧
        player'.state.lastPosition = aliceMoved.state.lastPosition ∧
        player'.mainInventoryKey = aliceMoved.mainInventoryKey :=
  have hp : ((init .inMem).run [.connect "alice" sampleKey.id, .updatePosition "alice" ⟨1, 2, 3⟩]
      ).manager.activePlayers.lookup "alice" = some aliceMoved := rfl
  have hrest : ∀ id, Event.connect "alice" id ∉
      [.connect "bob" bobId, .writebackHead, .writebackBody, .disconnect "bob"] := by
    simp
  ⟨StoreWF.empty, fun _ ↦ rfl, hp, hrest,
    reconnect_restores_player StoreWF.empty (fun _ ↦ rfl) hp hrest freshId⟩

end Server

end Cuberef
