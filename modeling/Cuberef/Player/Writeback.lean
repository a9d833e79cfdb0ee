import Cuberef.Player.Sessions

/-!
# The writeback task under store failures

`writeback_loop`, `flush` and `await_shutdown` under a store whose writes may fail.

Each of the three raises its error with `?`: `flush` returns at the first `write_back` that fails,
so the players after it in the table's order are not written in that flush (`flush_effect`); the
loop returns that error, so a single failed write ends the task whether or not cancellation was
requested (`writeback_ends`); and `await_shutdown` returns the task's error (`??`) before its final
flush. `failed_write_back_ends_writeback` runs all three on one store whose eleventh call fails.
-/

namespace Cuberef

namespace PlayerManager

variable {m m' : PlayerManager}

/-- The store's entries after writing each player's record, in order. -/
def writtenPlayers (data : List UInt8 → Option Record) : List Player → List UInt8 → Option Record
  | [] => data
  | player :: players =>
    writtenPlayers
      (Function.update data (dbKey player.name) (some (.storedPlayer player.toServerProto))) players

theorem writeBack_of_ok {player : Player} {u : Unit} (h : writeBack player m = .ok u m') :
    m'.inventories.db.data =
      Function.update m.inventories.db.data (dbKey player.name)
        (some (.storedPlayer player.toServerProto)) := by
  cases hp : GameDatabase.put (dbKey player.name) (.storedPlayer player.toServerProto)
      m.inventories.db with
  | error e db =>
    rw [writeBack, withDb, onInventories, focus_of_error (InventoryManager.withDb_of_error hp)] at h
    cases h
  | ok u db =>
    rw [writeBack, withDb, onInventories, focus_of_ok (InventoryManager.withDb_of_ok hp)] at h
    cases h
    exact GameDatabase.put_ok_data hp

theorem writeBack_of_error {player : Player} {e : Error} (h : writeBack player m = .error e m') :
    m'.inventories.db.data = m.inventories.db.data ∧ e = .store := by
  cases hp : GameDatabase.put (dbKey player.name) (.storedPlayer player.toServerProto)
      m.inventories.db with
  | error e' db =>
    rw [writeBack, withDb, onInventories, focus_of_error (InventoryManager.withDb_of_error hp)] at h
    cases h
    exact ⟨GameDatabase.put_error_data hp, by unfold GameDatabase.put at hp; split at hp <;> cases hp; rfl⟩
  | ok u db =>
    rw [writeBack, withDb, onInventories, focus_of_ok (InventoryManager.withDb_of_ok hp)] at h
    cases h

/-- The loop of `flush` writes a prefix of its players, all of them unless a write fails, and
then it stops with the store's error. -/
theorem writeBackEach_effect (players : List Player) :
    ∃ n ≤ players.length,
      (writeBackEach players m).state.inventories.db.data =
        writtenPlayers m.inventories.db.data (players.take n) ∧
      ((writeBackEach players m).toExcept = .ok () ∧ n = players.length ∨
        (writeBackEach players m).toExcept = .error .store ∧ n < players.length) := by
  induction players generalizing m with
  | nil => exact ⟨0, Nat.le_refl _, rfl, .inl ⟨rfl, rfl⟩⟩
  | cons player players ih =>
    simp only [writeBackEach]
    cases h : writeBack player m with
    | error e m₁ =>
      obtain ⟨hd, rfl⟩ := writeBack_of_error h
      rw [bind_of_error h]
      exact ⟨0, Nat.zero_le _, hd, .inr ⟨rfl, Nat.succ_pos _⟩⟩
    | ok u m₁ =>
      rw [bind_of_ok h]
      obtain ⟨n, hn, hd, hr⟩ := ih (m := m₁)
      refine ⟨n + 1, Nat.succ_le_succ hn, by rw [hd, writeBack_of_ok h]; rfl, ?_⟩
      rcases hr with ⟨hr, rfl⟩ | ⟨hr, hlt⟩
      · exact .inl ⟨hr, rfl⟩
      · exact .inr ⟨hr, Nat.succ_lt_succ hlt⟩

/-- **`flush` stops at the first failed write.** It writes the active players' records in the
table's order; it returns `Ok` exactly when it wrote all of them, and otherwise returns the
store's error with the players after the failed one unwritten. -/
theorem flush_effect (m : PlayerManager) :
    ∃ n ≤ m.activePlayers.entries.length,
      (flush m).state.inventories.db.data =
        writtenPlayers m.inventories.db.data ((m.activePlayers.entries.map (·.2)).take n) ∧
      ((flush m).toExcept = .ok () ∧ n = m.activePlayers.entries.length ∨
        (flush m).toExcept = .error .store ∧ n < m.activePlayers.entries.length) := by
  obtain ⟨n, hn, hd, hr⟩ := writeBackEach_effect (m := m) (m.activePlayers.entries.map (·.2))
  rw [List.length_map] at hn hr
  exact ⟨n, hn, hd, hr⟩

end PlayerManager

namespace Server

open PlayerManager

/-! ### How the task ends -/

/-- The task ended `Ok` only once the token was cancelled, and with an error only on a store
failure. -/
def TaskOk (s : Server) : Prop :=
  (s.manager.writeback = some (.finished (.ok ())) → s.manager.shutdown = true) ∧
    ∀ e, s.manager.writeback = some (.finished (.error e)) → e = .store

theorem flush_error {e : Error} {m' : PlayerManager} (h : flush m = .error e m') : e = .store := by
  obtain ⟨n, -, -, hr⟩ := flush_effect m
  rw [h] at hr
  rcases hr with ⟨hr, -⟩ | ⟨hr, -⟩ <;> cases hr
  rfl

theorem TaskOk.of_eq {s s' : Server} (h : s.TaskOk) (hs : s'.manager.shutdown = s.manager.shutdown)
    (hw : s'.manager.writeback = s.manager.writeback) : s'.TaskOk := by
  unfold TaskOk at *
  rw [hs, hw]
  exact h

theorem taskOk_of_writeback_none {s : Server} (hw : s.manager.writeback = none) : s.TaskOk := by
  unfold TaskOk
  simp [hw]

/-- A client's step leaves the token and the task alone. -/
theorem step_task_of_client {s : Server} {e : Event}
    (he : (∃ name id, e = .connect name id) ∨ (∃ name, e = .disconnect name) ∨
      ∃ name position, e = .updatePosition name position) :
    (s.step e).manager.shutdown = s.manager.shutdown ∧
      (s.step e).manager.writeback = s.manager.writeback := by
  rcases he with ⟨name, id, rfl⟩ | ⟨name, rfl⟩ | ⟨name, position, rfl⟩
  · simp only [step]
    rcases connect_cases name id s.manager with ⟨-, hr⟩ | ⟨-, e, m', hr, -, hm⟩ | ⟨-, p, m', hr, hm⟩
    · simp [hr]
    · simp only [hr]; exact (tableAndTask_eq_iff.mp hm).2
    · simp only [hr]; exact (tableAndTask_eq_iff.mp hm).2
  · simp only [step]
    split
    · by_cases hmem : name ∈ s.manager.activePlayers
      · obtain ⟨m', hdrop, hm⟩ := dropDisconnect_of_mem hmem
        simp only [hdrop]
        exact (tableAndTask_eq_iff.mp hm).2
      · simp [dropDisconnect_of_not_mem hmem]
    · exact ⟨rfl, rfl⟩
  · simp only [step]
    split <;> exact ⟨rfl, rfl⟩

theorem writeback_of_awaitShutdown {r : Except Error Unit} {m' : PlayerManager}
    (h : awaitShutdown m = some (r, m')) : m'.writeback = none := by
  unfold awaitShutdown at h
  split at h <;> cases h
  · assumption
  · rfl
  · exact congrArg (·.2.2) (keeps_flush { m with writeback := none })

theorem taskOk_step {s : Server} (h : s.TaskOk) (e : Event) : (s.step e).TaskOk := by
  cases e with
  | connect name id => exact (step_task_of_client (.inl ⟨name, id, rfl⟩)).elim h.of_eq
  | disconnect name => exact (step_task_of_client (.inr (.inl ⟨name, rfl⟩))).elim h.of_eq
  | updatePosition name position =>
    exact (step_task_of_client (.inr (.inr ⟨name, position, rfl⟩))).elim h.of_eq
  | writebackHead =>
    simp only [step]
    split
    · refine ⟨fun hw ↦ ?_, fun e hw ↦ ?_⟩ <;> simp only [loopHead, Option.some.injEq] at hw <;>
        split_ifs at hw with hs
      · exact hs
      all_goals cases hw
    · exact h
  | writebackBody =>
    simp only [step]
    split
    · refine ⟨fun hw ↦ ?_, fun e hw ↦ ?_⟩ <;> simp only [loopBody, Option.some.injEq] at hw <;>
        split at hw <;> cases hw
      exact flush_error ‹_›
    · exact h
  | requestShutdown => exact ⟨fun _ ↦ rfl, h.2⟩
  | awaitShutdown =>
    simp only [step]
    split
    · exact taskOk_of_writeback_none (writeback_of_awaitShutdown ‹_›)
    · exact h

/-- **The writeback task ends only on cancellation or on a store failure.** In every reachable
state, a task that returned `Ok` saw the token cancelled, and a task that returned an error
returned a store failure of a flush. -/
theorem writeback_ends {s : Server} (h : Reachable s) :
    (s.manager.writeback = some (.finished (.ok ())) → s.manager.shutdown = true) ∧
      ∀ e, s.manager.writeback = some (.finished (.error e)) → e = .store := by
  induction h with
  | init db => exact ⟨fun h ↦ (by cases h), fun _ h ↦ (by cases h)⟩
  | step e _ ih => exact taskOk_step ih e

/-! ### A failed write on a store -/

/-- An in-memory store whose call number 10 fails. -/
def faultyStore : GameDatabase := { GameDatabase.inMem with faults := fun n ↦ n == 10 }

/-- A second player's inventory id. -/
def bobId : Uuid := ⟨List.replicate 16 2, rfl⟩

/-- `alice` and `bob` connect (calls 0 to 9), `alice` moves, and the writeback task runs one
turn: its flush writes `bob` first, and that write is call 10. -/
def failedCycle : Server :=
  (init faultyStore).run
    [.connect "alice" sampleKey.id, .connect "bob" bobId, .updatePosition "alice" ⟨1, 2, 3⟩,
      .writebackHead, .writebackBody]

/-- **One failed write ends the flush, the loop and the final flush.** In `failedCycle` the
write of `bob` fails: `alice`, after it in the table, is not written (her record keeps her
spawn position while the table has her new one), and the task has returned the error although
the token was never cancelled. Shutdown then returns that error, and no final flush writes
`alice`. -/
theorem failed_write_back_ends_writeback :
    failedCycle.manager.shutdown = false ∧
      failedCycle.manager.writeback = some (.finished (.error .store)) ∧
      (failedCycle.manager.activePlayers.lookup "alice").map (·.state.lastPosition) =
        some ⟨1, 2, 3⟩ ∧
      failedCycle.manager.inventories.db.data (dbKey "alice") =
        some (.storedPlayer ⟨"alice", some ⟨5, 10, 5⟩, sampleKey.asBytes⟩) ∧
      (failedCycle.run [.requestShutdown, .awaitShutdown]).awaited = [.error .store] ∧
      (failedCycle.run [.requestShutdown, .awaitShutdown]).manager.inventories.db.data
          (dbKey "alice") =
        some (.storedPlayer ⟨"alice", some ⟨5, 10, 5⟩, sampleKey.asBytes⟩) :=
  ⟨rfl, rfl, rfl, rfl, rfl, rfl⟩

/-- The token cancelled before the task's first test, on the in-memory store. -/
def cancelledRun : Server := (init .inMem).run [.requestShutdown, .writebackHead]

/-- Both ends of the task: in `failedCycle` it returned the store failure of its flush, and in
`cancelledRun` it returned `Ok` with the token cancelled. -/
theorem writeback_ends_finished_runs :
    (Reachable failedCycle ∧ failedCycle.manager.writeback = some (.finished (.error .store)) ∧
      (failedCycle.manager.writeback = some (.finished (.ok ())) →
          failedCycle.manager.shutdown = true) ∧
        ∀ e, failedCycle.manager.writeback = some (.finished (.error e)) → e = .store) ∧
    (Reachable cancelledRun ∧ cancelledRun.manager.writeback = some (.finished (.ok ())) ∧
      (cancelledRun.manager.writeback = some (.finished (.ok ())) →
          cancelledRun.manager.shutdown = true) ∧
        ∀ e, cancelledRun.manager.writeback = some (.finished (.error e)) → e = .store) :=
  have hf : Reachable failedCycle := (Reachable.init _).run _
  have hc : Reachable cancelledRun := (Reachable.init _).run _
  ⟨⟨hf, rfl, writeback_ends hf⟩, ⟨hc, rfl, writeback_ends hc⟩⟩

end Server

end Cuberef
