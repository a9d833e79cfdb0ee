import Cuberef.Player

/-!
# The server's interleavings, and the table of active players

The threads that act on the player manager: clients connecting and dropping their
`PlayerContext`s, a client updating its position, the writeback task, and the shutdown path.
Each takes the table lock for its whole step (`connect`, `drop_disconnect`, `flush`), so a run of
the server is a sequence of steps of `Server.step`, in any order, from `Server.init`.

## The table and the contexts

A context is kept as the name of the player it holds, the name its drop disconnects by. The
session invariant says the names of the live contexts are a permutation of the keys of
`active_players` (`Consistent`). One step keeps it whenever `connect` hands out contexts named as
the client asked (`consistent_step`, under `ConnectsAsAsked`): `connect` inserts a name only when
it is absent and hands out one context for it, and a context's drop removes its name, which is
present because the context is live.

`connect` names the context after the player it loads, and `from_server_proto` takes that name
from the stored record. So the hypothesis rests on the store: it holds on every store whose
records carry the names they are stored under, which is what `Cuberef.Player.Persistence` proves
of every run from a well-formed store. There the invariant is lifted to runs
(`active_players_consistent`), next to a store on which it fails.

`update_position` writes through the context's `Arc<Player>`; the step writes the table's entry
under the context's name. Under the invariant that entry is the context's player: only the drop
of the one context of a name removes it.
-/

namespace Cuberef

/-- The system the threads act on: the manager, the contexts clients hold, and what each
`await_shutdown` returned. -/
structure Server where
  manager : PlayerManager
  contexts : List PlayerContext
  awaited : List (Except Error Unit)

/-- One atomic step of some thread. -/
inductive Event
  /-- `connect(name)`; `id` is the `Uuid::new_v4()` a new player's inventory would get. -/
  | connect (name : String) (id : Uuid)
  /-- A client drops its context, whose player is named `name`. -/
  | disconnect (name : String)
  /-- `PlayerContext::update_position` on the context whose player is named `name`. -/
  | updatePosition (name : String) (position : Vec3F)
  /-- The writeback task tests the token at the head of its loop. -/
  | writebackHead
  /-- The writeback task wakes from its `select!` and flushes. -/
  | writebackBody
  | requestShutdown
  | awaitShutdown

namespace Server

open PlayerManager

/-- `PlayerManager::new` over a store: an empty table, and the writeback task started, at the
head of its loop. No client holds a context yet. -/
def init (db : GameDatabase) : Server where
  manager :=
    { inventories := ⟨db, []⟩, nextViewId := 1, activePlayers := ∅, shutdown := false,
      writeback := some .atHead }
  contexts := []
  awaited := []

/-- **One step of the server.** A dropped context disconnects by its player's name. A step whose
thread cannot move (no context of that name, the task elsewhere in its loop, `await_shutdown` on
a running task) leaves the server as it is. -/
def step (s : Server) : Event → Server
  | .connect name id =>
    match connect name id s.manager with
    | .ok ctx m => { s with manager := m, contexts := s.contexts ++ [ctx] }
    | .error _ m => { s with manager := m }
  | .disconnect name =>
    if ⟨name⟩ ∈ s.contexts then
      { s with manager := (dropDisconnect name s.manager).state, contexts := s.contexts.erase ⟨name⟩ }
    else s
  | .updatePosition name position =>
    match s.contexts.contains ⟨name⟩, s.manager.activePlayers.lookup name with
    | true, some p =>
      { s with manager := { s.manager with
          activePlayers := s.manager.activePlayers.replace name
            { p with state := { p.state with lastPosition := position } } } }
    | _, _ => s
  | .writebackHead =>
    match s.manager.writeback with
    | some .atHead => { s with manager := { s.manager with writeback := some (loopHead s.manager) } }
    | _ => s
  | .writebackBody =>
    match s.manager.writeback with
    | some .waiting =>
      { s with manager := { (loopBody s.manager).2 with writeback := some (loopBody s.manager).1 } }
    | _ => s
  | .requestShutdown => { s with manager := requestShutdown s.manager }
  | .awaitShutdown =>
    match awaitShutdown s.manager with
    | some (r, m) => { s with manager := m, awaited := s.awaited ++ [r] }
    | none => s

/-- A run: the steps of `events`, in order. -/
def run (s : Server) : List Event → Server
  | [] => s
  | e :: events => (s.step e).run events

theorem run_append (s : Server) (events events' : List Event) :
    s.run (events ++ events') = (s.run events).run events' := by
  induction events generalizing s with
  | nil => rfl
  | cons e events ih => exact ih (s.step e)

/-- The states some run of the server reaches, from some store. -/
inductive Reachable : Server → Prop
  | init (db : GameDatabase) : Reachable (init db)
  | step {s : Server} (e : Event) : Reachable s → Reachable (s.step e)

theorem Reachable.run {s : Server} (h : Reachable s) (events : List Event) :
    Reachable (s.run events) := by
  induction events generalizing s with
  | nil => exact h
  | cons e events ih => exact ih (.step e h)

/-- The names of the live contexts. -/
def names (s : Server) : List String := s.contexts.map (·.name)

/-- **The session invariant**: the names of the live contexts are a permutation of the keys of
the table. -/
def Consistent (s : Server) : Prop := s.names.Perm s.manager.activePlayers.keys

/-- `connect` hands out contexts named as the client asked: the player it loads carries the name
it is inserted under. -/
def ConnectsAsAsked (m : PlayerManager) : Prop :=
  ∀ name id ctx m', connect name id m = .ok ctx m' → ctx.name = name

/-! ### One step keeps the invariant -/

theorem name_injective : Function.Injective PlayerContext.name := fun a b h ↦ by
  cases a; cases b; cases h; rfl

/-- Every step but `connect` and `disconnect` keeps the table and the contexts. -/
theorem step_table {s : Server} {e : Event}
    (he : ∀ name id, e ≠ .connect name id) (hd : ∀ name, e ≠ .disconnect name) :
    (s.step e).manager.activePlayers.keys = s.manager.activePlayers.keys ∧
      (s.step e).contexts = s.contexts := by
  cases e with
  | connect name id => exact absurd rfl (he name id)
  | disconnect name => exact absurd rfl (hd name)
  | updatePosition name position =>
    simp only [step]
    split
    · exact ⟨AList.keys_replace _ _ _, rfl⟩
    · exact ⟨rfl, rfl⟩
  | writebackHead => simp only [step]; split <;> exact ⟨rfl, rfl⟩
  | writebackBody =>
    simp only [step]
    split
    · have hf : (flush s.manager).state.activePlayers = s.manager.activePlayers :=
        congrArg Prod.fst (keeps_flush s.manager)
      exact ⟨by simp only [loopBody_state, hf], rfl⟩
    · exact ⟨rfl, rfl⟩
  | requestShutdown => exact ⟨rfl, rfl⟩
  | awaitShutdown =>
    simp only [step]
    split
    · exact ⟨by rw [activePlayers_of_awaitShutdown ‹_›], rfl⟩
    · exact ⟨rfl, rfl⟩

theorem consistent_step {s : Server} (h : s.Consistent) (hc : ConnectsAsAsked s.manager) (e : Event) :
    (s.step e).Consistent := by
  unfold Consistent names at *
  by_cases he : ∃ name id, e = .connect name id
  · obtain ⟨name, id, rfl⟩ := he
    simp only [step]
    rcases connect_cases name id s.manager with ⟨-, hr⟩ | ⟨-, e, m', hr, -, hm⟩ | ⟨hn, p, m', hr, hm⟩
    · simpa [hr] using h
    · have hm1 : m'.activePlayers = s.manager.activePlayers := congrArg Prod.fst hm
      simpa [hr, hm1] using h
    · have hp : p.name = name := hc name id _ _ hr
      rw [hr]
      simp only [List.map_append, List.map_cons, List.map_nil, hp, (tableAndTask_eq_iff.mp hm).1,
        AList.keys_insert, List.erase_of_not_mem (mt AList.mem_keys.mpr hn)]
      exact (List.perm_append_singleton _ _).trans (h.cons _)
  by_cases hd : ∃ name, e = .disconnect name
  · obtain ⟨name, rfl⟩ := hd
    simp only [step]
    split
    · rename_i hmem
      have hactive : name ∈ s.manager.activePlayers :=
        AList.mem_keys.mpr (h.mem_iff.mp (List.mem_map_of_mem (·.name) hmem))
      obtain ⟨m', hdrop, hm⟩ := dropDisconnect_of_mem hactive
      simp only [hdrop, EStateM.Result.state, (tableAndTask_eq_iff.mp hm).1, AList.keys_erase,
        List.map_erase name_injective]
      exact h.erase _
    · exact h
  · push_neg at he hd
    obtain ⟨hk, hctx⟩ := step_table (s := s) he hd
    rw [hk, hctx]
    exact h

end Server

end Cuberef
