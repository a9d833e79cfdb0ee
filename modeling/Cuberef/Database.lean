import Cuberef.Items
import Mathlib.Logic.Function.Basic

/-!
# The key-value store and its key spaces

`database/database_engine.rs`: the `GameDatabase` trait behind every manager, and `KeySpace`,
which prefixes one tag byte onto every key.

## How the store is modelled

* **Entries.** A store maps byte-string keys to stored values, as `InMemGameDabase` keeps them.
  A stored value is kept as the message it encodes (`Record`): `prost`'s wire format is an external
  collaborator, and the only fact about it the managers rely on is that decoding an encoded
  message gives the message back. Bytes that encode no message of the right type are
  `Record.other`, and decoding them fails.
* **Failures.** Every `get` and `put` of a real backend may fail. The store carries a fault
  schedule: call number `n` fails when `faults n`, and a failed `put` writes nothing. Quantifying
  over stores quantifies over every pattern of failures; `InMemGameDabase` is the store that never
  fails.
* **Effects.** Manager code runs in `EStateM Error σ`: an error keeps the state reached, as a
  Rust `?` keeps the writes made before it. `focus` runs a computation on one part of a larger
  state, so the managers can share one store.
-/

/-! ### Results of stateful computations -/

namespace EStateM.Result

variable {ε σ α : Type}

/-- The state a computation ends in, whether it returned or failed. -/
def state : EStateM.Result ε σ α → σ
  | .ok _ s => s
  | .error _ s => s

/-- What a computation returned, forgetting its state. -/
def toExcept : EStateM.Result ε σ α → Except ε α
  | .ok a _ => .ok a
  | .error e _ => .error e

@[simp] theorem state_ok (a : α) (s : σ) : (EStateM.Result.ok a s : EStateM.Result ε σ α).state = s :=
  rfl

@[simp] theorem state_error (e : ε) (s : σ) :
    (EStateM.Result.error e s : EStateM.Result ε σ α).state = s := rfl

@[simp] theorem toExcept_ok (a : α) (s : σ) :
    (EStateM.Result.ok a s : EStateM.Result ε σ α).toExcept = .ok a := rfl

@[simp] theorem toExcept_error (e : ε) (s : σ) :
    (EStateM.Result.error e s : EStateM.Result ε σ α).toExcept = .error e := rfl

end EStateM.Result

namespace Cuberef

section Monad

variable {ε σ τ ρ α β : Type} {x : EStateM ε σ α} {f : α → EStateM ε σ β} {s s' : σ}
  {a : α} {e : ε}

@[simp] theorem pure_apply : (pure a : EStateM ε σ α) s = .ok a s := rfl

@[simp] theorem throw_apply : (throw e : EStateM ε σ α) s = .error e s := rfl

theorem bind_of_ok (h : x s = .ok a s') : (x >>= f) s = f a s' := by
  simp only [bind, EStateM.bind, h]

theorem bind_of_error (h : x s = .error e s') : (x >>= f) s = .error e s' := by
  simp only [bind, EStateM.bind, h]

/-- A bind that returned had both halves return. -/
theorem bind_eq_ok {b : β} (h : (x >>= f) s = .ok b s') :
    ∃ a s₁, x s = .ok a s₁ ∧ f a s₁ = .ok b s' := by
  cases hx : x s with
  | ok a s₁ => exact ⟨a, s₁, rfl, by rwa [bind_of_ok hx] at h⟩
  | error e s₁ => rw [bind_of_error hx] at h; cases h

/-- A bind that failed failed in its first half, or in its second after the first returned. -/
theorem bind_eq_error (h : (x >>= f) s = .error e s') :
    x s = .error e s' ∨ ∃ a s₁, x s = .ok a s₁ ∧ f a s₁ = .error e s' := by
  cases hx : x s with
  | ok a s₁ => exact .inr ⟨a, s₁, rfl, by rwa [bind_of_ok hx] at h⟩
  | error e₁ s₁ => rw [bind_of_error hx] at h; cases h; exact .inl rfl

/-- A `Result` from pure code, raised with `?` in a stateful computation. -/
def ofExcept : Except ε α → EStateM ε σ α
  | .ok a => pure a
  | .error e => throw e

@[simp] theorem ofExcept_ok : (ofExcept (.ok a) : EStateM ε σ α) s = .ok a s := rfl

@[simp] theorem ofExcept_error : (ofExcept (.error e) : EStateM ε σ α) s = .error e s := rfl

/-- Run a computation on the part `get` of a larger state, writing its final value back with
`set`, whether the computation returned or failed. -/
def focus (get : σ → τ) (set : σ → τ → σ) (x : EStateM ε τ α) : EStateM ε σ α := fun s =>
  match x (get s) with
  | .ok a t => .ok a (set s t)
  | .error e t => .error e (set s t)

variable {get : σ → τ} {set : σ → τ → σ} {y : EStateM ε τ α} {t : τ}

theorem focus_of_ok (h : y (get s) = .ok a t) : focus get set y s = .ok a (set s t) := by
  simp only [focus, h]

theorem focus_of_error (h : y (get s) = .error e t) : focus get set y s = .error e (set s t) := by
  simp only [focus, h]

/-- A computation leaves the part `f` of the state as it was, whether it returns or fails. -/
def Keeps (f : σ → τ) (x : EStateM ε σ α) : Prop := ∀ s, f (x s).state = f s

theorem Keeps.bind {f : σ → τ} {y : α → EStateM ε σ β} (hx : Keeps f x) (hy : ∀ a, Keeps f (y a)) :
    Keeps f (x >>= y) := by
  intro s
  cases h : x s with
  | ok a s₁ => rw [bind_of_ok h, hy a s₁]; simpa [h] using hx s
  | error e s₁ => rw [bind_of_error h]; simpa [h] using hx s

theorem keeps_pure (f : σ → τ) (a : α) : Keeps f (pure a : EStateM ε σ α) := fun _ ↦ rfl

theorem keeps_throw (f : σ → τ) (e : ε) : Keeps f (throw e : EStateM ε σ α) := fun _ ↦ rfl

theorem keeps_ofExcept (f : σ → τ) (r : Except ε α) : Keeps f (ofExcept r : EStateM ε σ α) := by
  cases r <;> exact fun _ ↦ rfl

theorem keeps_get (f : σ → τ) : Keeps f (MonadState.get : EStateM ε σ σ) := fun _ ↦ rfl

theorem keeps_modify {f : σ → τ} {g : σ → σ} (h : ∀ s, f (g s) = f s) :
    Keeps f (modify g : EStateM ε σ PUnit) := h

theorem Keeps.focus {f : σ → τ} {get : σ → ρ} {set : σ → ρ → σ} (hset : ∀ s t, f (set s t) = f s)
    (y : EStateM ε ρ α) : Keeps f (Cuberef.focus get set y) := by
  intro s
  unfold Cuberef.focus
  split <;> exact hset _ _

/-- Every error the computation raises satisfies `P`, from any state. -/
def Raises (P : ε → Prop) (x : EStateM ε σ α) : Prop := ∀ s e s', x s = .error e s' → P e

theorem Raises.bind {P : ε → Prop} {y : α → EStateM ε σ β} (hx : Raises P x)
    (hy : ∀ a, Raises P (y a)) : Raises P (x >>= y) := by
  intro s e s' h
  rcases bind_eq_error h with h | ⟨a, s₁, -, h⟩
  exacts [hx _ _ _ h, hy a _ _ _ h]

theorem raises_pure (P : ε → Prop) (a : α) : Raises P (pure a : EStateM ε σ α) := by
  intro _ _ _ h
  cases h

theorem raises_throw {P : ε → Prop} (h : P e) : Raises P (throw e : EStateM ε σ α) := by
  intro _ _ _ h'
  cases h'
  exact h

theorem raises_ofExcept {P : ε → Prop} {r : Except ε α} (h : ∀ e, r = .error e → P e) :
    Raises P (ofExcept r : EStateM ε σ α) := by
  intro _ e _ h'
  cases r with
  | ok a => cases h'
  | error e' => cases h'; exact h _ rfl

theorem raises_get (P : ε → Prop) : Raises P (MonadState.get : EStateM ε σ σ) := by
  intro _ _ _ h
  cases h

theorem raises_modify (P : ε → Prop) (g : σ → σ) : Raises P (modify g : EStateM ε σ PUnit) := by
  intro _ _ _ h
  cases h

theorem Raises.focus {P : ε → Prop} {get : σ → ρ} {set : σ → ρ → σ} {y : EStateM ε ρ α}
    (hy : Raises P y) : Raises P (Cuberef.focus get set y) := by
  intro s e s' h
  unfold Cuberef.focus at h
  split at h
  · cases h
  · cases h; exact hy _ _ _ ‹_›

end Monad

/-! ### Errors -/

/-- An `anyhow::Error`, by where it comes from, and the panics of the code: a panic unwinds
through every `?`, so it travels the same channel and no modelled code catches it. -/
inductive Error
  /-- An error raised by this code (`bail!`, `ensure!`, `with_context`) with its text. -/
  | msg (text : String)
  /-- `format!("Inventory {inventory_key:?} not found")`, for the key with these bytes. -/
  | inventoryNotFound (id : List UInt8)
  /-- `format!("Inventory {key:?} in view {:?} not found", self.id)`, for the key with these
  bytes and the view with this id. -/
  | inventoryInViewNotFound (id : List UInt8) (view : Nat)
  /-- A failure of the `GameDatabase` backend. -/
  | store
  /-- A `prost::DecodeError`. -/
  | decode
  /-- A panic: `unwrap` on `None`, `todo!()`. -/
  | panic (text : String)
deriving DecidableEq, Repr

/-- The text of `Option::unwrap` on `None`. -/
def unwrapNone : String := "called Option::unwrap() on a None value"

/-! ### Key spaces -/

/-- `KeySpace`: the domains the flat key space is partitioned into. -/
inductive KeySpace
  | metadata
  | mapchunkData
  | plugin
  | inventory
  | player
  | userMeta
deriving DecidableEq, Repr

namespace KeySpace

/-- `KeySpace::identifier`: the tag byte of each domain. -/
def identifier : KeySpace → UInt8
  | metadata => 48
  | mapchunkData => 109
  | plugin => 112
  | inventory => 105
  | userMeta => 117
  | player => 80

/-- `KeySpace::make_key`: the tag byte, then the key. -/
def makeKey (self : KeySpace) (key : List UInt8) : List UInt8 :=
  self.identifier :: key

/-- The six tag bytes are distinct. -/
theorem identifier_injective : Function.Injective identifier := by
  intro a b h
  cases a <;> cases b <;> revert h <;> decide

/-- A made key determines its domain and its raw key: the tag is one byte, and the raw key is
everything after it. -/
theorem makeKey_inj {s₁ s₂ : KeySpace} {k₁ k₂ : List UInt8} :
    s₁.makeKey k₁ = s₂.makeKey k₂ ↔ s₁ = s₂ ∧ k₁ = k₂ := by
  rw [makeKey, makeKey, List.cons.injEq, identifier_injective.eq_iff]

end KeySpace

/-! ### Stored records -/

/-- A position triple, `Vec3F` of the protocol. -/
structure Vec3F where
  x : Float
  y : Float
  z : Float
deriving Repr

/-- The `items_proto::Inventory` message: `height`, `width`, and the slots row by row, an empty
slot as the sentinel stack with an empty name. -/
structure InventoryProto where
  height : Nat
  width : Nat
  contents : List ItemStack
deriving DecidableEq, Repr

/-- The `StoredPlayer` message. -/
structure StoredPlayer where
  name : String
  lastPosition : Option Vec3F
  mainInventory : List UInt8
deriving Repr

/-- A value in the store, as the message it encodes. -/
inductive Record
  | inventory (proto : InventoryProto)
  | storedPlayer (proto : StoredPlayer)
  /-- Bytes that encode neither message. -/
  | other (bytes : List UInt8)
deriving Repr

/-- `items_proto::Inventory::decode`. -/
def Record.decodeInventory : Record → Except Error InventoryProto
  | .inventory proto => .ok proto
  | _ => .error .decode

/-- `StoredPlayer::decode`. -/
def Record.decodeStoredPlayer : Record → Except Error StoredPlayer
  | .storedPlayer proto => .ok proto
  | _ => .error .decode

/-! ### The store -/

/-- The `GameDatabase` the managers share: its entries, the fault schedule of the backend, and
how many calls it has served. -/
structure GameDatabase where
  data : List UInt8 → Option Record
  faults : Nat → Bool
  calls : Nat

namespace GameDatabase

/-- `InMemGameDabase::new`: no entries, and no call ever fails. -/
def inMem : GameDatabase where
  data := fun _ ↦ none
  faults := fun _ ↦ false
  calls := 0

/-- The store after serving one more call, entries unchanged. -/
def tick (db : GameDatabase) : GameDatabase := { db with calls := db.calls + 1 }

/-- `GameDatabase::get`: the latest value for `key`, unless this call fails. -/
def get (key : List UInt8) : EStateM Error GameDatabase (Option Record) := fun db ↦
  if db.faults db.calls then .error .store db.tick else .ok (db.data key) db.tick

/-- `GameDatabase::put`: overwrite `key`, unless this call fails. -/
def put (key : List UInt8) (value : Record) : EStateM Error GameDatabase Unit := fun db ↦
  if db.faults db.calls then .error .store db.tick
  else .ok () { db.tick with data := Function.update db.data key (some value) }

/-- The store never fails from its current call on. -/
def Reliable (db : GameDatabase) : Prop := ∀ n, db.calls ≤ n → db.faults n = false

@[simp] theorem tick_data (db : GameDatabase) : db.tick.data = db.data := rfl

@[simp] theorem tick_faults (db : GameDatabase) : db.tick.faults = db.faults := rfl

theorem get_data {key : List UInt8} {db : GameDatabase} :
    (get key db).state.data = db.data := by
  unfold get
  split <;> rfl

theorem get_of_reliable {key : List UInt8} {db : GameDatabase} (h : db.Reliable) :
    get key db = .ok (db.data key) db.tick := by
  simp [get, h db.calls (Nat.le_refl _)]

theorem put_of_reliable {key : List UInt8} {value : Record} {db : GameDatabase} (h : db.Reliable) :
    put key value db = .ok () { db.tick with data := Function.update db.data key (some value) } := by
  simp [put, h db.calls (Nat.le_refl _)]

theorem put_error_data {key : List UInt8} {value : Record} {db db' : GameDatabase} {e : Error}
    (h : put key value db = .error e db') : db'.data = db.data := by
  unfold put at h
  split at h <;> cases h
  rfl

theorem put_ok_data {key : List UInt8} {value : Record} {db db' : GameDatabase} {u : Unit}
    (h : put key value db = .ok u db') :
    db'.data = Function.update db.data key (some value) := by
  unfold put at h
  split at h <;> cases h
  rfl

theorem Reliable.tick {db : GameDatabase} (h : db.Reliable) : db.tick.Reliable :=
  fun n hn ↦ h n (Nat.le_of_succ_le hn)

end GameDatabase

end Cuberef
