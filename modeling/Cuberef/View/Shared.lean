import Cuberef.View.Panics

/-!
# Stored views shared by many callers

Any number of callers may hold stored views of one inventory: the popups of the players who have
it open. Each `take` and `put` on such a view is one `mutate_inventory_atomically` call, and the
manager admits these one at a time. Across every interleaving of those calls, nothing is lost or
duplicated: for every inventory, the items in its record plus those the calls handed out equal
the items it held at the start plus those the calls were given
(`shared_stored_views_conserve_items`).

## How the calls are modelled

* A run is the calls in the order the manager admits them, each with the view its caller holds.
  A stored view's operations return the view unchanged, so a caller's view is fixed.
* A call that fails hands nothing in or out; its caller keeps the stack it meant to put.
  `runShared` returns the store and the calls that returned, each with what it returned.

## What the result rests on

* `run_stored_count`: a call on a view of the inventory that returns changes the record's count
  by what it was given less what it handed out (`mutate_onSlot_count`, with `takeItems_count` and
  `tryMerge_count`).
* `keeps_run_other`: a call on any other view leaves the record alone. A stored view of another
  inventory writes only that inventory's record (`keeps_mutate_other`).
* `run_error_data`: a call that fails leaves the whole store alone, since the closures a view hands
  `mutate_inventory_atomically` never return an error.
-/

namespace Cuberef

namespace InventoryView

open InventoryManager

variable {m m' : InventoryManager} {key k : InventoryKey} {view view' : InventoryView}
  {name : String}

/-- What a call hands the view: the stack of a `put`. -/
def ViewOp.given : ViewOp → Option ItemStack
  | .take _ _ => none
  | .put _ stack => some stack.borrowedStack

/-- Calls in the order the manager admits them, each on the view its caller holds: the store
they leave, and the calls that returned, each with what it returned. -/
def runShared : List (InventoryView × ViewOp) → InventoryManager →
    InventoryManager × List (InventoryView × ViewOp × Option BorrowedStack)
  | [], m => (m, [])
  | (view, op) :: calls, m =>
    match op.run view m with
    | .ok (_, r) m' => ((runShared calls m').1, (view, op, r) :: (runShared calls m').2)
    | .error _ m' => runShared calls m'

/-- Items named `name` that the returned calls on views of `key` were given. -/
def givenTo (name : String) (key : InventoryKey)
    (log : List (InventoryView × ViewOp × Option BorrowedStack)) : Nat :=
  ((log.filter (·.1.backing = .stored key)).map fun c ↦ slotCount name c.2.1.given).sum

/-- Items named `name` that the returned calls on views of `key` handed out. -/
def handedOut (name : String) (key : InventoryKey)
    (log : List (InventoryView × ViewOp × Option BorrowedStack)) : Nat :=
  ((log.filter (·.1.backing = .stored key)).map fun c ↦ heldCount name c.2.2).sum

/-! ### One call -/

/-- The record stored under `key`. -/
abbrev recordAt (key : InventoryKey) (m : InventoryManager) : Option Record := m.db.data key.toDbKey

theorem keeps_checkSlot {τ : Type} (f : InventoryManager → τ) (self : InventoryView) (slot : Nat) :
    Keeps f (self.checkSlot slot) := by
  unfold checkSlot
  split
  exacts [keeps_pure _ _, keeps_throw _ _]

theorem keeps_runMutator {τ α T : Type} (f : InventoryManager → τ)
    (r : Option (α × Except Error T)) : Keeps f (runMutator r) := by
  unfold runMutator
  split
  exacts [keeps_pure _ _, keeps_throw _ _]

/-- A write of another inventory leaves the record alone. -/
theorem keeps_writeBack_other (hk : key ≠ k) (inv : Inventory) :
    Keeps (recordAt key) (writeBack k inv) := fun m ↦ by
  cases h : writeBack k inv m with
  | ok u m' =>
    rw [EStateM.Result.state_ok, recordAt, (writeBack_of_ok h).1,
      Function.update_noteq (mt InventoryKey.toDbKey_inj.mp hk)]
  | error e m' => rw [EStateM.Result.state_error, recordAt, (writeBack_of_error h).1.1]

/-- A mutation of another inventory leaves the record alone, whether it returns or fails. -/
theorem keeps_mutate_other {T : Type} (hk : key ≠ k) (mutator : Mutator T) :
    Keeps (recordAt key) (mutateInventoryAtomically k mutator) := by
  unfold mutateInventoryAtomically
  refine Keeps.bind (fun m ↦ by rw [recordAt, (load_untouched m k).1]) fun inv ↦
    Keeps.bind (keeps_runMutator _ _) fun p ↦ ?_
  obtain ⟨inv', r⟩ := p
  exact Keeps.bind (keeps_writeBack_other hk inv') fun _ ↦ keeps_ofExcept _ _

/-- **A call on any view but one of `key` leaves the record of `key` alone.** -/
theorem keeps_run_other (hb : view.backing ≠ .stored key) (op : ViewOp) :
    Keeps (recordAt key) (op.run view) := by
  rcases op with ⟨slot, count⟩ | ⟨slot, stack⟩
  all_goals
    dsimp only [ViewOp.run]
    first | unfold take | unfold put
    refine Keeps.bind (keeps_checkSlot _ view slot) fun _ ↦ ?_
    cases hv : view.backing with
    | transient contents =>
      dsimp only
      split
      exacts [keeps_throw _ _, keeps_pure _ _, keeps_pure _ _]
    | virtualOutput => exact keeps_throw _ _
    | virtualInput => exact keeps_throw _ _
    | stored k =>
      exact Keeps.bind (keeps_mutate_other (by rintro rfl; exact hb hv) _) fun _ ↦ keeps_pure _ _

/-- A slot closure never returns an error, so a failed mutation through it wrote nothing. -/
theorem mutate_onSlot_of_error {α : Type} {f : Option ItemStack → Option ItemStack × α}
    {slot : Nat} {e : Error} (h : mutateInventoryAtomically key (onSlot slot f) m = .error e m') :
    m'.db.data = m.db.data := by
  rcases mutateInventoryAtomically_of_error h with hu | ⟨inv, -, inv', -, hm, -⟩
  · exact hu.1
  · unfold onSlot at hm
    split at hm <;> cases hm

/-- **A call that fails leaves the store alone.** -/
theorem run_error_data {op : ViewOp} {e : Error} (h : op.run view m = .error e m') :
    m'.db.data = m.db.data := by
  rcases op with ⟨slot, count⟩ | ⟨slot, stack⟩
  all_goals
    dsimp only [ViewOp.run] at h
    first | unfold take at h | unfold put at h
    rcases bind_eq_error h with hc | ⟨u, m₁, hc, h⟩
    · have hm := keeps_checkSlot (fun x ↦ x) view slot m
      simp only [hc, id, EStateM.Result.state_error] at hm
      rw [hm]
    · cases checkSlot_eq_ok hc
      cases hv : view.backing with
      | transient contents =>
        simp only [hv] at h
        rcases hs : contents[slot]? with _ | _ | b <;> simp only [hs] at h
        · cases h; rfl
        · cases h
        · cases h
      | virtualOutput => simp only [hv] at h; cases h; rfl
      | virtualInput => simp only [hv] at h; cases h; rfl
      | stored k =>
        simp only [hv] at h
        rcases bind_eq_error h with hm | ⟨a, m₂, -, h⟩
        · exact mutate_onSlot_of_error hm
        · cases h

/-- **A call on a view of `key` that returns** changes the record's count by what it was given
less what it handed out. -/
theorem run_stored_count (hb : view.backing = .stored key) (hname : name ≠ "") {op : ViewOp}
    {r : Option BorrowedStack} (h : op.run view m = .ok (view', r) m') :
    storedCount name m.db.data key + slotCount name op.given =
      storedCount name m'.db.data key + heldCount name r := by
  cases op with
  | take slot count =>
    unfold ViewOp.run take at h
    obtain ⟨u, m₁, hc, h⟩ := bind_eq_ok h
    cases checkSlot_eq_ok hc
    simp only [hb] at h
    obtain ⟨obtained, m₂, hmut, h⟩ := bind_eq_ok h
    cases h
    obtain ⟨s, hcount, rfl⟩ := mutate_onSlot_count hname hmut
    have := MaybeStack.takeItems_count name s count
    have h0 : slotCount name none = 0 := rfl
    simp only [ViewOp.given, heldCount_map]
    omega
  | put slot stack =>
    unfold ViewOp.run put at h
    obtain ⟨u, m₁, hc, h⟩ := bind_eq_ok h
    cases checkSlot_eq_ok hc
    simp only [hb] at h
    obtain ⟨leftover, m₂, hmut, h⟩ := bind_eq_ok h
    cases h
    obtain ⟨s, hcount, rfl⟩ := mutate_onSlot_count hname hmut
    have := MaybeStack.tryMerge_count name s stack.borrowedStack
    simp only [ViewOp.given, heldCount_map]
    omega

theorem storedCount_congr {data data' : List UInt8 → Option Record}
    (h : data key.toDbKey = data' key.toDbKey) : storedCount name data key = storedCount name data' key := by
  unfold storedCount
  rw [h]

/-! ### Every interleaving -/

/-- **Shared stored views conserve items.** Over any interleaving of `take` and `put` calls by
any number of callers on any views, for every inventory and every item name: the items in the
inventory's record plus those the returned calls on its views handed out equal the items it held
at the start plus those the calls were given. Calls that fail, and calls on other views, move no
item of it. -/
theorem shared_stored_views_conserve_items (calls : List (InventoryView × ViewOp))
    (m : InventoryManager) (key : InventoryKey) (hname : name ≠ "") :
    storedCount name m.db.data key + givenTo name key (runShared calls m).2 =
      storedCount name (runShared calls m).1.db.data key +
        handedOut name key (runShared calls m).2 := by
  induction calls generalizing m with
  | nil => rfl
  | cons c calls ih =>
    obtain ⟨view, op⟩ := c
    have ih' := fun m ↦ ih m
    simp only [givenTo, handedOut] at ih' ⊢
    cases h : op.run view m with
    | ok res m' =>
      obtain ⟨view', r⟩ := res
      simp only [runShared, h, List.filter_cons]
      by_cases hb : view.backing = .stored key
      · have hstep := run_stored_count hb hname h
        simp only [hb, decide_True, if_true, List.map_cons, List.sum_cons]
        have := ih' m'
        omega
      · have hk : storedCount name m'.db.data key = storedCount name m.db.data key :=
          storedCount_congr (by simpa [h] using keeps_run_other hb op m)
        simp only [hb, decide_False, if_false]
        rw [← hk]
        exact ih' m'
    | error e m' =>
      simp only [runShared, h]
      rw [← storedCount_congr (congrFun (run_error_data h) key.toDbKey)]
      exact ih' m'

/-- A second player's view of `sampleKey`. -/
def secondStoredView : InventoryView := ⟨(1, 2), true, true, .stored sampleKey, 4⟩

/-- Two players with `sampleKey` open: the first takes two `dirt` from slot 0, the second puts
three into slot 1, the first asks for slot 5, which fails, and the second takes the rest of
slot 0. -/
def twoPlayersCalls : List (InventoryView × ViewOp) :=
  [(sampleStoredView, .take 0 (some 2)), (secondStoredView, .put 1 ⟨none, dirt 3⟩),
    (sampleStoredView, .take 5 none), (secondStoredView, .take 0 none)]

theorem shared_stored_views_conserve_items_two_players :
    "dirt" ≠ "" ∧
      storedCount "dirt" sampleManager.db.data sampleKey +
          givenTo "dirt" sampleKey (runShared twoPlayersCalls sampleManager).2 =
        storedCount "dirt" (runShared twoPlayersCalls sampleManager).1.db.data sampleKey +
          handedOut "dirt" sampleKey (runShared twoPlayersCalls sampleManager).2 :=
  ⟨by decide,
    shared_stored_views_conserve_items twoPlayersCalls sampleManager sampleKey (by decide)⟩

/-- The run hands out the five units of slot 0 and keeps the three put into slot 1. -/
example :
    handedOut "dirt" sampleKey (runShared twoPlayersCalls sampleManager).2 = 5 ∧
      storedCount "dirt" (runShared twoPlayersCalls sampleManager).1.db.data sampleKey = 3 := by
  decide

end InventoryView

end Cuberef
