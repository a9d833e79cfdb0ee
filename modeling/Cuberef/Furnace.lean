import Cuberef.Items.Laws
import Cuberef.Database

/-!
# The furnace tick

`FurnaceTimerCallback::inline_callback` (`cuberef_game_api/src/default_game/furnace.rs`) runs on
every timer tick of a furnace block. It reads the furnace's `FurnaceState` out of the block's
extended data, and slot `0` of its input, output and fuel inventories, and then runs two phases.

* **Flame** (lines 112 to 140). With no flame left, a fuel the fuel book knows is burned
  (`try_take_all` of the fuel recipe's quantity) when the smelting book knows the input, and
  `flame_left` becomes the fuel recipe's `metadata`; otherwise the furnace shuts down. With flame
  left, one tick of it burns.
* **Smelting** (lines 142 to 196). A new input restarts the progress. The same input, with flame
  at the start of the tick, advances it; at `smelt_ticks` the recipe's result is merged into the
  output (`try_merge_all`) and then the recipe's quantity is taken from the input
  (`try_take_all`).

Three `return Ok(())` leave before the closing `if set_dirty { data.set_dirty() }`.

## Shape

A tick works on `Furnace`: the state, the three slots and the block type. `burn` and `smelt` are
the two phases, `tick` runs them in turn, and `inlineCallback` adds the reads of the extended data
with their early exits. Each phase returns the furnace and whether `data.set_dirty()` is reached.
A panic (`unwrap` on `None`, `try_take_all` on an empty slot, `[0]` on an empty inventory) is the
`Error.panic` outcome. A recipe book's `find` is any function of the slot's stack.
`smelt_progress += 1` wraps at `2 ^ 32`, as a release build's `u32` addition does.

## What a tick consumes

* The fuel slot changes only where `flame_left` goes from `0` to the fuel recipe's `metadata`,
  and it then loses the fuel recipe's quantity (`burn_spec`).
* The input slot changes only where the output took the smelting recipe's result whole, and it
  then loses the recipe's quantity (`smelt_spec`, `furnace_tick_consumes_against_products`).
* The converse fails. The output takes the result before the input is taken from, and a
  non-stackable input refuses the take, which the code only logs: the input is kept, and the
  result is made from nothing (`unstackable_input_smelts_without_being_taken`).
-/

namespace Cuberef

/-- `FurnaceState`, the furnace's custom data, without `total_flame`, which no tick reads or
writes. One tick is a quarter of a second. -/
structure FurnaceState where
  /-- Ticks of flame left. -/
  flameLeft : Nat
  /-- Ticks of progress on the current input. -/
  smeltProgress : Nat
  /-- The ticks the current input takes. -/
  smeltTicks : Nat
  /-- The item being smelted; the progress restarts when the input slot holds another. -/
  smeltedItem : String
deriving DecidableEq, Repr

/-- `FurnaceState::default()`. -/
def FurnaceState.default : FurnaceState := ⟨0, 0, 0, ""⟩

/-- A `BlockTypeHandle`: a block type and its variant. -/
structure BlockTypeHandle where
  id : Nat
  variant : Nat
deriving DecidableEq, Repr

namespace BlockTypeHandle

/-- `BlockTypeHandle::equals_ignore_variant`. -/
def equalsIgnoreVariant (self other : BlockTypeHandle) : Bool := self.id == other.id

/-- `BlockTypeHandle::with_variant(variant).unwrap()`, for a variant read off another handle. -/
def withVariant (self : BlockTypeHandle) (variant : Nat) : BlockTypeHandle := { self with variant }

end BlockTypeHandle

/-- The fields of a one-slot `RecipeImpl<1, u32>` the furnace reads: `slots[0].quantity()`, the
`result`, and the `metadata` (the smelting time of a recipe, the flame of a fuel). -/
structure RecipeImpl where
  quantity : Nat
  result : ItemStack
  metadata : Nat
deriving DecidableEq, Repr

/-- A one-slot `RecipeBook`, by its `find`: any function of the slot's stack. -/
structure RecipeBook where
  find : Option ItemStack → Option RecipeImpl

/-- `FurnaceTimerCallback`: the smelting and fuel books, and the unlit and lit furnace blocks. -/
structure FurnaceTimerCallback where
  recipes : RecipeBook
  fuels : RecipeBook
  furnaceOffHandle : BlockTypeHandle
  furnaceOnHandle : BlockTypeHandle

/-- The custom data of a block: a `FurnaceState`, or a value of another type. -/
inductive CustomData
  | furnace (state : FurnaceState)
  | other
deriving DecidableEq, Repr

/-- The contents of the inventories `get_many_mut` finds under `FURNACE_INPUT`, `FURNACE_OUTPUT`
and `FURNACE_FUEL`. -/
structure FurnaceInventories where
  input : List (Option ItemStack)
  output : List (Option ItemStack)
  fuel : List (Option ItemStack)
deriving DecidableEq, Repr

/-- `ExtendedData`: the custom data, and the furnace's three inventories when all are present. -/
structure ExtendedData where
  customData : Option CustomData
  inventories : Option FurnaceInventories
deriving DecidableEq, Repr

/-- `ExtendedDataHolder`: a block's extended data, and whether it is to be written back. -/
structure ExtendedDataHolder where
  data : Option ExtendedData
  dirty : Bool
deriving DecidableEq, Repr

/-- `ExtendedDataHolder::set_dirty`. -/
def ExtendedDataHolder.setDirty (self : ExtendedDataHolder) : ExtendedDataHolder :=
  { self with dirty := true }

/-- What one tick reads and writes: the state, slot `0` of each inventory, and the block type. -/
structure Furnace where
  state : FurnaceState
  input : Option ItemStack
  output : Option ItemStack
  fuel : Option ItemStack
  block : BlockTypeHandle
deriving DecidableEq, Repr

/-- The text of the panic of `[0]` on an empty inventory. -/
def indexOutOfBounds : String := "index out of bounds: the len is 0 but the index is 0"

namespace FurnaceTimerCallback

open MaybeStack

variable (self : FurnaceTimerCallback)

/-- `shut_down_furnace`: a lit furnace block turns off, keeping its variant, and the progress
restarts; `true` when either happened. -/
def shutDownFurnace (blockType : BlockTypeHandle) (state : FurnaceState) :
    BlockTypeHandle × FurnaceState × Bool :=
  let dirtyFromBlocktype := blockType.equalsIgnoreVariant self.furnaceOnHandle
  let dirtyFromState := decide (state.smeltProgress > 0)
  (if dirtyFromBlocktype then self.furnaceOffHandle.withVariant blockType.variant else blockType,
    if dirtyFromState then { state with smeltProgress := 0 } else state,
    dirtyFromBlocktype || dirtyFromState)

/-- `set_appearance_on`: an unlit furnace block lights, keeping its variant; `true` when it did. -/
def setAppearanceOn (blockType : BlockTypeHandle) : BlockTypeHandle × Bool :=
  if blockType.equalsIgnoreVariant self.furnaceOffHandle then
    (self.furnaceOnHandle.withVariant blockType.variant, true)
  else (blockType, false)

/-- Lines 112 to 140, the flame, and the `set_dirty` it leaves. The result of `set_appearance_on`
after lighting is dropped, as the source drops it. -/
def burn (f : Furnace) : Except Error (Furnace × Bool) :=
  if f.state.flameLeft = 0 then
    match self.fuels.find f.fuel with
    | some fuelingRecipe =>
      if (self.recipes.find f.input).isSome then
        match tryTakeAll f.fuel (some fuelingRecipe.quantity) with
        | none => .error (.panic unwrapNone)
        | some (fuel, taken) =>
          if taken.isSome then
            .ok ({ f with
              fuel, state := { f.state with flameLeft := fuelingRecipe.metadata },
              block := (self.setAppearanceOn f.block).1 }, true)
          else .ok ({ f with fuel }, false)
      else
        let r := self.shutDownFurnace f.block f.state
        .ok ({ f with block := r.1, state := r.2.1 }, r.2.2)
    | none =>
      let r := self.shutDownFurnace f.block f.state
      .ok ({ f with block := r.1, state := r.2.1 }, r.2.2)
  else
    let r := self.setAppearanceOn f.block
    .ok ({ f with state := { f.state with flameLeft := f.state.flameLeft - 1 }, block := r.1 }, r.2)

/-- Lines 142 to 196, the smelting, after a flame phase that began with `prevFlame` ticks of flame
and left `setDirty`; the result is the furnace and whether `data.set_dirty()` is reached, which
the three `return Ok(())` skip. -/
def smelt (prevFlame : Nat) (f : Furnace) (setDirty : Bool) : Except Error (Furnace × Bool) :=
  let currentInput := (f.input.map ItemStack.itemName).getD ""
  if f.state.smeltedItem ≠ currentInput then
    match self.recipes.find f.input with
    | some recipe =>
      .ok ({ f with state := { f.state with
        smeltProgress := 0, smeltTicks := recipe.metadata, smeltedItem := currentInput } }, true)
    | none =>
      .ok ({ f with state := { f.state with smeltProgress := 0, smeltedItem := "" } }, false)
  else if prevFlame > 0 ∧ f.state.smeltedItem ≠ "" then
    let state := { f.state with smeltProgress := (f.state.smeltProgress + 1) % 2 ^ 32 }
    if state.smeltProgress ≥ state.smeltTicks then
      match self.recipes.find f.input with
      | none => .error (.panic unwrapNone)
      | some recipe =>
        let canTakeInput := f.input.any fun x ↦ x.quantity ≥ recipe.quantity
        if !canTakeInput then
          .ok ({ f with state := { state with smeltedItem := "", smeltProgress := 0 } }, false)
        else
          match tryMergeAll f.output (some recipe.result) with
          | (output, true) =>
            match tryTakeAll f.input (some recipe.quantity) with
            | none => .error (.panic unwrapNone)
            | some (input, _) =>
              let state := { state with smeltProgress := 0 }
              match self.recipes.find input with
              | some recipe =>
                .ok ({ f with
                  input, output, state := { state with smeltTicks := recipe.metadata } }, true)
              | none =>
                .ok ({ f with input, output, state := { state with smeltedItem := "" } }, false)
          | (output, false) => .ok ({ f with output, state }, true)
    else .ok ({ f with state }, true)
  else .ok (f, setDirty)

/-- The two phases in turn; the smelting sees the flame the tick began with. -/
def tick (f : Furnace) : Except Error (Furnace × Bool) := do
  let (g, setDirty) ← self.burn f
  self.smelt f.state.flameLeft g setDirty

/-- **`FurnaceTimerCallback::inline_callback`.** Inserts default extended data and a default
`FurnaceState` where there is none, leaves on custom data of another type or a missing
inventory, and otherwise runs the tick on slot `0` of each inventory, writes the furnace back and
calls `set_dirty` when the tick reaches it. -/
def inlineCallback (blockType : BlockTypeHandle) (data : ExtendedDataHolder) :
    Except Error (BlockTypeHandle × ExtendedDataHolder) :=
  let extendedData := data.data.getD ⟨some (.furnace .default), none⟩
  let customData := extendedData.customData.getD (.furnace .default)
  let data := { data with data := some { extendedData with customData := some customData } }
  match customData, extendedData.inventories with
  | .other, _ => .ok (blockType, data)
  | .furnace _, none => .ok (blockType, data)
  | .furnace state, some ⟨input :: inputs, output :: outputs, fuel :: fuels⟩ =>
    match self.tick ⟨state, input, output, fuel, blockType⟩ with
    | .error e => .error e
    | .ok (f, setDirty) =>
      let data := { data with data := some ⟨some (.furnace f.state),
        some ⟨f.input :: inputs, f.output :: outputs, f.fuel :: fuels⟩⟩ }
      .ok (f.block, if setDirty then data.setDirty else data)
  | .furnace _, some _ => .error (.panic indexOutOfBounds)

end FurnaceTimerCallback

/-! ### A tool smelted into an ingot -/

/-- A tool: one item with a wear level, so not stackable. -/
def tool : ItemStack := ItemStack.new ⟨"tool", some (.wear 100)⟩ 1

/-- An ingot: one item of a stackable kind. -/
def ingot : ItemStack := ItemStack.new ⟨"ingot", some (.stack 256)⟩ 1

/-- A furnace whose smelting book turns one tool into an ingot in ten ticks, and which knows no
fuel. -/
def toolSmelter : FurnaceTimerCallback where
  recipes := ⟨fun s ↦ if s.map ItemStack.itemName = some "tool" then some ⟨1, ingot, 10⟩ else none⟩
  fuels := ⟨fun _ ↦ none⟩
  furnaceOffHandle := ⟨1, 0⟩
  furnaceOnHandle := ⟨2, 0⟩

/-- A lit furnace one tick from finishing a tool, with empty output and fuel slots. -/
def toolNearlySmelted : Furnace := ⟨⟨5, 9, 10, "tool"⟩, some tool, none, none, ⟨2, 0⟩⟩

/-- The same furnace after the tick: the ingot in the output, and the tool still in the input. -/
def toolSmelted : Furnace := ⟨⟨4, 0, 10, "tool"⟩, some tool, some ingot, none, ⟨2, 0⟩⟩

/-- **Smelting a non-stackable input makes the result from nothing.** The lit furnace's block
holds a tool, one tick from done, and a clean holder. The tick returns `Ok`: the output slot now
holds the ingot, while the input slot still holds the tool, since `try_take_all` refuses a
non-stackable stack after `try_merge_all` has already given the output the result. -/
theorem unstackable_input_smelts_without_being_taken :
    toolSmelter.inlineCallback ⟨2, 0⟩
        ⟨some ⟨some (.furnace ⟨5, 9, 10, "tool"⟩), some ⟨[some tool], [none], [none]⟩⟩, false⟩ =
      .ok (⟨2, 0⟩,
        ⟨some ⟨some (.furnace ⟨4, 0, 10, "tool"⟩), some ⟨[some tool], [some ingot], [none]⟩⟩,
          true⟩) ∧
      tool.stackable = false :=
  ⟨rfl, rfl⟩

namespace FurnaceTimerCallback

open MaybeStack

/-! ### The phases -/

variable {self : FurnaceTimerCallback} {f f' : Furnace} {d d' : Bool}

/-- A tick that returns ran the flame phase and then the smelting phase. -/
theorem tick_eq_ok (h : self.tick f = .ok (f', d)) :
    ∃ g dg, self.burn f = .ok (g, dg) ∧ self.smelt f.state.flameLeft g dg = .ok (f', d) := by
  unfold tick at h
  cases hb : self.burn f with
  | error e => rw [hb] at h; cases h
  | ok r => rw [hb] at h; exact ⟨r.1, r.2, rfl, h⟩

/-- **What the flame phase can do.** Burn one tick of a lit furnace; light it from the fuel
slot; find the fuel refused, changing nothing; or shut it down. -/
theorem burn_cases (h : self.burn f = .ok (f', d)) :
    (0 < f.state.flameLeft ∧
        f' = { f with
          state := { f.state with flameLeft := f.state.flameLeft - 1 },
          block := (self.setAppearanceOn f.block).1 } ∧
        d = (self.setAppearanceOn f.block).2) ∨
      (f.state.flameLeft = 0 ∧ ∃ r fuel t, self.fuels.find f.fuel = some r ∧
        (self.recipes.find f.input).isSome ∧
        tryTakeAll f.fuel (some r.quantity) = some (fuel, some t) ∧
        f' = { f with
          fuel, state := { f.state with flameLeft := r.metadata },
          block := (self.setAppearanceOn f.block).1 } ∧
        d = true) ∨
      (f.state.flameLeft = 0 ∧ f' = f ∧ d = false) ∨
      (f.state.flameLeft = 0 ∧
        f' = { f with
          block := (self.shutDownFurnace f.block f.state).1,
          state := (self.shutDownFurnace f.block f.state).2.1 } ∧
        d = (self.shutDownFurnace f.block f.state).2.2) := by
  unfold burn at h
  by_cases h0 : f.state.flameLeft = 0
  case neg => rw [if_neg h0] at h; cases h; exact .inl ⟨Nat.pos_of_ne_zero h0, rfl, rfl⟩
  case pos =>
    rw [if_pos h0] at h
    split at h
    case h_2 => cases h; exact .inr (.inr (.inr ⟨h0, rfl, rfl⟩))
    case h_1 r hr =>
      split at h
      case isFalse => cases h; exact .inr (.inr (.inr ⟨h0, rfl, rfl⟩))
      case isTrue hi =>
        split at h
        case h_1 => cases h
        case h_2 fuel taken ht =>
          split at h <;> cases h
          case isTrue hs =>
            obtain ⟨t, rfl⟩ := Option.isSome_iff_exists.mp hs
            exact .inr (.inl ⟨h0, r, fuel, t, hr, hi, ht, rfl, rfl⟩)
          case isFalse hs =>
            rw [Option.not_isSome_iff_eq_none] at hs
            subst hs
            exact .inr (.inr (.inl ⟨h0, by rw [tryTakeAll_eq_some_none ht], rfl⟩))

/-- **The flame phase**: the input and output slots are untouched, and the fuel slot changes only
where `flame_left` goes from `0` to the fuel recipe's `metadata`, losing the fuel recipe's
quantity. -/
theorem burn_spec (h : self.burn f = .ok (f', d)) :
    f'.input = f.input ∧ f'.output = f.output ∧
      (f'.fuel = f.fuel ∨ f.state.flameLeft = 0 ∧ ∃ r, self.fuels.find f.fuel = some r ∧
        f'.state.flameLeft = r.metadata ∧ quantity f.fuel = quantity f'.fuel + r.quantity) := by
  rcases burn_cases h with ⟨-, rfl, -⟩ | ⟨h0, r, fuel, t, hr, -, ht, rfl, -⟩ | ⟨-, rfl, -⟩ |
      ⟨-, rfl, -⟩
  · exact ⟨rfl, rfl, .inl rfl⟩
  · exact ⟨rfl, rfl, .inr ⟨h0, r, hr, rfl, tryTakeAll_eq_some_some ht⟩⟩
  · exact ⟨rfl, rfl, .inl rfl⟩
  · exact ⟨rfl, rfl, .inl rfl⟩

/-- **What the smelting phase can do.** The fuel slot and the flame are untouched, and one of
four things happens. The furnace is left as it was, with the flame phase's `set_dirty`. The slots
are untouched and `set_dirty` is reached. The smelting ends at an early return with the slots
untouched, where the book knows no recipe for the input or there was flame at the start of the
tick. Or, with flame at the start of the tick, the output took the recipe's result whole and
`try_take_all` of the recipe's quantity returned on an input holding at least that quantity; the
early return after it is taken exactly where the book knows no recipe for what is left. -/
theorem smelt_cases {p : Nat} (h : self.smelt p f d = .ok (f', d')) :
    f'.fuel = f.fuel ∧ f'.state.flameLeft = f.state.flameLeft ∧
      (d' = d ∧ f' = f ∨
        d' = true ∧ f'.input = f.input ∧ f'.output = f.output ∨
        d' = false ∧ (self.recipes.find f.input = none ∨ 0 < p) ∧ f'.state.smeltedItem = "" ∧
          f'.state.smeltProgress = 0 ∧ f'.input = f.input ∧ f'.output = f.output ∨
        0 < p ∧ ∃ r s taken, self.recipes.find f.input = some r ∧ f.input = some s ∧
          r.quantity ≤ s.quantity ∧ tryMergeAll f.output (some r.result) = (f'.output, true) ∧
          tryTakeAll f.input (some r.quantity) = some (f'.input, taken) ∧
          (d' = false →
            self.recipes.find f'.input = none ∧ f'.state.smeltedItem = "" ∧
              f'.state.smeltProgress = 0)) := by
  unfold smelt at h
  dsimp only at h
  by_cases hn : f.state.smeltedItem ≠ (f.input.map ItemStack.itemName).getD ""
  case pos =>
    rw [if_pos hn] at h
    split at h
    · cases h; exact ⟨rfl, rfl, .inr (.inl ⟨rfl, rfl, rfl⟩)⟩
    · next hr => cases h; exact ⟨rfl, rfl, .inr (.inr (.inl ⟨rfl, .inl hr, rfl, rfl, rfl, rfl⟩))⟩
  case neg =>
    rw [if_neg hn] at h
    by_cases hp : p > 0 ∧ f.state.smeltedItem ≠ ""
    case neg => rw [if_neg hp] at h; cases h; exact ⟨rfl, rfl, .inl ⟨rfl, rfl⟩⟩
    case pos =>
      rw [if_pos hp] at h
      split at h
      case isFalse => cases h; exact ⟨rfl, rfl, .inr (.inl ⟨rfl, rfl, rfl⟩)⟩
      case isTrue =>
        split at h
        case h_1 => cases h
        case h_2 r hr =>
          split at h
          case isTrue =>
            cases h
            exact ⟨rfl, rfl, .inr (.inr (.inl ⟨rfl, .inr hp.1, rfl, rfl, rfl, rfl⟩))⟩
          case isFalse hc =>
            obtain ⟨s, hs, hq⟩ : ∃ s, f.input = some s ∧ r.quantity ≤ s.quantity := by
              cases hi : f.input with
              | none => rw [hi] at hc; exact absurd rfl hc
              | some s => rw [hi] at hc; exact ⟨s, rfl, by simpa using hc⟩
            split at h
            case h_1 output hm =>
              split at h
              case h_1 => cases h
              case h_2 input taken ht =>
                split at h
                · cases h
                  exact ⟨rfl, rfl, .inr (.inr (.inr
                    ⟨hp.1, r, s, taken, hr, hs, hq, hm, ht, fun h ↦ by cases h⟩))⟩
                · next hn =>
                  cases h
                  exact ⟨rfl, rfl, .inr (.inr (.inr
                    ⟨hp.1, r, s, taken, hr, hs, hq, hm, ht, fun _ ↦ ⟨hn, rfl, rfl⟩⟩))⟩
            case h_2 output hm =>
              cases h
              exact ⟨rfl, rfl, .inr (.inl ⟨rfl, rfl, tryMergeAll_eq_false hm⟩)⟩

/-- **The smelting phase**: the fuel slot and the flame are untouched, and the input and output
slots either both stay, or the output took the recipe's result whole and `try_take_all` of the
recipe's quantity returned on an input holding at least that quantity. -/
theorem smelt_spec {p : Nat} (h : self.smelt p f d = .ok (f', d')) :
    f'.fuel = f.fuel ∧ f'.state.flameLeft = f.state.flameLeft ∧
      (f'.input = f.input ∧ f'.output = f.output ∨
        ∃ r, self.recipes.find f.input = some r ∧
          tryMergeAll f.output (some r.result) = (f'.output, true) ∧
          ∃ s taken, f.input = some s ∧ r.quantity ≤ s.quantity ∧
            tryTakeAll f.input (some r.quantity) = some (f'.input, taken)) := by
  obtain ⟨hf, hfl, hc⟩ := smelt_cases h
  refine ⟨hf, hfl, ?_⟩
  rcases hc with ⟨-, rfl⟩ | ⟨-, hi, ho⟩ | ⟨-, -, -, -, hi, ho⟩ |
      ⟨-, r, s, taken, hr, hs, hq, hm, ht, -⟩
  · exact .inl ⟨rfl, rfl⟩
  · exact .inl ⟨hi, ho⟩
  · exact .inl ⟨hi, ho⟩
  · exact .inr ⟨r, hr, hm, s, taken, hs, hq, ht⟩

/-! ### What a tick consumes -/

variable (self) in
/-- What a tick from `f` to `f'` consumes, and against what. -/
structure ConsumesAgainstProducts (f f' : Furnace) : Prop where
  /-- The fuel slot changes only where the flame goes from `0` to the fuel recipe's `metadata`,
  and then loses the fuel recipe's quantity. -/
  fuel : f'.fuel ≠ f.fuel → f.state.flameLeft = 0 ∧ ∃ r, self.fuels.find f.fuel = some r ∧
    f'.state.flameLeft = r.metadata ∧ quantity f.fuel = quantity f'.fuel + r.quantity
  /-- The input slot changes only where the output took the recipe's result whole, and then
  loses the recipe's quantity. -/
  input : f'.input ≠ f.input → ∃ r, self.recipes.find f.input = some r ∧
    tryMergeAll f.output (some r.result) = (f'.output, true) ∧
    quantity f.input = quantity f'.input + r.quantity
  /-- The output slot changes only by taking the recipe's result whole; the input then loses the
  recipe's quantity, or is a non-stackable stack kept as it was. -/
  output : f'.output ≠ f.output → ∃ r, self.recipes.find f.input = some r ∧
    tryMergeAll f.output (some r.result) = (f'.output, true) ∧
    (quantity f.input = quantity f'.input + r.quantity ∨
      ∃ s, f.input = some s ∧ s.stackable = false ∧ f'.input = f.input)

/-- **A tick consumes only against what it produces.** Over every state, slot contents, recipe
books and block type, a tick that returns burns fuel only to light the furnace, takes from the
input only against a result the output took whole, and gives the output a result only against
the input's recipe quantity, except from a non-stackable input, which is kept. -/
theorem furnace_tick_consumes_against_products (h : self.tick f = .ok (f', d)) :
    ConsumesAgainstProducts self f f' := by
  obtain ⟨g, dg, hb, hsm⟩ := tick_eq_ok h
  obtain ⟨hgi, hgo, hgf⟩ := burn_spec hb
  obtain ⟨hf, hfl, hio⟩ := smelt_spec hsm
  rw [hgi, hgo] at hio
  refine ⟨fun hne ↦ ?_, fun hne ↦ ?_, fun hne ↦ ?_⟩
  · rcases hgf with hgf | ⟨h0, r, hr, hfl', hq⟩
    · exact absurd (hf.trans hgf) hne
    · exact ⟨h0, r, hr, hfl.trans hfl', by rw [hf]; exact hq⟩
  · rcases hio with ⟨hi, -⟩ | ⟨r, hr, hm, s, taken, -, -, ht⟩
    · exact absurd hi hne
    · cases taken with
      | none => exact absurd (tryTakeAll_eq_some_none ht) hne
      | some t => exact ⟨r, hr, hm, tryTakeAll_eq_some_some ht⟩
  · rcases hio with ⟨-, ho⟩ | ⟨r, hr, hm, s, taken, hs, hq, ht⟩
    · exact absurd ho hne
    · refine ⟨r, hr, hm, ?_⟩
      cases taken with
      | some t => exact .inl (tryTakeAll_eq_some_some ht)
      | none =>
        refine .inr ⟨s, hs, ?_, tryTakeAll_eq_some_none ht⟩
        cases hst : s.stackable
        · rfl
        · exact absurd ((tryTakeAll_of_eq_some ht).2.mpr (.inr ⟨s, _, hs, rfl, hst, hq⟩)) (by simp)

/-- The tick that finishes the tool, and what it consumes. -/
theorem tool_tick_consumes_against_products :
    toolSmelter.tick toolNearlySmelted = .ok (toolSmelted, true) ∧
      ConsumesAgainstProducts toolSmelter toolNearlySmelted toolSmelted :=
  ⟨rfl, furnace_tick_consumes_against_products rfl⟩

end FurnaceTimerCallback

end Cuberef
