import Cuberef.Furnace

/-!
# When a furnace tick marks its block dirty

`inline_callback` keeps a local `set_dirty`, which each phase raises when it changes something,
and calls `data.set_dirty()` once, at its end, when the flag is up; the block's extended data is
written back only when its holder is dirty. Two paths change the furnace and still leave the
holder as clean as it was.

* **The early returns.** The three `return Ok(())` of the smelting phase leave before the closing
  `if set_dirty`, after clearing `smelted_item` and the progress, and with whatever the flame
  phase changed. The last of them follows a finished smelt: the output has taken the result and
  the input has given up the recipe's quantity, and when nothing the book knows is left in the
  input, neither slot change is marked.
* **An idle burn.** A lit furnace with no input and nothing being smelted burns a tick of flame
  without raising the flag.

## What each result rests on

`burn_cases` and `smelt_cases` (in `Cuberef.Furnace`) say what each phase can do. A flame phase
that raises nothing only burns a tick of flame (`burn_clean`, from `shutDownFurnace_of_clean` and
`setAppearanceOn_of_clean`). Burning fuel always raises the flag, since it needs a recipe for the
input and leaves no flame for the smelting phase's other branches
(`furnace_tick_unmarked_changes`); the two paths above are its only exceptions, and
`changed_furnace_left_clean` shows each on a clean holder.
-/

namespace Cuberef

namespace FurnaceTimerCallback

open MaybeStack

variable {self : FurnaceTimerCallback} {f f' : Furnace} {d : Bool}

/-- A shutdown that reports nothing changed nothing. -/
theorem shutDownFurnace_of_clean {b : BlockTypeHandle} {s : FurnaceState}
    (h : (self.shutDownFurnace b s).2.2 = false) :
    (self.shutDownFurnace b s).1 = b ∧ (self.shutDownFurnace b s).2.1 = s := by
  unfold shutDownFurnace at h ⊢
  simp only [Bool.or_eq_false_iff] at h
  simp only [h.1, h.2]
  exact ⟨rfl, rfl⟩

/-- A `set_appearance_on` that reports nothing changed nothing. -/
theorem setAppearanceOn_of_clean {b : BlockTypeHandle} (h : (self.setAppearanceOn b).2 = false) :
    (self.setAppearanceOn b).1 = b := by
  unfold setAppearanceOn at h ⊢
  split at h
  · cases h
  · next hb => rw [if_neg hb]

/-- A furnace out of flame is its own state after a tick of burning: `0 - 1 = 0`. -/
theorem eq_burnt_of_flameLeft_eq_zero (h0 : f.state.flameLeft = 0) :
    f = { f with state := { f.state with flameLeft := f.state.flameLeft - 1 } } := by
  obtain ⟨⟨flameLeft, smeltProgress, smeltTicks, smeltedItem⟩, input, output, fuel, block⟩ := f
  cases h0
  rfl

/-- **A flame phase that raises nothing only burns a tick of flame**, if there was one. -/
theorem burn_clean (h : self.burn f = .ok (f', false)) :
    f' = { f with state := { f.state with flameLeft := f.state.flameLeft - 1 } } := by
  rcases burn_cases h with ⟨-, rfl, hd⟩ | ⟨-, -, -, -, -, -, -, -, hd⟩ | ⟨h0, rfl, -⟩ |
      ⟨h0, rfl, hd⟩
  · rw [setAppearanceOn_of_clean hd.symm]
  · cases hd
  · exact eq_burnt_of_flameLeft_eq_zero h0
  · obtain ⟨hb, hs⟩ := shutDownFurnace_of_clean hd.symm
    rw [hb, hs]
    exact eq_burnt_of_flameLeft_eq_zero h0

end FurnaceTimerCallback

/-! ### The last ore, and an idle burn -/

/-- One ore: an item of a stackable kind. -/
def ore : ItemStack := ItemStack.new ⟨"ore", some (.stack 256)⟩ 1

/-- A furnace whose smelting book turns one ore into an ingot in ten ticks, and which knows no
fuel. -/
def oreSmelter : FurnaceTimerCallback where
  recipes := ⟨fun s ↦ if s.map ItemStack.itemName = some "ore" then some ⟨1, ingot, 10⟩ else none⟩
  fuels := ⟨fun _ ↦ none⟩
  furnaceOffHandle := ⟨1, 0⟩
  furnaceOnHandle := ⟨2, 0⟩

/-- **A changed furnace can be left clean.** On a clean holder, the tick that smelts a lit
furnace's last ore returns `Ok` with the ore gone from the input, the ingot in the output and the
state changed, yet the holder is still clean: the recipe lookup on the empty input takes the
early return. A lit furnace with no input burns a tick of flame and leaves the holder clean too. -/
theorem changed_furnace_left_clean :
    oreSmelter.inlineCallback ⟨2, 0⟩
        ⟨some ⟨some (.furnace ⟨5, 9, 10, "ore"⟩), some ⟨[some ore], [none], [none]⟩⟩, false⟩ =
      .ok (⟨2, 0⟩,
        ⟨some ⟨some (.furnace ⟨4, 0, 10, ""⟩), some ⟨[none], [some ingot], [none]⟩⟩, false⟩) ∧
    oreSmelter.inlineCallback ⟨2, 0⟩
        ⟨some ⟨some (.furnace ⟨5, 0, 0, ""⟩), some ⟨[none], [none], [none]⟩⟩, false⟩ =
      .ok (⟨2, 0⟩, ⟨some ⟨some (.furnace ⟨4, 0, 0, ""⟩), some ⟨[none], [none], [none]⟩⟩, false⟩) :=
  ⟨rfl, rfl⟩

/-- A lit furnace one tick from finishing its last ore, with empty output and fuel slots. -/
def lastOreNearlySmelted : Furnace := ⟨⟨5, 9, 10, "ore"⟩, some ore, none, none, ⟨2, 0⟩⟩

namespace FurnaceTimerCallback

open MaybeStack

/-! ### What a tick leaves unmarked -/

variable {self : FurnaceTimerCallback} {f f' : Furnace} {d : Bool}

variable (self) in
/-- What a tick from `f` to `f'`, reaching `set_dirty` exactly when `d`, leaves unmarked. -/
structure UnmarkedChanges (f f' : Furnace) (d : Bool) : Prop where
  /-- Burning fuel is always marked. -/
  fuel : f'.fuel ≠ f.fuel → d = true
  /-- An unmarked tick only burns a tick of flame, or ends the smelting at an early return; the
  slots change there only where the output took the recipe's result whole and the book knows
  nothing of what is left of the input. -/
  clean : d = false →
    f' = { f with state := { f.state with flameLeft := f.state.flameLeft - 1 } } ∨
      f'.state.smeltedItem = "" ∧ f'.state.smeltProgress = 0 ∧
        (f'.input = f.input ∧ f'.output = f.output ∨
          ∃ r, self.recipes.find f.input = some r ∧
            tryMergeAll f.output (some r.result) = (f'.output, true) ∧
            self.recipes.find f'.input = none)

/-- **What a tick leaves unmarked.** Over every state, slot contents, recipe books and block type,
a tick that returns reaches `set_dirty` whenever it burns fuel. A tick that does not reach it
either only burns a tick of flame, or ends the smelting at an early return, and the slots change
at such a return only after a finished smelt that leaves the book nothing it knows in the
input. -/
theorem furnace_tick_unmarked_changes (h : self.tick f = .ok (f', d)) :
    UnmarkedChanges self f f' d := by
  obtain ⟨g, dg, hb, hs⟩ := tick_eq_ok h
  obtain ⟨hgi, hgo, -⟩ := burn_spec hb
  obtain ⟨hf, -, hc⟩ := smelt_cases hs
  refine ⟨fun hne ↦ ?_, fun hd ↦ ?_⟩
  · -- only lighting the furnace burns fuel, and then the smelting phase reaches `set_dirty`
    rcases burn_cases hb with ⟨-, rfl, -⟩ | ⟨h0, r, fuel, t, -, hi, -, rfl, rfl⟩ | ⟨-, rfl, -⟩ |
        ⟨-, rfl, -⟩
    · exact absurd hf hne
    · rcases hc with ⟨rfl, -⟩ | ⟨rfl, -⟩ | ⟨-, hn | hp, -⟩ | ⟨hp, -⟩
      · rfl
      · rfl
      · rw [show self.recipes.find f.input = none from hn] at hi
        cases hi
      · exact absurd (h0 ▸ hp) (Nat.lt_irrefl 0)
      · exact absurd (h0 ▸ hp) (Nat.lt_irrefl 0)
    · exact absurd hf hne
    · exact absurd hf hne
  · subst hd
    rcases hc with ⟨hdg, rfl⟩ | ⟨h', -⟩ | ⟨-, -, hi, hp, hin, hout⟩ |
        ⟨-, r, s, taken, hr, -, -, hm, -, hend⟩
    · rw [← hdg] at hb
      exact .inl (burn_clean hb)
    · cases h'
    · exact .inr ⟨hi, hp, .inl ⟨hin.trans hgi, hout.trans hgo⟩⟩
    · obtain ⟨hn, hi, hp⟩ := hend rfl
      rw [hgi] at hr
      rw [hgo] at hm
      exact .inr ⟨hi, hp, .inr ⟨r, hr, hm, hn⟩⟩

/-- The tick that finishes the last ore leaves its slot changes unmarked, as the law allows. -/
theorem last_ore_tick_unmarked_changes :
    oreSmelter.tick lastOreNearlySmelted =
        .ok (⟨⟨4, 0, 10, ""⟩, none, some ingot, none, ⟨2, 0⟩⟩, false) ∧
      UnmarkedChanges oreSmelter lastOreNearlySmelted
        ⟨⟨4, 0, 10, ""⟩, none, some ingot, none, ⟨2, 0⟩⟩ false :=
  ⟨rfl, furnace_tick_unmarked_changes rfl⟩

end FurnaceTimerCallback

end Cuberef
