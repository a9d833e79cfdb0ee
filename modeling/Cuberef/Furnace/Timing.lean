import Cuberef.Furnace.Dirty

/-!
# A smelt over many ticks

The furnace timer fires `inline_callback` on its block every quarter of a second. Each firing
runs one `tick` on the furnace the previous one left. This module follows a smelt across those
ticks: `ticks n f` is `n` firings with nothing else touching the slots.

A furnace smelting its current input, with progress `p` towards `smelt_ticks = T` and flame for
at least the `T - p` ticks that remain, produces the recipe's result at the `(T - p)`-th tick and
not before (`smelt_completes_after_remaining_ticks`):

* **Not before.** Each of the first `T - p - 1` ticks burns a tick of flame and advances the
  progress by one, leaving the three slots as they were (`tick_of_advance`).
* **At the last tick.** The progress reaches `smelt_ticks`. If the output can take the result
  whole and the input holds the recipe's quantity, the result is merged into the output and the
  input left as `try_take_all` leaves it (`tick_of_complete`). That loses the recipe's quantity
  only for a stackable input (`tryTakeAll_of_stackable`); a non-stackable one stays as it was.

The flame phase sees the flame the tick began with. Since the hypothesis gives flame for every
tick of the window, no tick of it relights the furnace, and none of them touches the fuel.
`smelt_progress += 1` wraps at `2 ^ 32`; with `smelt_ticks` a `u32` the progress never reaches
the wrap inside the window.

Over any run, whatever it smelts (`ticks_slots_monotone`), the input and fuel slots never gain
items and the output slot never loses any. Each tick does so (`tick_slots_monotone`, from the
phase specs `burn_spec` and `smelt_spec`), and the run lemma chains the ticks.
-/

namespace Cuberef

namespace FurnaceTimerCallback

open MaybeStack

variable {self : FurnaceTimerCallback} {f : Furnace}

variable (self) in
/-- `n` firings of the furnace timer on one block, each on the furnace the last one left, with
nothing else touching the slots. -/
def ticks : Nat → Furnace → Except Error Furnace
  | 0, f => .ok f
  | n + 1, f => do
    let (g, _) ← self.tick f
    ticks n g

theorem ticks_succ {n : Nat} {g : Furnace} {d : Bool} (h : self.tick f = .ok (g, d)) :
    self.ticks (n + 1) f = self.ticks n g := by
  simp only [ticks, h]
  rfl

/-- The last of `n + 1` firings, after the first `n`. -/
theorem ticks_succ_right {n : Nat} {g g' : Furnace} {d : Bool} (hn : self.ticks n f = .ok g)
    (h : self.tick g = .ok (g', d)) : self.ticks (n + 1) f = .ok g' := by
  induction n generalizing f with
  | zero => cases hn; simp only [ticks, h]; rfl
  | succ n ih =>
    simp only [ticks] at hn ⊢
    cases hf : self.tick f with
    | error e => rw [hf] at hn; cases hn
    | ok r => rw [hf] at hn; exact ih hn

/-- A tick that starts lit burns a tick of flame, and lights the block. -/
theorem burn_of_lit (hflame : 0 < f.state.flameLeft) :
    self.burn f = .ok ({ f with
      state := { f.state with flameLeft := f.state.flameLeft - 1 },
      block := (self.setAppearanceOn f.block).1 }, (self.setAppearanceOn f.block).2) := by
  unfold burn
  rw [if_neg (Nat.pos_iff_ne_zero.mp hflame)]

section Smelting

variable (hcur : f.state.smeltedItem = (f.input.map ItemStack.itemName).getD "")
  (hne : f.state.smeltedItem ≠ "") (hflame : 0 < f.state.flameLeft)
include hcur hne hflame

/-- **A tick in the middle of a smelt.** The furnace is smelting its current input and has
flame, and the progress stays below `smelt_ticks`: the tick burns a tick of flame, advances the
progress by one, and leaves the slots alone. -/
theorem tick_of_advance (hlt : f.state.smeltProgress + 1 < f.state.smeltTicks)
    (hT : f.state.smeltTicks < 2 ^ 32) :
    self.tick f = .ok ({ f with
      state := { f.state with
        flameLeft := f.state.flameLeft - 1, smeltProgress := f.state.smeltProgress + 1 },
      block := (self.setAppearanceOn f.block).1 }, true) := by
  have hmod : (f.state.smeltProgress + 1) % 2 ^ 32 = f.state.smeltProgress + 1 :=
    Nat.mod_eq_of_lt (by omega)
  unfold tick
  rw [burn_of_lit hflame]
  show self.smelt f.state.flameLeft _ _ = _
  unfold smelt
  dsimp only
  rw [if_neg (not_not.mpr hcur), if_pos ⟨hflame, hne⟩, hmod, if_neg (by omega)]

/-- **The tick that finishes a smelt.** The progress reaches `smelt_ticks`; when the output can
take the result whole and the input holds the recipe's quantity, the result goes into the output
and the quantity leaves the input. -/
theorem tick_of_complete {r : RecipeImpl} (hge : f.state.smeltTicks ≤ f.state.smeltProgress + 1)
    (hT : f.state.smeltProgress + 1 < 2 ^ 32) (hr : self.recipes.find f.input = some r)
    (hq : ∃ s, f.input = some s ∧ r.quantity ≤ s.quantity)
    (hm : (tryMergeAll f.output (some r.result)).2 = true) :
    ∃ g d, self.tick f = .ok (g, d) ∧ (tryMergeAll f.output (some r.result)).1 = g.output ∧
      (∃ taken, tryTakeAll f.input (some r.quantity) = some (g.input, taken)) ∧ g.fuel = f.fuel := by
  obtain ⟨s, hs, hsq⟩ := hq
  have hmod : (f.state.smeltProgress + 1) % 2 ^ 32 = f.state.smeltProgress + 1 :=
    Nat.mod_eq_of_lt hT
  have hcan : (f.input.any fun x ↦ decide (x.quantity ≥ r.quantity)) = true := by
    rw [hs]
    exact decide_eq_true hsq
  obtain ⟨output', hm'⟩ : ∃ output', tryMergeAll f.output (some r.result) = (output', true) :=
    ⟨_, Prod.ext rfl hm⟩
  obtain ⟨⟨input', taken⟩, ht⟩ := Option.ne_none_iff_exists'.mp fun h ↦
    Option.some_ne_none s (hs.symm.trans (tryTakeAll_eq_none_iff.mp h).1)
  unfold tick
  rw [burn_of_lit hflame]
  show ∃ g d, self.smelt f.state.flameLeft _ _ = _ ∧ _
  unfold smelt
  dsimp only
  rw [if_neg (not_not.mpr hcur), if_pos ⟨hflame, hne⟩, hmod, if_pos hge, hr]
  dsimp only
  rw [hcan, hm', ht, if_neg (by decide)]
  dsimp only
  cases self.recipes.find input' <;> exact ⟨_, _, rfl, rfl, ⟨taken, rfl⟩, rfl⟩

end Smelting

/-- The first `j` ticks of a smelt with flame enough for the rest of it: each advances the
progress by one and burns a tick of flame, and the slots and the smelted item stay. -/
theorem ticks_of_smelting {j : Nat}
    (hcur : f.state.smeltedItem = (f.input.map ItemStack.itemName).getD "")
    (hne : f.state.smeltedItem ≠ "") (hj : j < f.state.smeltTicks - f.state.smeltProgress)
    (hT : f.state.smeltTicks < 2 ^ 32)
    (hflame : f.state.smeltTicks - f.state.smeltProgress ≤ f.state.flameLeft) :
    ∃ g, self.ticks j f = .ok g ∧ g.input = f.input ∧ g.output = f.output ∧ g.fuel = f.fuel ∧
      g.state.smeltedItem = f.state.smeltedItem ∧ g.state.smeltTicks = f.state.smeltTicks ∧
      g.state.smeltProgress = f.state.smeltProgress + j ∧
      g.state.flameLeft = f.state.flameLeft - j := by
  induction j generalizing f with
  | zero => exact ⟨f, rfl, rfl, rfl, rfl, rfl, rfl, rfl, rfl⟩
  | succ j ih =>
    have hj' : j < f.state.smeltTicks - (f.state.smeltProgress + 1) := by omega
    rw [ticks_succ (tick_of_advance hcur hne (lt_of_lt_of_le (Nat.zero_lt_of_lt hj) hflame)
      (Nat.lt_of_sub_pos (Nat.lt_of_le_of_lt (Nat.zero_le j) hj')) hT)]
    obtain ⟨g, hg, hi, ho, hf, hs, ht, hp, hl⟩ := ih (f := { f with
        state := { f.state with
          flameLeft := f.state.flameLeft - 1, smeltProgress := f.state.smeltProgress + 1 },
        block := (self.setAppearanceOn f.block).1 })
      hcur hne hj' hT (by dsimp only; rw [← Nat.sub_sub]; exact Nat.sub_le_sub_right hflame 1)
    exact ⟨g, hg, hi, ho, hf, hs, ht, hp.trans (Nat.add_right_comm _ _ _),
      hl.trans (by dsimp only; rw [Nat.sub_sub, Nat.add_comm 1 j])⟩

/-- **A smelt completes after exactly the ticks it has left.** A furnace smelting the input in
its input slot, with progress `p` below `smelt_ticks = T` and flame for the `T - p` ticks left,
leaves its slots alone for every one of the first `T - p - 1` ticks. If the input is a stackable
stack holding at least the quantity its recipe asks, and the output can take the recipe's result
whole, then after `T - p` ticks the result is in the output, the input has lost the recipe's
quantity (what `try_take_all` leaves), and the fuel has not been touched. -/
theorem smelt_completes_after_remaining_ticks {r : RecipeImpl}
    (hcur : f.state.smeltedItem = (f.input.map ItemStack.itemName).getD "")
    (hne : f.state.smeltedItem ≠ "") (hp : f.state.smeltProgress < f.state.smeltTicks)
    (hT : f.state.smeltTicks < 2 ^ 32)
    (hflame : f.state.smeltTicks - f.state.smeltProgress ≤ f.state.flameLeft) :
    (∀ j < f.state.smeltTicks - f.state.smeltProgress, ∃ g, self.ticks j f = .ok g ∧
      g.input = f.input ∧ g.output = f.output ∧ g.fuel = f.fuel) ∧
    (self.recipes.find f.input = some r →
      (∃ s, f.input = some s ∧ s.stackable = true ∧ r.quantity ≤ s.quantity) →
      (tryMergeAll f.output (some r.result)).2 = true →
      ∃ g, self.ticks (f.state.smeltTicks - f.state.smeltProgress) f = .ok g ∧
        (tryMergeAll f.output (some r.result)).1 = g.output ∧
        quantity f.input = quantity g.input + r.quantity ∧
        (∃ taken, tryTakeAll f.input (some r.quantity) = some (g.input, taken)) ∧
        g.fuel = f.fuel) := by
  refine ⟨fun j hj ↦ ?_, fun hr ⟨s, hsome, hst, hn⟩ hm ↦ ?_⟩
  · obtain ⟨g, hg, hi, ho, hf, -⟩ := ticks_of_smelting hcur hne hj hT hflame
    exact ⟨g, hg, hi, ho, hf⟩
  · -- the window's last tick starts one short of `smelt_ticks`, with flame left
    have hk : f.state.smeltTicks - f.state.smeltProgress - 1 + 1 =
        f.state.smeltTicks - f.state.smeltProgress := Nat.sub_add_cancel (Nat.sub_pos_of_lt hp)
    obtain ⟨g, hg, hi, ho, hf, hs, ht, hpg, hl⟩ :=
      ticks_of_smelting (j := f.state.smeltTicks - f.state.smeltProgress - 1) hcur hne
        (Nat.sub_one_lt (Nat.sub_ne_zero_of_lt hp)) hT hflame
    have hlast : g.state.smeltProgress + 1 = g.state.smeltTicks := by
      rw [hpg, ht, Nat.add_assoc, hk, Nat.add_sub_cancel' hp.le]
    obtain ⟨g', d, hg', hout, hin, hfuel⟩ := tick_of_complete (f := g)
      (by rw [hs, hi, hcur]) (by rw [hs]; exact hne) (by rw [hl]; omega) hlast.ge
      (by rw [hlast, ht]; exact hT) (hi ▸ hr) (hi ▸ ⟨s, hsome, hn⟩) (ho ▸ hm)
    -- a stackable input gives up exactly the recipe's quantity
    obtain ⟨taken, htake⟩ := hi ▸ hin
    have hq : quantity f.input = quantity g'.input + r.quantity := by
      rw [hsome] at htake ⊢
      exact tryTakeAll_of_stackable hst hn htake
    refine ⟨g', ?_, ho ▸ hout, hq, hi ▸ hin, hfuel.trans hf⟩
    rw [← hk]
    exact ticks_succ_right hg hg'

/-- Ten ticks smelt the last ore of a furnace lit for ten: nothing changes for nine of them, and
at the tenth the ingot is in the output and the ore gone. -/
theorem smelt_completes_after_remaining_ticks_ore :
    "ore" = ((some ore).map ItemStack.itemName).getD "" ∧ "ore" ≠ "" ∧ 0 < 10 ∧ 10 < 2 ^ 32 ∧
      10 - 0 ≤ 10 ∧
      (∀ j < 10 - 0, ∃ g, oreSmelter.ticks j ⟨⟨10, 0, 10, "ore"⟩, some ore, none, none, ⟨2, 0⟩⟩ =
          .ok g ∧ g.input = some ore ∧ g.output = none ∧ g.fuel = none) ∧
      oreSmelter.recipes.find (some ore) = some ⟨1, ingot, 10⟩ ∧
      (∃ s, some ore = some s ∧ s.stackable = true ∧ 1 ≤ s.quantity) ∧
      (tryMergeAll none (some ingot)).2 = true ∧
      ∃ g, oreSmelter.ticks (10 - 0) ⟨⟨10, 0, 10, "ore"⟩, some ore, none, none, ⟨2, 0⟩⟩ =
          .ok g ∧ (tryMergeAll none (some ingot)).1 = g.output ∧
        quantity (some ore) = quantity g.input + 1 ∧
        (∃ taken, tryTakeAll (some ore) (some 1) = some (g.input, taken)) ∧ g.fuel = none :=
  have h := smelt_completes_after_remaining_ticks
    (f := ⟨⟨10, 0, 10, "ore"⟩, some ore, none, none, ⟨2, 0⟩⟩) rfl (by decide) (by decide)
    (by decide) (by decide)
  have hr : oreSmelter.recipes.find (some ore) = some ⟨1, ingot, 10⟩ := rfl
  have hq : ∃ s, some ore = some s ∧ s.stackable = true ∧ 1 ≤ s.quantity :=
    ⟨ore, rfl, rfl, by decide⟩
  ⟨rfl, by decide, by decide, by decide, by decide, h.1, hr, hq, rfl, h.2 hr hq rfl⟩

/-! ### What a run never does -/

/-- One tick never adds to the input or the fuel, and never takes from the output. -/
theorem tick_slots_monotone {f' : Furnace} {d : Bool} (h : self.tick f = .ok (f', d)) :
    quantity f'.input ≤ quantity f.input ∧ quantity f'.fuel ≤ quantity f.fuel ∧
      quantity f.output ≤ quantity f'.output := by
  obtain ⟨g, dg, hb, hsm⟩ := tick_eq_ok h
  obtain ⟨hgi, hgo, hgf⟩ := burn_spec hb
  obtain ⟨hf, -, hio⟩ := smelt_spec hsm
  refine ⟨?_, ?_, ?_⟩
  · rw [← hgi]
    rcases hio with ⟨hi, -⟩ | ⟨r, -, -, s, taken, -, -, ht⟩
    · rw [hi]
    · cases taken with
      | none => rw [tryTakeAll_eq_some_none ht]
      | some t => have := tryTakeAll_eq_some_some ht; omega
  · rw [hf]
    rcases hgf with hgf | ⟨-, r, -, -, hq⟩
    · rw [hgf]
    · omega
  · rw [← hgo]
    rcases hio with ⟨-, ho⟩ | ⟨r, -, hm, -⟩
    · rw [ho]
    · have := tryMergeAll_eq_true hm; omega

/-- **Left alone, a furnace never makes input or fuel, and never loses output.** Over any
number of timer firings with nothing else touching the slots, the input and fuel slots end with
no more items than they started with, and the output slot with no fewer: whatever the recipes,
fuels and slot contents, and also where a non-stackable input makes its result from nothing. -/
theorem ticks_slots_monotone : ∀ {n : Nat} {f g : Furnace}, self.ticks n f = .ok g →
    quantity g.input ≤ quantity f.input ∧ quantity g.fuel ≤ quantity f.fuel ∧
      quantity f.output ≤ quantity g.output
  | 0, f, g, h => by cases h; exact ⟨le_rfl, le_rfl, le_rfl⟩
  | n + 1, f, g, h => by
    cases hf : self.tick f with
    | error e => simp only [ticks, hf] at h; cases h
    | ok r =>
      obtain ⟨f', d⟩ := r
      obtain ⟨hi, hfu, ho⟩ := tick_slots_monotone hf
      obtain ⟨hi', hfu', ho'⟩ := ticks_slots_monotone ((ticks_succ hf).symm.trans h)
      exact ⟨hi'.trans hi, hfu'.trans hfu, ho.trans ho'⟩

/-- A furnace lit for ten ticks, smelting its one ore from the start. -/
def oreJustLit : Furnace := ⟨⟨10, 0, 10, "ore"⟩, some ore, none, none, ⟨2, 0⟩⟩

/-- The same furnace ten ticks on: the ore is gone, the ingot is in the output, and the flame
is out. -/
def oreAfterTen : Furnace := ⟨⟨0, 0, 10, ""⟩, none, some ingot, none, ⟨2, 0⟩⟩

theorem ticks_slots_monotone_ore :
    oreSmelter.ticks 10 oreJustLit = .ok oreAfterTen ∧
      quantity oreAfterTen.input ≤ quantity oreJustLit.input ∧
      quantity oreAfterTen.fuel ≤ quantity oreJustLit.fuel ∧
      quantity oreJustLit.output ≤ quantity oreAfterTen.output :=
  ⟨rfl, ticks_slots_monotone (show oreSmelter.ticks 10 oreJustLit = .ok oreAfterTen from rfl)⟩

end FurnaceTimerCallback

end Cuberef
